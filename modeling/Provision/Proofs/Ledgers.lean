import Mathlib.Algebra.GroupWithZero.Nat
import Mathlib.Data.List.Nodup
import Provision.Proofs.Listings

/-!
# The books of a cache

A cache is asked for catalogs, whether it has one, and to drop some. What a
single request may do is listed once (`Performs`): a catalog at hand is given
as it is; otherwise the loader is run, and only a load that succeeds changes
anything, under its own key. From this follow the books that can be kept over
any sequence of requests (`Balanced`): every catalog that was ever loaded is
either there or has been dropped, and of each key the latest load is there, if
any is.
-/

namespace Provision

variable {τ : Type}

/-- The key under which a catalog is kept. -/
def CachedCatalog.key (entry : CachedCatalog) : Int × String := (entry.family, entry.session)

namespace CatalogCache

/-! ## Keys -/

section Keys

variable {cache : CatalogCache} {family : Int} {session : String} {entry : CachedCatalog}

theorem mem_of_find? (h : cache.find? family session = some entry) :
    entry ∈ cache.entries ∧ entry.key = (family, session) := by
  have hkey := List.find?_some h
  rw [Bool.and_eq_true, beq_iff_eq, beq_iff_eq] at hkey
  exact ⟨List.mem_of_find?_eq_some h, Prod.ext hkey.1 hkey.2⟩

theorem key_ne_of_find? (h : cache.find? family session = none) (hentry : entry ∈ cache.entries) :
    entry.key ≠ (family, session) := by
  rintro ⟨⟩
  have hother := List.find?_eq_none.mp h entry hentry
  simp at hother

/-- A catalog just added is found under its own key only. -/
theorem find?_add_of_ne (cache : CatalogCache) {family' : Int} {session' : String}
    (h : (family', session') ≠ (family, session)) (catalog : Catalog) :
    (cache.add family session catalog).2.find? family' session'
      = cache.find? family' session' := by
  have hother : ¬ (family = family' ∧ session = session') := by
    rintro ⟨rfl, rfl⟩
    exact h rfl
  unfold find? add
  rw [List.find?_append, List.find?_singleton]
  simp [hother]

theorem find?_drop_eq (cache : CatalogCache) (dropped : Option Int) (family : Int)
    (session : String) :
    (cache.drop dropped).2.find? family session
      = if dropped = none ∨ dropped = some family then none else cache.find? family session := by
  by_cases h : dropped = none ∨ dropped = some family
  · rw [if_pos h]
    exact find?_drop cache h
  · rw [if_neg h]
    rw [not_or] at h
    obtain ⟨other, rfl⟩ := Option.ne_none_iff_exists'.mp h.1
    exact find?_drop_other cache fun hsame => h.2 (congrArg some hsame)

end Keys

/-! ## Requests -/

/-- What loads a catalog. Whatever else it does, it leaves the cache alone. -/
structure Loader (τ : Type) where
  run : Run τ (Option (List Item))
  aloof : ∀ w, (run w).2.cache = w.cache

inductive Request (τ : Type) where
  | get (family : Int) (session : String) (loader : Loader τ)
  | isCached (family : Int) (session : String)
  | invalidate (family : Option Int)

inductive Reply (τ : Type) where
  | got (result : Except (Failure τ) CachedCatalog)
  | cached (answer : Bool)
  | dropped (count : Nat)

/-- How many catalogs were dropped. -/
def Reply.count : Reply τ → Nat
  | dropped count => count
  | _ => 0

/-- The world in which a loader is run. -/
def loading (family : Int) (w : World τ) : World τ :=
  { w with records := loadingRecord family :: w.records }

namespace Request

/-- A request as it is made; a failed load is its reply. -/
def perform : Request τ → Run τ (Reply τ)
  | get family session loader =>
    Run.attempt (Run.cachedCatalog family session loader.run) fun result => pure (.got result)
  | isCached family session => Reply.cached <$> Run.read (·.cache.holds family session)
  | invalidate family => Reply.dropped <$> Run.dropCatalogs family

/-- What a request loads: its loader is run if no catalog is kept under the key, and lists items. -/
def loaded (w : World τ) : Request τ → Option CachedCatalog
  | get family session loader =>
    match w.cache.find? family session, (loader.run (loading family w)).1 with
    | none, .ok (some items) =>
      some { family, session, catalog := .ofItems items, serial := w.cache.loads + 1 }
    | _, _ => none
  | _ => none

end Request

def performAll (requests : List (Request τ)) : Run τ (List (Reply τ)) :=
  requests.mapM Request.perform

/-- What some requests load, the first in front. -/
def loaded : List (Request τ) → World τ → List CachedCatalog
  | [], _ => []
  | request :: rest, w => (request.loaded w).toList ++ loaded rest (request.perform w).2

/-! ## One request -/

/-- What a request may come to. -/
inductive Performs (w : World τ) : Request τ → Reply τ → World τ → Prop
  /-- The loader has no part in it: nothing at all is done. -/
  | held {family session entry} (loader) (kept : w.cache.find? family session = some entry) :
      Performs w (.get family session loader) (.got (.ok entry)) w
  | raised {family session} {loader : Loader τ} {e w'}
      (missing : w.cache.find? family session = none)
      (failure : loader.run (loading family w) = (.error e, w')) (cache : w'.cache = w.cache) :
      Performs w (.get family session loader) (.got (.error e)) w'
  | nothing {family session} {loader : Loader τ} {w'}
      (missing : w.cache.find? family session = none)
      (empty : loader.run (loading family w) = (.ok none, w')) (cache : w'.cache = w.cache) :
      Performs w (.get family session loader) (.got (.error (.fault (.data .noItems)))) w'
  | loaded {family session} {loader : Loader τ} {items entry cache w₁}
      (missing : w.cache.find? family session = none)
      (listed : loader.run (loading family w) = (.ok (some items), w₁))
      (made : (entry, cache) = w.cache.add family session (.ofItems items))
      (kept : cache.find? family session = some entry)
      (spared : ∀ family' session', (family', session') ≠ (family, session) →
        cache.find? family' session' = w.cache.find? family' session') :
      Performs w (.get family session loader) (.got (.ok entry))
        { w₁ with records := loadedRecord family (.ofItems items) :: w₁.records, cache }
  | asked (family session) :
      Performs w (.isCached family session) (.cached (w.cache.find? family session).isSome) w
  | dropped {family count cache} (made : (count, cache) = w.cache.drop family)
      (gone : ∀ family' session, cache.find? family' session
        = if family = none ∨ family = some family' then none else w.cache.find? family' session)
      (counted : w.cache.entries.length = cache.entries.length + count) :
      Performs w (.invalidate family) (.dropped count)
        { w with records := if count = 0 then w.records else droppedRecord count :: w.records
                 cache }

/-- What is done with the items that a loader lists. -/
def keep (family : Int) (session : String) (items : Option (List Item)) : Run τ CachedCatalog := do
  let catalog ← Run.ofFault (Catalog.ofItems? items)
  Run.log (loadedRecord family catalog)
  let (entry, cache) := (← Run.read (·.cache)).add family session catalog
  Run.update ({ · with cache })
  pure entry

theorem keep_items (family : Int) (session : String) (items : List Item) (w : World τ) :
    keep family session (some items) w
      = (.ok (w.cache.add family session (.ofItems items)).1,
          { w with records := loadedRecord family (.ofItems items) :: w.records
                   cache := (w.cache.add family session (.ofItems items)).2 }) := rfl

theorem read_cache (w : World τ) :
    (Run.read (·.cache) : Run τ CatalogCache) w = (.ok w.cache, w) := rfl

section Get

variable {family : Int} {session : String} {w : World τ}

theorem cachedCatalog_held {entry : CachedCatalog} (h : w.cache.find? family session = some entry)
    (loader : Run τ (Option (List Item))) :
    Run.cachedCatalog family session loader w = (.ok entry, w) := by
  unfold Run.cachedCatalog
  rw [Run.bind_of_ok (read_cache w), h]
  rfl

theorem cachedCatalog_missing (h : w.cache.find? family session = none)
    (loader : Run τ (Option (List Item))) :
    Run.cachedCatalog family session loader w
      = (loader >>= keep family session) (loading family w) := by
  unfold Run.cachedCatalog
  rw [Run.bind_of_ok (read_cache w), h]
  rfl

theorem perform_get {loader : Loader τ} {r : Except (Failure τ) CachedCatalog} {w' : World τ}
    (h : Run.cachedCatalog family session loader.run w = (r, w')) :
    (Request.get family session loader).perform w = (.ok (.got r), w') := by
  rw [Request.perform, Run.attempt, h]
  rfl

theorem get_performs (family : Int) (session : String) (loader : Loader τ) (w : World τ) :
    ∃ reply w', (Request.get family session loader).perform w = (.ok reply, w')
      ∧ Performs w (.get family session loader) reply w' := by
  cases hfind : w.cache.find? family session with
  | some entry => exact ⟨_, _, perform_get (cachedCatalog_held hfind _), .held loader hfind⟩
  | none =>
      have haloof : (loader.run (loading family w)).2.cache = w.cache := loader.aloof _
      have hrun := cachedCatalog_missing hfind loader.run
      rcases hload : loader.run (loading family w) with ⟨e | _ | items, w₁⟩
      · rw [hload] at haloof
        rw [Run.bind_of_error hload] at hrun
        exact ⟨_, _, perform_get hrun, .raised hfind hload haloof⟩
      · rw [hload] at haloof
        rw [Run.bind_of_ok hload] at hrun
        exact ⟨_, _, perform_get hrun, .nothing hfind hload haloof⟩
      · rw [hload] at haloof
        rw [Run.bind_of_ok hload, keep_items, haloof] at hrun
        refine ⟨_, _, perform_get hrun, .loaded hfind hload rfl (find?_add hfind _) ?_⟩
        intro family' session' hother
        exact find?_add_of_ne w.cache hother _

end Get

theorem length_drop (cache : CatalogCache) (family : Option Int) :
    cache.entries.length = (cache.drop family).2.entries.length + (cache.drop family).1 :=
  (cache.entries.length_eq_length_filter_add (concerns family)).trans (Nat.add_comm ..)

theorem invalidate_performs (family : Option Int) (w : World τ) :
    ∃ reply w', (Request.invalidate family).perform w = (.ok reply, w')
      ∧ Performs w (.invalidate family) reply w' := by
  generalize hdrop : w.cache.drop family = made
  have hrun : Run.dropCatalogs family w
      = (.ok made.1,
          { w with records := if made.1 = 0 then w.records else droppedRecord made.1 :: w.records
                   cache := made.2 }) := by
    have hlogged : Run.dropCatalogs family w
        = (do
            if made.1 != 0 then Run.log (droppedRecord made.1)
            pure made.1) { w with cache := made.2 } := by
      rw [← hdrop]
      rfl
    rw [hlogged]
    by_cases hnone : made.1 = 0
    · simp only [hnone]
      rfl
    · simp only [if_neg hnone, bne_iff_ne.mpr hnone]
      rfl
  have hreply : (Request.invalidate family).perform w = (.ok (.dropped made.1), _) :=
    (Run.bind_of_ok hrun : (Run.dropCatalogs family >>= fun count =>
      (pure (Reply.dropped count) : Run τ (Reply τ))) w = _)
  refine ⟨_, _, hreply, .dropped hdrop.symm ?_ ?_⟩
  · rw [← hdrop]
    exact find?_drop_eq w.cache family
  · rw [← hdrop]
    exact length_drop w.cache family

/-- Nothing else may happen. -/
theorem perform_performs (request : Request τ) (w : World τ) :
    ∃ reply w', request.perform w = (.ok reply, w') ∧ Performs w request reply w' := by
  cases request with
  | get family session loader => exact get_performs family session loader w
  | isCached family session => exact ⟨_, _, rfl, .asked family session⟩
  | invalidate family => exact invalidate_performs family w

/-! ## The books -/

/-- The books of a cache: what was loaded, the first in front, and how many catalogs were dropped. -/
structure Balanced (loads : List CachedCatalog) (dropped : Nat) (cache : CatalogCache) : Prop where
  conserved : loads.length = cache.entries.length + dropped
  counted : cache.loads = loads.length
  numbered : loads.map CachedCatalog.serial = List.range' 1 loads.length
  distinct : (cache.entries.map CachedCatalog.key).Nodup
  /-- What is kept is the latest load of its key. -/
  latest : ∀ entry ∈ cache.entries,
    (loads.filter fun load => load.key == entry.key).getLast? = some entry

namespace Balanced

variable {loads : List CachedCatalog} {dropped : Nat} {cache : CatalogCache}

theorem empty : Balanced [] 0 {} where
  conserved := rfl
  counted := rfl
  numbered := rfl
  distinct := List.nodup_nil
  latest _ := nofun

theorem add (h : Balanced loads dropped cache) {family : Int} {session : String}
    (hmissing : cache.find? family session = none) (catalog : Catalog) :
    Balanced (loads ++ [(cache.add family session catalog).1]) dropped
      (cache.add family session catalog).2 := by
  generalize hentry : (cache.add family session catalog).1 = entry
  have hentries : (cache.add family session catalog).2.entries = cache.entries ++ [entry] := by
    rw [← hentry]
    rfl
  have hnew : ∀ old ∈ cache.entries, old.key ≠ entry.key := by
    rw [← hentry]
    exact fun _ => key_ne_of_find? hmissing
  constructor
  case conserved =>
    have hbefore := h.conserved
    rw [hentries, List.length_append, List.length_append]
    simp only [List.length_singleton]
    omega
  case counted =>
    rw [List.length_append, ← h.counted]
    rfl
  case numbered =>
    have hserial : entry.serial = 1 + loads.length := by
      rw [← h.counted, ← hentry, Nat.add_comm]
      rfl
    rw [List.map_append, h.numbered, List.length_append, List.length_singleton,
      List.range'_1_concat, ← hserial]
    rfl
  case distinct =>
    have hfresh : entry.key ∉ cache.entries.map CachedCatalog.key := by
      intro hmem
      obtain ⟨old, hold, hsame⟩ := List.mem_map.mp hmem
      exact hnew old hold hsame
    have hdistinct := h.distinct.concat hfresh
    rw [List.concat_eq_append] at hdistinct
    rw [hentries, List.map_append]
    exact hdistinct
  case latest =>
    intro kept hkept
    rw [hentries] at hkept
    rw [List.filter_append]
    rcases List.mem_append.mp hkept with hold | hlast
    · have hother : ([entry].filter fun load => load.key == kept.key) = [] := by
        simp [(hnew kept hold).symm]
      rw [hother, List.append_nil]
      exact h.latest kept hold
    · obtain rfl := List.mem_singleton.mp hlast
      have hitself : ([kept].filter fun load => load.key == kept.key) = [kept] := by
        simp
      rw [hitself]
      exact List.getLast?_concat

theorem drop (h : Balanced loads dropped cache) (family : Option Int) :
    Balanced loads (dropped + (cache.drop family).1) (cache.drop family).2 where
  conserved := by
    have hparts := cache.length_drop family
    have hbefore := h.conserved
    omega
  counted := h.counted
  numbered := h.numbered
  distinct := h.distinct.sublist (List.filter_sublist.map _)
  latest entry hentry := h.latest entry (List.mem_filter.mp hentry).1

/-- **One request keeps the books.** -/
theorem step {w w' : World τ} {request : Request τ} {reply : Reply τ}
    (h : Balanced loads dropped w.cache) (hstep : Performs w request reply w') :
    Balanced (loads ++ (request.loaded w).toList) (dropped + reply.count) w'.cache := by
  -- Only a load that succeeds and a drop make entries.
  have hidle : request.loaded w = none → reply.count = 0 → w'.cache = w.cache →
      Balanced (loads ++ (request.loaded w).toList) (dropped + reply.count) w'.cache := by
    intro hloaded hcount hcache
    rw [hloaded, hcount, hcache, Option.toList_none, List.append_nil]
    exact h
  cases hstep with
  | held loader kept => exact hidle (by simp only [Request.loaded, kept]) rfl rfl
  | raised missing failure cache =>
      exact hidle (by simp only [Request.loaded, missing, failure]) rfl cache
  | nothing missing empty cache =>
      exact hidle (by simp only [Request.loaded, missing, empty]) rfl cache
  | @loaded family session loader items entry cache _ missing listed made kept spared =>
      have hloaded : (Request.get family session loader).loaded w
          = some (w.cache.add family session (.ofItems items)).1 := by
        simp only [Request.loaded, missing, listed]
        rfl
      have hcache : cache = (w.cache.add family session (.ofItems items)).2 :=
        congrArg Prod.snd made
      rw [hloaded, hcache]
      exact h.add missing _
  | asked family session => exact hidle rfl rfl rfl
  | @dropped family count cache made gone counted =>
      have hcount : count = (w.cache.drop family).1 := congrArg Prod.fst made
      have hcache : cache = (w.cache.drop family).2 := congrArg Prod.snd made
      have hloaded : (Request.invalidate family : Request τ).loaded w = none := rfl
      rw [hloaded, hcache, Option.toList_none, List.append_nil, Reply.count, hcount]
      exact h.drop family

/-- A run of requests keeps them as well. -/
theorem run {w : World τ} (h : Balanced loads dropped w.cache) (requests : List (Request τ)) :
    ∃ replies, (performAll requests w).1 = .ok replies
      ∧ Balanced (loads ++ loaded requests w) (dropped + (replies.map Reply.count).sum)
          (performAll requests w).2.cache := by
  induction requests generalizing loads dropped w with
  | nil =>
      refine ⟨[], rfl, ?_⟩
      rw [loaded, List.append_nil]
      exact h
  | cons request rest ih =>
      obtain ⟨reply, w₁, hperform, hstep⟩ := perform_performs request w
      obtain ⟨replies, hreplies, hbalanced⟩ := ih (h.step hstep)
      have hrun : performAll (request :: rest) w
          = (.ok (reply :: replies), (performAll rest w₁).2) :=
        Run.mapM_cons_of_ok hperform hreplies
      have hloaded : loaded (request :: rest) w
          = (request.loaded w).toList ++ loaded rest w₁ := by
        rw [loaded, hperform]
      rw [hrun, hloaded, ← List.append_assoc]
      refine ⟨reply :: replies, rfl, ?_⟩
      rw [List.map_cons, List.sum_cons, ← Nat.add_assoc]
      exact hbalanced

end Balanced

/-- **The books of a cache.** After any requests the catalogs that were ever loaded are as many as
those kept and those dropped taken together. There is one catalog for each key, and it is the very
one that was loaded last under this key. And what a further request may do is settled: the loader
is run just if nothing is kept under the key, a load that fails leaves the cache as it was, one
that succeeds adds its own key, and dropping takes the catalogs of one family, or all of them. -/
theorem performAll_balanced (requests : List (Request τ)) (w : World τ) :
    let start : World τ := { w with cache := {} }
    let now := (performAll requests start).2
    let loads := loaded requests start
    ∃ replies, (performAll requests start).1 = .ok replies
      ∧ loads.length = now.cache.entries.length + (replies.map Reply.count).sum
      ∧ (now.cache.entries.map CachedCatalog.key).Nodup
      ∧ loads.map CachedCatalog.serial = List.range' 1 loads.length
      ∧ (∀ family session entry, now.cache.find? family session = some entry →
          (loads.filter fun load => load.key == (family, session)).getLast? = some entry)
      ∧ ∀ request : Request τ, ∃ reply w',
          request.perform now = (.ok reply, w') ∧ Performs now request reply w' := by
  intro start now loads
  have hstart : Balanced [] 0 start.cache := .empty
  obtain ⟨replies, hreplies, hbalanced⟩ := hstart.run requests
  rw [List.nil_append, Nat.zero_add] at hbalanced
  refine ⟨replies, hreplies, hbalanced.conserved, hbalanced.distinct, hbalanced.numbered, ?_, ?_⟩
  · intro family session entry hfind
    obtain ⟨hmem, hkey⟩ := mem_of_find? hfind
    rw [← hkey]
    exact hbalanced.latest entry hmem
  · exact fun request => perform_performs request now

/-- A loader that gives a listing known beforehand. -/
def Loader.listing (items : Option (List Item)) : Loader τ where
  run := pure items
  aloof _ := rfl

/-- A load that gives nothing, then empty catalogs under three keys, and one family dropped. -/
theorem performAll_balanced_partly_dropped :
    let requests : List (Request Rat) := [.get 46 "a" (.listing none), .get 46 "a" (.listing (some [])),
      .get 46 "b" (.listing (some [])), .get 50 "a" (.listing (some [])), .invalidate (some 46)]
    let start : World Rat := { remote := .scripted {}, clock := 0, patience := 0 }
    (loaded requests start).length = 3
      ∧ ∃ entry, (performAll requests start).2.cache.find? 50 "a" = some entry
        ∧ ((loaded requests start).filter fun load => load.key == (50, "a")).getLast? = some entry := by
  intro requests start
  obtain ⟨replies, -, -, -, -, hlatest, -⟩ := performAll_balanced requests start
  exact ⟨rfl, _, rfl, hlatest 50 "a" _ rfl⟩

end CatalogCache

end Provision
