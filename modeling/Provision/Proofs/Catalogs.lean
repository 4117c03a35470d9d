import Provision.Selector
import Provision.Proofs.Frame

/-!
# Catalogs at hand

Selection and ordering look up their catalog independently. `catalogFor` may
have to fetch it, but once it has given an answer the answer is `Settled`: as
long as the cache stays as it is, it is given again at once, without a call.
-/

namespace Provision

variable {τ : Type}

/-- A catalog just added is found, if there was none under its key. -/
theorem CatalogCache.find?_add {cache : CatalogCache} {family : Int} {session : String}
    (hnone : cache.find? family session = none) (catalog : Catalog) :
    (cache.add family session catalog).2.find? family session
      = some (cache.add family session catalog).1 := by
  show List.find? _ (cache.entries ++ [_]) = _
  unfold CatalogCache.find? at hnone
  rw [List.find?_append, hnone, Option.none_or, List.find?_singleton]
  simp [CatalogCache.add]

namespace Run

/-- Nothing was ordered, and progress and cache are as before. -/
structure Still (w : World τ) (made : List (Exchange τ)) (w' : World τ) : Prop where
  aside : Aside w made w'
  cache : w'.cache = w.cache

theorem still_steady : Steady (Still : Frame τ) where
  idle w records clock sleeps := ⟨aside_steady.idle w records clock sleeps, rfl⟩
  trans h h' := ⟨aside_steady.trans h.aside h'.aside, h'.cache.trans h.cache⟩

theorem call_still {c : Call} (hc : c.order? = none) : (call c : Run τ c.Reply).Keeps Still := by
  refine ((call_aside hc).and (satisfies_call c)).mono ?_
  rintro w made r w' ⟨haside, -, hw'⟩
  exact ⟨haside, by rw [hw']⟩

/-! ## Loading -/

/-- A load of a catalog that is not in the cache leaves it there. -/
def Loads (family : Int) (session : String) : Post τ CachedCatalog := fun w made r w' =>
  Aside w made w' ∧ (w.cache.find? family session = none →
    ∀ entry, r = .ok entry → w'.cache.find? family session = some entry)

theorem loads_bind {α : Type} {family : Int} {session : String} {x : Run τ α}
    {f : α → Run τ CachedCatalog} (hx : x.Keeps Still)
    (hf : ∀ a, (f a).Satisfies (Loads family session)) :
    (x >>= f).Satisfies (Loads family session) := by
  refine (Satisfies.bind hx hf).mono ?_
  intro w made r w' h
  cases h with
  | failed first => exact ⟨first.aside, fun _ _ => nofun⟩
  | went first second =>
      refine ⟨aside_steady.trans first.aside second.1, fun hnone => second.2 ?_⟩
      rw [first.cache]
      exact hnone

/-- What is done to load a catalog. -/
def load (family : Int) (session : String) : Run τ CachedCatalog := do
  log (CatalogCache.loadingRecord family)
  let items ← call (.listCatalogItems family)
  let catalog ← ofFault (Catalog.ofItems? items)
  log (CatalogCache.loadedRecord family catalog)
  let (entry, cache) := (← read (·.cache)).add family session catalog
  update ({ · with cache })
  pure entry

theorem load_loads (family : Int) (session : String) :
    (load family session : Run τ CachedCatalog).Satisfies (Loads family session) := by
  refine loads_bind (still_steady.log _) fun _ => ?_
  refine loads_bind (call_still rfl) fun items => ?_
  refine loads_bind (still_steady.ofFault _) fun catalog => ?_
  refine loads_bind (still_steady.log _) fun _ => ?_
  intro w
  refine ⟨[], rfl, ⟨rfl, rfl⟩, fun hnone => ?_⟩
  rintro _ ⟨⟩
  exact CatalogCache.find?_add hnone catalog

/-- A frame that allows for catalogs to be listed and kept. -/
structure Listing (F : Frame τ) : Prop where
  steady : Steady F
  listed : ∀ family, (call (.listCatalogItems family)).Keeps F
  cached : ∀ cache, (update ({ · with cache })).Keeps F

theorem Listing.load {F : Frame τ} (hF : Listing F) (family : Int) (session : String) :
    (load family session).Keeps F := by
  refine hF.steady.bind (hF.steady.log _) fun _ => ?_
  refine hF.steady.bind (hF.listed family) fun items => ?_
  refine hF.steady.bind (hF.steady.ofFault _) fun catalog => ?_
  refine hF.steady.bind (hF.steady.log _) fun _ => ?_
  refine hF.steady.bind (hF.steady.read _) fun cache => ?_
  exact hF.steady.bind (hF.cached _) fun _ => hF.steady.pure _

theorem cachedCatalog_eq (family : Int) (session : String) (w : World τ) :
    cachedCatalog family session (call (.listCatalogItems family)) w
      = match w.cache.find? family session with
        | some entry => (.ok entry, w)
        | none => load family session w := by
  show (match w.cache.find? family session with
    | some entry => pure entry
    | none => load family session) w = _
  cases w.cache.find? family session <;> rfl

theorem cachedCatalog_satisfies (family : Int) (session : String) :
    (cachedCatalog family session (call (.listCatalogItems family)) : Run τ CachedCatalog).Satisfies
      fun w made r w' => Aside w made w' ∧
        ∀ entry, r = .ok entry → w'.cache.find? family session = some entry := by
  intro w
  rw [cachedCatalog_eq]
  cases hfind : w.cache.find? family session with
  | some entry =>
      refine ⟨[], rfl, aside_steady.refl w, ?_⟩
      rintro _ ⟨⟩
      exact hfind
  | none =>
      obtain ⟨made, htrace, haside, hloaded⟩ := load_loads family session w
      exact ⟨made, htrace, haside, hloaded hfind⟩

theorem Listing.fetch {F : Frame τ} (hF : Listing F) (source : CatalogSource) :
    source.fetch.Keeps F := by
  cases source with
  | given catalog => exact hF.steady.pure catalog
  | cached family session =>
      refine hF.steady.bind (fun w => ?_) fun entry => hF.steady.pure entry.catalog
      rw [cachedCatalog_eq]
      cases w.cache.find? family session with
      | some entry => exact hF.steady.pure entry w
      | none => exact hF.load family session w

theorem Listing.catalogFor {F : Frame τ} (hF : Listing F) (defaults : OrderDefaults)
    (source : Option CatalogSource) : (Selector.catalogFor defaults source).Keeps F := by
  cases source with
  | none => exact hF.steady.pure none
  | some source =>
      exact .ite (hF.steady.pure none)
        (hF.steady.bind (hF.fetch source) fun catalog => hF.steady.pure (some catalog))

end Run

/-! ## Answers that stay -/

namespace Selector

/-- With this cache the catalog is at hand, or it is known that none is needed. -/
def Settled (defaults : OrderDefaults) (source : Option CatalogSource)
    (catalog : Option Catalog) (cache : CatalogCache) : Prop :=
  ∀ (τ : Type) (w : World τ), w.cache = cache → catalogFor defaults source w = (.ok catalog, w)

theorem catalogFor_cached {defaults : OrderDefaults}
    (hextras : defaults.extraItems.isEmpty = false) (family : Int) (session : String) :
    (catalogFor defaults (some (.cached family session)) : Run τ (Option Catalog))
      = (do
          let entry ← Run.cachedCatalog family session (Run.call (.listCatalogItems family))
          pure (some entry.catalog)) := by
  simp only [catalogFor, hextras, CatalogSource.fetch, bind_assoc, pure_bind]
  rfl

theorem catalogFor_satisfies (defaults : OrderDefaults) (source : Option CatalogSource) :
    (catalogFor defaults source : Run τ (Option Catalog)).Satisfies fun w made r w' =>
      Run.Aside w made w' ∧
        ∀ catalog, r = .ok catalog → Settled defaults source catalog w'.cache := by
  have hsilent : ∀ catalog, (∀ (τ : Type) (w : World τ),
      catalogFor defaults source w = (.ok catalog, w)) →
        (catalogFor defaults source : Run τ (Option Catalog)).Satisfies fun w made r w' =>
          Run.Aside w made w' ∧
            ∀ catalog, r = .ok catalog → Settled defaults source catalog w'.cache := by
    intro catalog hrun w
    rw [hrun]
    refine ⟨[], rfl, Run.aside_steady.refl w, ?_⟩
    rintro _ ⟨⟩ τ' w' -
    exact hrun τ' w'
  cases source with
  | none => exact hsilent none fun _ _ => rfl
  | some source =>
      cases hextras : defaults.extraItems.isEmpty with
      | true =>
          refine hsilent none fun τ' w => ?_
          simp only [catalogFor, hextras]
          rfl
      | false =>
          cases source with
          | given catalog =>
              refine hsilent (some catalog) fun τ' w => ?_
              simp only [catalogFor, hextras]
              rfl
          | cached family session =>
              rw [catalogFor_cached hextras]
              have hpure : ∀ entry : CachedCatalog, (pure (some entry.catalog) :
                  Run τ (Option Catalog)).Satisfies fun w made r w' =>
                    made = [] ∧ r = .ok (some entry.catalog) ∧ w' = w :=
                fun entry => Run.satisfies_pure _
              refine ((Run.cachedCatalog_satisfies family session).bind hpure).mono ?_
              intro w made r w' h
              cases h with
              | failed first => exact ⟨first.1, fun _ => nofun⟩
              | @went _ _ entry _ _ _ _ first second =>
                  obtain ⟨haside, hentry⟩ := first
                  obtain ⟨rfl, rfl, rfl⟩ := second
                  rw [List.append_nil]
                  refine ⟨haside, ?_⟩
                  rintro _ ⟨⟩ τ' w' hcache
                  have hfound : Run.cachedCatalog family session
                      (Run.call (.listCatalogItems family)) w' = (.ok entry, w') := by
                    rw [Run.cachedCatalog_eq, hcache, hentry entry rfl]
                  rw [catalogFor_cached hextras, Run.bind_of_ok hfound]
                  rfl

end Selector

end Provision
