import Provision.Family.Registry

/-!
# One cache for all

A registry without a cache takes that of the first strategy that has one. From
then on only strategies with this cache get in, so nobody ever uses a second
one. But strategies without a cache may have got in before. They stay, and the
registry has a cache that is not theirs. The first attempt to register decides
whether this can happen (`cache_shared_iff`).
-/

namespace Provision.Registry

variable {τ : Type} {r : Registry τ} {s : Strategy τ}

/-! ## One attempt -/

theorem contains_iff {family : Int} : r.contains family = true ↔ family ∈ r.families := by
  simp [contains, find?, families]

/-- A strategy is refused if its family is taken or the registry has a cache that is not its own,
and accepted otherwise. -/
theorem register_cases (r : Registry τ) (s : Strategy τ) :
    ((s.family ∈ r.families ∨ r.cache ≠ none ∧ s.cache ≠ r.cache)
        ∧ ∃ cause, r.register s = .error (.configuration cause))
      ∨ s.family ∉ r.families ∧ (r.cache = none ∨ s.cache = r.cache)
        ∧ r.register s = .ok { strategies := r.strategies ++ [s], cache := r.cache.or s.cache } := by
  unfold register
  by_cases htaken : r.contains s.family = true
  · rw [if_pos htaken]
    exact Or.inl ⟨Or.inl (contains_iff.mp htaken), _, rfl⟩
  · rw [if_neg htaken]
    have hfree : s.family ∉ r.families := fun h => htaken (contains_iff.mpr h)
    cases hcache : r.cache with
    | none => exact Or.inr ⟨hfree, Or.inl rfl, rfl⟩
    | some cache =>
        by_cases hsame : s.cache = some cache
        · rw [hsame]
          exact Or.inr ⟨hfree, Or.inr rfl, by simp⟩
        · exact Or.inl ⟨Or.inr ⟨nofun, hsame⟩, _, by simp [hsame]; rfl⟩

/-- The registry after an attempt to register. A strategy that is refused leaves it as it is. -/
def enroll (r : Registry τ) (s : Strategy τ) : Registry τ := (r.register s).toOption.getD r

theorem enroll_cases (r : Registry τ) (s : Strategy τ) :
    ((s.family ∈ r.families ∨ r.cache ≠ none ∧ s.cache ≠ r.cache) ∧ r.enroll s = r)
      ∨ s.family ∉ r.families ∧ (r.cache = none ∨ s.cache = r.cache)
        ∧ r.enroll s = { strategies := r.strategies ++ [s], cache := r.cache.or s.cache } := by
  unfold enroll
  rcases r.register_cases s with ⟨hwhy, cause, hrefused⟩ | ⟨hfree, hcache, hdone⟩
  · rw [hrefused]
    exact Or.inl ⟨hwhy, rfl⟩
  · rw [hdone]
    exact Or.inr ⟨hfree, hcache, rfl⟩

/-! ## Any attempts -/

def enrollAll (r : Registry τ) (calls : List (Strategy τ)) : Registry τ := calls.foldl enroll r

@[simp] theorem enrollAll_cons (r : Registry τ) (s : Strategy τ) (rest : List (Strategy τ)) :
    r.enrollAll (s :: rest) = (r.enroll s).enrollAll rest := rfl

/-- What an attempt preserves, any attempts preserve. -/
theorem enrollAll_induction {P : Registry τ → Prop} (hstep : ∀ r s, P r → P (r.enroll s)) (h : P r)
    (calls : List (Strategy τ)) : P (r.enrollAll calls) := by
  induction calls generalizing r with
  | nil => exact h
  | cons s rest ih => exact ih (hstep r s h)

/-- Who has got in stays. -/
theorem mem_enrollAll (h : s ∈ r.strategies) (calls : List (Strategy τ)) :
    s ∈ (r.enrollAll calls).strategies := by
  refine enrollAll_induction (P := fun r => s ∈ r.strategies) (fun r s' hs => ?_) h calls
  rcases r.enroll_cases s' with ⟨-, hsame⟩ | ⟨-, -, hdone⟩
  · rw [hsame]
    exact hs
  · rw [hdone]
    exact List.mem_append_left [s'] hs

/-- No strategy uses a cache other than the registry's. -/
def Undivided (r : Registry τ) : Prop := ∀ s ∈ r.strategies, s.cache = r.cache ∨ s.cache = none

theorem Undivided.enroll (h : r.Undivided) (s : Strategy τ) : (r.enroll s).Undivided := by
  rcases r.enroll_cases s with ⟨-, hsame⟩ | ⟨-, hcache, hdone⟩
  · rw [hsame]
    exact h
  · rw [hdone]
    refine List.forall_mem_append.mpr ⟨fun t ht => ?_, List.forall_mem_singleton.mpr ?_⟩
    · cases hown : r.cache with
      | none => exact Or.inr ((h t ht).elim (·.trans hown) id)
      | some cache => exact (h t ht).imp_left (·.trans hown)
    · rcases hcache with hnone | hsame
      · rw [hnone]
        exact Or.inl rfl
      · rw [hsame, Option.or_self]
        exact Or.inl rfl

/-- A cache that the registry has it keeps. -/
theorem cached_enrollAll (h : r.cache ≠ none) (calls : List (Strategy τ)) :
    (r.enrollAll calls).cache ≠ none := by
  refine enrollAll_induction (P := fun r => r.cache ≠ none) (fun r s hcached => ?_) h calls
  rcases r.enroll_cases s with ⟨-, hsame⟩ | ⟨-, -, hdone⟩
  · rw [hsame]
    exact hcached
  · obtain ⟨cache, hown⟩ := Option.ne_none_iff_exists'.mp hcached
    rw [hdone, hown]
    exact nofun

/-- Every strategy uses the registry's cache. -/
def Uniform (r : Registry τ) : Prop := ∀ s ∈ r.strategies, s.cache = r.cache

theorem Uniform.enroll (h : r.Uniform) (hcached : r.cache ≠ none) (s : Strategy τ) :
    (r.enroll s).Uniform := by
  rcases r.enroll_cases s with ⟨-, hsame⟩ | ⟨-, hcache, hdone⟩
  · rw [hsame]
    exact h
  · have hs : s.cache = r.cache := hcache.resolve_left hcached
    rw [hdone, hs, Option.or_self]
    exact List.forall_mem_append.mpr ⟨h, List.forall_mem_singleton.mpr hs⟩

/-- Where the registry has a cache, everybody who gets in uses it. -/
theorem Uniform.enrollAll (h : r.Uniform) (hcached : r.cache ≠ none)
    (calls : List (Strategy τ)) : (r.enrollAll calls).Uniform :=
  (enrollAll_induction (P := fun r => r.Uniform ∧ r.cache ≠ none)
    (fun _ s h => ⟨h.1.enroll h.2 s, cached_enrollAll h.2 [s]⟩) ⟨h, hcached⟩ calls).1

/-! ## Where the cache comes from -/

/-- A place in a list with one more in front is the front, or a place in the list. -/
theorem exists_split_cons {α : Type} {P : List α → α → Prop} {a : α} {rest : List α} :
    (∃ before x after, a :: rest = before ++ x :: after ∧ P before x)
      ↔ P [] a ∨ ∃ before x after, rest = before ++ x :: after ∧ P (a :: before) x := by
  constructor
  · rintro ⟨before, x, after, hsplit, h⟩
    cases before with
    | nil =>
        cases hsplit
        exact Or.inl h
    | cons b before =>
        cases hsplit
        exact Or.inr ⟨before, x, after, rfl, h⟩
  · rintro (h | ⟨before, x, after, rfl, h⟩)
    · exact ⟨[], a, rest, rfl, h⟩
    · exact ⟨a :: before, x, after, rfl, h⟩

/-- A registry without a cache gets one from the first strategy that has one and whose family is
not taken by then. -/
theorem cached_enrollAll_iff (hnone : r.cache = none) (calls : List (Strategy τ)) :
    (r.enrollAll calls).cache ≠ none ↔ ∃ before s after, calls = before ++ s :: after
      ∧ s.cache ≠ none ∧ s.family ∉ r.families ++ before.map Strategy.family := by
  induction calls generalizing r with
  | nil => exact iff_of_false (fun h => h hnone) (by simp)
  | cons c rest ih =>
      rw [exists_split_cons, enrollAll_cons]
      rcases r.enroll_cases c with ⟨hwhy, hsame⟩ | ⟨hfree, -, hdone⟩
      · -- Without a cache of its own the registry refuses nothing but a family that is taken.
        have htaken : c.family ∈ r.families := hwhy.resolve_right fun h => h.1 hnone
        have hrest : ∀ before : List (Strategy τ), ∀ family : Int,
            family ∉ r.families ++ (c :: before).map Strategy.family
              ↔ family ∉ r.families ++ before.map Strategy.family := by
          intro before family
          simp only [List.map_cons, List.mem_append, List.mem_cons]
          grind
        rw [hsame, ih hnone, or_iff_right fun h => h.2 (List.mem_append_left _ htaken)]
        simp only [hrest]
      · rw [hdone, hnone, Option.none_or]
        cases hcache : c.cache with
        | some cache =>
            have hcached : ({ strategies := r.strategies ++ [c], cache := some cache } :
                Registry τ).cache ≠ none := nofun
            refine iff_of_true (cached_enrollAll hcached rest) (Or.inl ⟨nofun, ?_⟩)
            rw [List.map_nil, List.append_nil]
            exact hfree
        | none =>
            rw [ih rfl, or_iff_right fun h => h.1 rfl]
            simp only [families, List.map_append, List.map_cons, List.map_nil, List.append_assoc,
              List.singleton_append]

/-! ## One cache or none -/

/-- A registry without a cache accepts its first strategy, whatever it is. -/
theorem enroll_first (first : Strategy τ) :
    ({} : Registry τ).enroll first = { strategies := [first], cache := first.cache } := by
  rcases enroll_cases ({} : Registry τ) first with ⟨hwhy | hwhy, -⟩ | ⟨-, -, hdone⟩
  · cases hwhy
  · exact absurd rfl hwhy.1
  · exact hdone

/-- Where a strategy without a cache got in, all use the registry's cache only while there is none. -/
theorem Undivided.uniform_iff (h : r.Undivided) (hs : s ∈ r.strategies) (hnone : s.cache = none) :
    r.Uniform ↔ r.cache = none := by
  constructor
  · intro huniform
    rw [← huniform s hs, hnone]
  · intro hcache t ht
    rw [hcache]
    exact (h t ht).elim (·.trans hcache) id

/-- **Nobody uses a second cache, but some may use none.** Whatever strategies are to be registered,
those that get in use the cache of the registry or none at all. All of them use the registry's cache
just if it does not happen that a registry without a cache is first given a strategy without one,
and later one that has a cache and a family of its own. -/
theorem cache_shared_iff (cache : Option CacheName) (calls : List (Strategy τ)) :
    let r := ({ cache } : Registry τ).enrollAll calls
    (∀ s ∈ r.strategies, s.cache = r.cache ∨ s.cache = none)
    ∧ ((∀ s ∈ r.strategies, s.cache = r.cache) ↔
      ¬ (cache = none ∧ ∃ first before s after, calls = first :: (before ++ s :: after)
        ∧ first.cache = none ∧ s.cache ≠ none
        ∧ s.family ∉ (first :: before).map Strategy.family)) := by
  intro r
  have hempty : ({ cache } : Registry τ).Undivided := fun _ => nofun
  have hundivided : r.Undivided := enrollAll_induction (fun _ s h => h.enroll s) hempty calls
  refine ⟨hundivided, ?_⟩
  cases cache with
  | some cache =>
      have huniform : ({ cache := some cache } : Registry τ).Uniform := fun _ => nofun
      exact iff_of_true (huniform.enrollAll nofun calls) fun h => nomatch h.1
  | none =>
      cases calls with
      | nil => exact iff_of_true (fun _ => nofun) fun ⟨_, _, _, _, _, hsplit, _⟩ => nomatch hsplit
      | cons first rest =>
          have hr : r = ({ strategies := [first], cache := first.cache } : Registry τ).enrollAll
              rest := by
            rw [← enroll_first]
            rfl
          cases hfirst : first.cache with
          | some cache =>
              have huniform : ({ strategies := [first], cache := first.cache } :
                  Registry τ).Uniform := List.forall_mem_singleton.mpr rfl
              refine iff_of_true ?_ ?_
              · rw [hr]
                exact huniform.enrollAll (by rw [hfirst]; nofun) rest
              · rintro ⟨-, _, _, _, _, ⟨⟩, hnone, -⟩
                rw [hfirst] at hnone
                cases hnone
          | none =>
              have hmem : first ∈ r.strategies := by
                rw [hr]
                exact mem_enrollAll (List.mem_singleton_self first) rest
              have hcached := cached_enrollAll_iff
                (r := { strategies := [first], cache := first.cache }) hfirst rest
              rw [← hr] at hcached
              refine (hundivided.uniform_iff hmem hfirst).trans ⟨fun hnone => ?_, fun hnot => ?_⟩
              · rintro ⟨-, _, before, s, after, ⟨⟩, -, hs, hfree⟩
                exact hcached.mpr ⟨before, s, after, rfl, hs, hfree⟩ hnone
              · refine Classical.byContradiction fun hsome => hnot ⟨rfl, ?_⟩
                obtain ⟨before, s, after, rfl, hs, hfree⟩ := hcached.mp hsome
                exact ⟨first, before, s, after, rfl, hfirst, hs, hfree⟩

/-- A family of servers without any choice. -/
def plainFamily (family : Int) : FamilySpec Rat :=
  { family, name := "server", kind := .hardwareServer
    rules := { slots := [], cpu := .fixed 4 2.6, bootDisk := "disk0", disks := ⟨"", .empty, rfl⟩ }
    policies := FamilySpec.serverTiming 10 10 10 }

/-- The registry has taken the cache of its second strategy, and the first one does without. -/
theorem cache_overlooked :
    let uncached := { Strategy.build (plainFamily 46) "catalogs" with cache := none }
    let cached := Strategy.build (plainFamily 50) "catalogs"
    let r := ({} : Registry Rat).enrollAll [uncached, cached]
    r.strategies = [uncached, cached] ∧ r.cache = some "catalogs"
    ∧ ¬ ∀ s ∈ r.strategies, s.cache = r.cache := by
  refine ⟨rfl, rfl, fun huniform => ?_⟩
  have hfirst := huniform _ (List.mem_cons_self ..)
  cases hfirst

end Provision.Registry
