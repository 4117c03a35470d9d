import Mathlib.Data.List.Nodup
import Provision.Proofs.Adoption
import Provision.Service

/-!
# Registered for good

A call to register writes to the registry in two places, and it may fail before
the second. `writes` is the call as it goes, write by write, and `attempt` runs
it; what was written before a failure stays. Yet nothing is: the cache is only
taken where nothing can fail any more, so a call that fails leaves the registry
as it was (`attempt_eq`).

Whatever was tried before, a registry holds the strategies that were accepted,
in the order in which they were. A family that was accepted is found under its
id from then on, and other ids are not found (`registered_for_good`).
-/

namespace Provision.Registry

variable {τ : Type} {r : Registry τ} {s : Strategy τ}

/-! ## A call, write by write -/

/-- What a call to register does, write by write, where it finds the registry `r`. -/
def writes (r : Registry τ) (s : Strategy τ) : ExceptT Fault (StateM (Registry τ)) Unit := do
  if r.contains s.family then throw (.configuration (.familyTaken s.family))
  if r.cache.isNone then modify ({ · with cache := s.cache })
  else if s.cache != r.cache then throw (.configuration (.foreignCache s.family))
  modify fun r => { r with strategies := r.strategies ++ [s] }

/-- How a call ends, and the registry as it is then. A failure does not undo what was written. -/
def attempt (r : Registry τ) (s : Strategy τ) : Except Fault Unit × Registry τ :=
  (r.writes s).run.run r

/-- Write by write or at once, a registration comes to the same. -/
theorem attempt_eq (r : Registry τ) (s : Strategy τ) :
    r.attempt s = ((r.register s).map fun _ => (), r.enroll s) := by
  unfold attempt writes enroll register
  by_cases htaken : r.contains s.family = true
  · rw [if_pos htaken, if_pos htaken]
    rfl
  · rw [if_neg htaken, if_neg htaken]
    obtain ⟨strategies, _ | own⟩ := r
    · rfl
    · by_cases hforeign : (s.cache != some own) = true
      · simp only [hforeign]
        rfl
      · simp only [Bool.eq_false_iff.mpr hforeign]
        rfl

/-- A call ends as a registration at once, with all its writes or with none. -/
theorem attempt_eq_match (r : Registry τ) (s : Strategy τ) :
    r.attempt s = match r.register s with
      | .ok registered => (.ok (), registered)
      | .error fault => (.error fault, r) := by
  rw [attempt_eq, enroll]
  cases r.register s <;> rfl

/-- The two reasons to refuse a strategy. -/
theorem refused_iff (r : Registry τ) (s : Strategy τ) :
    (∃ cause, r.register s = .error (.configuration cause))
      ↔ s.family ∈ r.families ∨ ∃ own, r.cache = some own ∧ s.cache ≠ some own := by
  have hforeign : (r.cache ≠ none ∧ s.cache ≠ r.cache)
      ↔ ∃ own, r.cache = some own ∧ s.cache ≠ some own := by
    cases r.cache <;> simp
  rw [← hforeign]
  rcases r.register_cases s with ⟨hwhy, hrefused⟩ | ⟨hfree, hcache, hdone⟩
  · exact iff_of_true hrefused hwhy
  · rw [hdone]
    exact iff_of_false nofun fun hwhy => hwhy.elim hfree fun h => hcache.elim h.1 h.2

/-! ## Many calls -/

/-- The registry after some calls, whether they failed or not. -/
def attemptAll (r : Registry τ) (calls : List (Strategy τ)) : Registry τ :=
  calls.foldl (fun r s => (r.attempt s).2) r

theorem attemptAll_eq (r : Registry τ) (calls : List (Strategy τ)) :
    r.attemptAll calls = r.enrollAll calls := by
  simp only [attemptAll, enrollAll, attempt_eq]

/-- The strategies of the calls that did not fail. -/
def accepted (r : Registry τ) : List (Strategy τ) → List (Strategy τ)
  | [] => []
  | s :: rest =>
    match r.attempt s with
    | (.ok _, r) => s :: r.accepted rest
    | (.error _, r) => r.accepted rest

/-- A registry holds what it held, and then what was accepted. -/
theorem strategies_enrollAll (r : Registry τ) (calls : List (Strategy τ)) :
    (r.enrollAll calls).strategies = r.strategies ++ r.accepted calls := by
  induction calls generalizing r with
  | nil => exact (List.append_nil _).symm
  | cons s rest ih =>
      rw [enrollAll_cons, ih, accepted, attempt_eq]
      rcases r.register_cases s with ⟨-, cause, hrefused⟩ | ⟨-, -, hdone⟩
      · have hsame : r.enroll s = r := by rw [enroll, hrefused]; rfl
        rw [hrefused, hsame]
        rfl
      · have hadded : (r.enroll s).strategies = r.strategies ++ [s] := by rw [enroll, hdone]; rfl
        rw [hdone, hadded, List.append_assoc]
        rfl

/-! ## Lookups -/

/-- No family is registered twice. -/
theorem nodup_families_enrollAll (h : r.families.Nodup) (calls : List (Strategy τ)) :
    (r.enrollAll calls).families.Nodup := by
  refine enrollAll_induction (P := fun r => r.families.Nodup) (fun r s hr => ?_) h calls
  rcases r.enroll_cases s with ⟨-, hsame⟩ | ⟨hfree, -, hdone⟩
  · rw [hsame]
    exact hr
  · have hadded : (r.enroll s).families = r.families ++ [s.family] := by
      rw [hdone]
      exact List.map_append
    rw [hadded]
    exact List.Nodup.append hr (List.nodup_singleton _) (List.disjoint_singleton.mpr hfree)

theorem get_eq_ok_iff (h : r.families.Nodup) {id : Int} :
    r.get id = .ok s ↔ s ∈ r.strategies ∧ s.family = id := by
  have hget : r.get id = .ok s ↔ r.find? id = some s := by
    unfold get
    cases r.find? id <;> simp
  rw [hget]
  constructor
  · intro hfound
    exact ⟨List.mem_of_find?_eq_some hfound, by simpa using List.find?_some hfound⟩
  · rintro ⟨hs, rfl⟩
    obtain ⟨t, hfound⟩ := Option.isSome_iff_exists.mp
      (contains_iff.mpr (List.mem_map_of_mem hs) : r.contains s.family = true)
    have hfamily : t.family = s.family := by simpa using List.find?_some hfound
    have hsame : t = s := List.inj_on_of_nodup_map h (List.mem_of_find?_eq_some hfound) hs hfamily
    rw [hfound, hsame]

theorem get_refused_iff {id : Int} :
    (∃ cause, r.get id = .error (.configuration cause)) ↔ id ∉ r.families := by
  rw [← contains_iff, contains]
  unfold get
  cases r.find? id <;> simp

/-- **Registered for good.** After any calls to register, a call fails just if the family is taken,
or if the registry has a cache and it is not the strategy's; then it fails with a configuration
fault and leaves the registry as it was. The registry holds the strategies that were accepted, as
they came, and lists their families without repeats. The strategy accepted under an id is what is
found under it, whatever is registered later, and under other ids nothing is found. -/
theorem registered_for_good (cache : Option CacheName) (calls : List (Strategy τ)) :
    let r := ({ cache } : Registry τ).attemptAll calls
    let accepted := ({ cache } : Registry τ).accepted calls
    (∀ s, ((∃ cause, r.register s = .error (.configuration cause))
        ↔ s.family ∈ accepted.map Strategy.family ∨ ∃ own, r.cache = some own ∧ s.cache ≠ some own)
      ∧ (∀ fault, r.register s = .error fault → ∃ cause, fault = .configuration cause)
      ∧ r.attempt s = match r.register s with
        | .ok registered => (.ok (), registered)
        | .error fault => (.error fault, r))
    ∧ (r.strategies = accepted ∧ r.size = accepted.length
      ∧ r.summaries.map FamilySummary.id = accepted.map Strategy.family
      ∧ (r.summaries.map FamilySummary.id).Nodup)
    ∧ ∀ id, (∀ s, (r.get id = .ok s ↔ s ∈ accepted ∧ s.family = id)
        ∧ (r.get id = .ok s → ∀ more, (r.attemptAll more).get id = .ok s))
      ∧ ((∃ cause, r.get id = .error (.configuration cause)) ↔ ∀ s ∈ accepted, s.family ≠ id) := by
  intro r accepted
  have hr : r = ({ cache } : Registry τ).enrollAll calls := attemptAll_eq _ calls
  have hstrategies : r.strategies = accepted := by
    rw [hr]
    exact strategies_enrollAll _ calls
  have hfamilies : r.families = accepted.map Strategy.family := by rw [families, hstrategies]
  have hnodup : r.families.Nodup := by
    rw [hr]
    exact nodup_families_enrollAll (r := { cache }) List.nodup_nil calls
  have hsummaries : r.summaries.map FamilySummary.id = r.families := by
    rw [summaries, families, List.map_map]
    rfl
  refine ⟨fun s => ⟨?_, ?_, attempt_eq_match r s⟩, ⟨hstrategies, ?_, ?_, ?_⟩,
    fun id => ⟨fun s => ⟨?_, ?_⟩, ?_⟩⟩
  · rw [refused_iff, hfamilies]
  · intro fault hfault
    rcases r.register_cases s with ⟨-, cause, hrefused⟩ | ⟨-, -, hdone⟩
    · exact ⟨cause, Except.error.inj (hfault.symm.trans hrefused)⟩
    · rw [hdone] at hfault
      cases hfault
  · rw [size, hstrategies]
  · rw [hsummaries, hfamilies]
  · rw [hsummaries]
    exact hnodup
  · rw [get_eq_ok_iff hnodup, hstrategies]
  · intro hs more
    rw [attemptAll_eq, get_eq_ok_iff (nodup_families_enrollAll hnodup more)]
    exact ((get_eq_ok_iff hnodup).mp hs).imp_left (mem_enrollAll · more)
  · rw [get_refused_iff, hfamilies]
    simp only [List.mem_map, not_exists, not_and, ne_eq]

end Provision.Registry
