import Provision.Proofs.Frame

/-!
# Waiting

A wait is a sequence of checks that found nothing, ended by the first check
that finds something or fails, or by the timeout after one that found nothing.
`pollFrom_satisfies` says so for any check, by induction on the checks still
allowed; `Polled` is that sequence seen from its end, which is where the reason
of the outcome stands. What a wait leaves alone is a separate matter: a
`Steady` relation between worlds survives the wait if it survives a check.

A wait with a wording of its own is the same wait with its failure reworded
(`await_satisfies`).
-/

namespace Provision.Run

variable {τ α : Type}

/-- How a wait ends, by its last check: `P` is what a check says about its calls and its result. -/
inductive Polled (P : List (Exchange τ) → Except (Failure τ) (Option α) → Prop)
    (late : StageTimeout τ) : List (Exchange τ) → Except (Failure τ) α → Prop
  | found (earlier) {last a} (check : P last (.ok (some a))) :
      Polled P late (earlier ++ last) (.ok a)
  | broken (earlier) {last e} (check : P last (.error e)) :
      Polled P late (earlier ++ last) (.error e)
  | late (earlier) {last} (check : P last (.ok none)) :
      Polled P late (earlier ++ last) (.error (.timeout late))
  /-- The checks allowed for the wait were used up. -/
  | unfinished {made} : Polled P late made (.error .unfinished)

variable {P : List (Exchange τ) → Except (Failure τ) (Option α) → Prop} {late : StageTimeout τ}

/-- What went before the last check does not matter. -/
theorem Polled.after {made : List (Exchange τ)} {r : Except (Failure τ) α}
    (h : Polled P late made r) (before : List (Exchange τ)) : Polled P late (before ++ made) r := by
  cases h with
  | found earlier h =>
      rw [← List.append_assoc]
      exact .found _ h
  | broken earlier h =>
      rw [← List.append_assoc]
      exact .broken _ h
  | late earlier h =>
      rw [← List.append_assoc]
      exact .late _ h
  | unfinished => exact .unfinished

variable [Duration τ]

/-- What a wait does after its check: a find is handed on, time is up, or the wait goes on. -/
def pollNext (check : Run τ (Option α)) (stage : String) (policy : StagePolicy τ)
    (subject : Value) (started : τ) (patience done : Nat) (interval : τ) : Option α → Run τ α
  | some a => do
    log (satisfiedRecord stage subject (done + 1))
    pure a
  | none => do
    let elapsed := Duration.sub (← read (·.clock)) started
    if Duration.atMost policy.timeout elapsed then
      fail (.timeout { stage, timeout := policy.timeout, subject })
    else
      sleep (Duration.least interval (Duration.sub policy.timeout elapsed))
      pollFrom check stage policy subject started patience (done + 1) (policy.grow interval)

theorem pollFrom_succ (check : Run τ (Option α)) (stage : String) (policy : StagePolicy τ)
    (subject : Value) (started : τ) (patience done : Nat) (interval : τ) :
    pollFrom check stage policy subject started (patience + 1) done interval
      = check >>= pollNext check stage policy subject started patience done interval := by
  rw [pollFrom]
  congr 1

/-- Where nothing was found, either time is up, or the wait goes on after a sleep. -/
theorem pollNext_none_eq (check : Run τ (Option α)) (stage : String) (policy : StagePolicy τ)
    (subject : Value) (started : τ) (patience done : Nat) (interval : τ) (w : World τ) :
    pollNext check stage policy subject started patience done interval none w
      = if Duration.atMost policy.timeout (Duration.sub w.clock started) = true then
          (.error (.timeout { stage, timeout := policy.timeout, subject }), w)
        else
          let pause := Duration.least interval
            (Duration.sub policy.timeout (Duration.sub w.clock started))
          pollFrom check stage policy subject started patience (done + 1) (policy.grow interval)
            { w with clock := Duration.add w.clock pause, sleeps := pause :: w.sleeps } := by
  let elapsed := Duration.sub w.clock started
  have hnext : pollNext check stage policy subject started patience done interval none w
      = (if Duration.atMost policy.timeout elapsed = true then
          fail (.timeout { stage, timeout := policy.timeout, subject })
        else do
          sleep (Duration.least interval (Duration.sub policy.timeout elapsed))
          pollFrom check stage policy subject started patience (done + 1) (policy.grow interval))
            w := rfl
  rw [hnext]
  by_cases htime : Duration.atMost policy.timeout elapsed = true
  · rw [if_pos htime, if_pos htime]
    rfl
  · rw [if_neg htime, if_neg htime]
    rfl

theorem pollNext_none (check : Run τ (Option α)) (stage : String) (policy : StagePolicy τ)
    (subject : Value) (started : τ) (patience done : Nat) (interval : τ) (w : World τ) :
    pollNext check stage policy subject started patience done interval none w
        = (.error (.timeout { stage, timeout := policy.timeout, subject }), w)
      ∨ ∃ clock sleeps,
        pollNext check stage policy subject started patience done interval none w
          = pollFrom check stage policy subject started patience (done + 1) (policy.grow interval)
              { w with clock, sleeps } := by
  rw [pollNext_none_eq]
  by_cases htime : Duration.atMost policy.timeout (Duration.sub w.clock started) = true
  · rw [if_pos htime]
    exact Or.inl rfl
  · rw [if_neg htime]
    exact Or.inr ⟨_, _, rfl⟩

theorem pollFrom_satisfies {F : Frame τ} (hF : Steady F) {check : Run τ (Option α)}
    (hcheck : check.Satisfies fun w made r w' => F w made w' ∧ P made r)
    (stage : String) (policy : StagePolicy τ) (subject : Value) (started : τ)
    (patience done : Nat) (interval : τ) :
    (pollFrom check stage policy subject started patience done interval).Satisfies
      fun w made r w' =>
        F w made w' ∧ Polled P { stage, timeout := policy.timeout, subject } made r := by
  -- The interval and the count of checks grow from turn to turn; nothing depends on them.
  induction patience generalizing done interval with
  | zero =>
      intro w
      exact ⟨[], rfl, hF.refl w, .unfinished⟩
  | succ patience ih =>
      rw [pollFrom_succ]
      have hnext : ∀ found,
          (pollNext check stage policy subject started patience done interval found).Satisfies
            fun w made r w' => F w made w' ∧ ((∃ a, found = some a ∧ made = [] ∧ r = .ok a)
              ∨ (found = none ∧ made = [] ∧
                  r = .error (.timeout { stage, timeout := policy.timeout, subject }))
              ∨ Polled P { stage, timeout := policy.timeout, subject } made r) := by
        intro found w
        cases found with
        | some a => exact ⟨[], rfl, hF.idle w _ w.clock w.sleeps, Or.inl ⟨a, rfl, rfl, rfl⟩⟩
        | none =>
            rcases pollNext_none check stage policy subject started patience done interval w with
              hlate | ⟨clock, sleeps, hgo⟩
            · rw [hlate]
              exact ⟨[], rfl, hF.refl w, Or.inr (Or.inl ⟨rfl, rfl, rfl⟩)⟩
            · rw [hgo]
              obtain ⟨made, htrace, hrest, hpolled⟩ :=
                ih (done + 1) (policy.grow interval) { w with clock, sleeps }
              have hslept := hF.idle w w.records clock sleeps
              exact ⟨made, htrace, hF.trans hslept hrest, Or.inr (Or.inr hpolled)⟩
      refine (hcheck.bind hnext).mono ?_
      intro w made r w' h
      cases h with
      | failed h => exact ⟨h.1, .broken [] h.2⟩
      | @went _ made₁ found w₁ made₂ _ _ first second =>
          refine ⟨hF.trans first.1 second.1, ?_⟩
          rcases second.2 with ⟨a, rfl, rfl, rfl⟩ | ⟨rfl, rfl, rfl⟩ | hpolled
          · simpa using Polled.found [] first.2
          · simpa using Polled.late [] first.2
          · exact hpolled.after made₁

theorem pollUntil_satisfies {F : Frame τ} (hF : Steady F) {check : Run τ (Option α)}
    (hcheck : check.Satisfies fun w made r w' => F w made w' ∧ P made r)
    (stage : String) (policy : StagePolicy τ) (subject : Value) :
    (pollUntil check stage policy subject).Satisfies fun w made r w' =>
      F w made w' ∧ Polled P { stage, timeout := policy.timeout, subject } made r :=
  fun w => pollFrom_satisfies hF hcheck stage policy subject w.clock w.patience 0
    policy.interval w

/-! ## Waiting with a wording -/

/-- The failure of a wait that has a wording of its own. -/
def reworded (subject : Value) (wording : String) : Failure τ → Failure τ
  | .timeout t => .timeout
      { t with
        subject
        wording := t.stage ++ ": " ++ wording ++ " (" ++ Duration.text t.timeout ++ "s)" }
  | e => e

theorem await_eq (check : Run τ (Option α)) (stage : String) (policy : StagePolicy τ)
    (subject : Value) (wording : String) :
    Machine.await check stage policy subject wording
      = attempt (pollUntil check stage policy subject) fun r =>
          ofExcept (r.mapError (reworded subject wording)) := by
  unfold Machine.await
  congr 1
  funext r
  cases r with
  | ok a => rfl
  | error e => cases e <;> rfl

theorem await_satisfies {F : Frame τ} (hF : Steady F) {check : Run τ (Option α)}
    (hcheck : check.Satisfies fun w made r w' => F w made w' ∧ P made r)
    (stage : String) (policy : StagePolicy τ) (subject : Value) (wording : String) :
    (Machine.await check stage policy subject wording).Satisfies fun w made r w' =>
      F w made w' ∧ ∃ plain, Polled P { stage, timeout := policy.timeout, subject } made plain
        ∧ r = plain.mapError (reworded subject wording) := by
  rw [await_eq]
  have hwait := pollUntil_satisfies hF hcheck stage policy subject
  refine (hwait.attempt fun r => satisfies_ofExcept _).mono ?_
  rintro w _ r w' ⟨⟨hframe, hpolled⟩, rfl, rfl, rfl⟩
  rw [List.append_nil]
  exact ⟨hframe, _, hpolled, rfl⟩

/-- A wait leaves alone what its check leaves alone. -/
theorem await_keeps {F : Frame τ} (hF : Steady F) {check : Run τ (Option α)}
    (hcheck : check.Keeps F) (stage : String) (policy : StagePolicy τ) (subject : Value)
    (wording : String) : (Machine.await check stage policy subject wording).Keeps F := by
  have hboth : check.Satisfies fun w made _ w' => F w made w' ∧ True :=
    hcheck.mono fun _ _ _ _ h => ⟨h, trivial⟩
  exact (await_satisfies hF hboth stage policy subject wording).mono fun _ _ _ _ h => h.1

end Provision.Run
