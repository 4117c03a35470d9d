import Provision.Proofs.Waiting

/-!
# Stages

A progress record is `At k` once its run has entered the first `k` stages. The
action of the next stage may then take the record one stage further, or leave
it `stopped`: marked as failed where the failure is one of the program's own,
and as it was otherwise. It cannot be refused, since a stage is only run at its
own position (`stage_satisfies`).
-/

namespace Provision

variable {τ α : Type}

theorem Stage.mem_take_iff (s : Stage) (k : Nat) : s ∈ Stage.all.take k ↔ s.position < k := by
  rcases k with _ | _ | _ | _ | _ | _ | k <;> cases s <;> simp [Stage.all, Stage.position]

theorem Stage.position_lt (s : Stage) : s.position < 6 := by
  cases s <;> decide

theorem Stage.exists_position {k : Nat} (hk : k < 6) : ∃ s : Stage, s.position = k := by
  have hall : ∀ k < 6, ∃ s ∈ Stage.all, s.position = k := by decide
  obtain ⟨s, -, hs⟩ := hall k hk
  exact ⟨s, hs⟩

namespace Progress

/-- The record of a run that has entered the first `k` stages and has not failed. -/
structure At (p : Progress) (k : Nat) : Prop where
  history : p.history = (Stage.all.take k).map .reached
  state : p.state = p.history.getLast?
  failedStage : p.failedStage = none
  failureReason : p.failureReason = none

theorem fresh_at (hostname : String) : (fresh hostname).At 0 := ⟨rfl, rfl, rfl, rfl⟩

theorem fresh_getD_at (host : Option String) (hostname : String) :
    ((host.map fresh).getD (fresh hostname)).At 0 := by
  cases host with
  | none => exact fresh_at hostname
  | some name => exact fresh_at name

/-- The record with one more stage entered. -/
def entered (p : Progress) (s : Stage) : Progress :=
  { p with state := some (.reached s), history := p.history ++ [.reached s] }

theorem take_position_succ (s : Stage) :
    Stage.all.take (s.position + 1) = Stage.all.take s.position ++ [s] := by
  cases s <;> rfl

theorem entered_history {p : Progress} {s : Stage}
    (h : p.history = (Stage.all.take s.position).map .reached) :
    (p.entered s).history = (Stage.all.take (s.position + 1)).map .reached := by
  show p.history ++ [RunState.reached s] = _
  rw [h, take_position_succ, List.map_append]
  rfl

theorem entered_state (p : Progress) (s : Stage) :
    (p.entered s).state = (p.entered s).history.getLast? := by
  show some (RunState.reached s) = (p.history ++ [RunState.reached s]).getLast?
  rw [List.getLast?_concat]

theorem At.entered {p : Progress} {s : Stage} (h : p.At s.position) :
    (p.entered s).At (s.position + 1) :=
  ⟨entered_history h.history, entered_state p s, h.failedStage, h.failureReason⟩

theorem At.state_eq {p : Progress} {k : Nat} (h : p.At k) :
    p.state = ((Stage.all.take k).map RunState.reached).getLast? := by
  rw [h.state, h.history]

theorem At.reached_iff {p : Progress} {k : Nat} (h : p.At k) (s : Stage) :
    .reached s ∈ p.history ↔ s.position < k := by
  rw [h.history, List.mem_map, ← Stage.mem_take_iff]
  constructor
  · rintro ⟨s', hmem, hs⟩
    cases hs
    exact hmem
  · exact fun hmem => ⟨s, hmem, rfl⟩

theorem advance_of_mayEnter {p : Progress} {next : RunState} (h : p.mayEnter next = true) :
    p.advance next = .ok { p with state := some next, history := p.history ++ [next] } := by
  have hfailed : p.isFailed = false := by
    cases hstate : p.isFailed with
    | false => rfl
    | true =>
        unfold isFailed at hstate
        unfold mayEnter at h
        rw [eq_of_beq hstate] at h
        cases next <;> cases h
  unfold Progress.advance
  rw [hfailed, h]
  rfl

theorem eq_of_advance {p p' : Progress} {next : RunState} (h : p.advance next = .ok p') :
    p' = { p with state := some next, history := p.history ++ [next] } := by
  unfold Progress.advance at h
  split at h
  · cases h
  · split at h
    · cases h
      rfl
    · cases h

theorem mayEnter_of_advance {p p' : Progress} {next : RunState} (h : p.advance next = .ok p') :
    p.mayEnter next = true := by
  unfold Progress.advance at h
  split at h
  · cases h
  · split at h
    · assumption
    · cases h

theorem At.advance {p : Progress} {s : Stage} (h : p.At s.position) :
    p.advance (.reached s) = .ok (p.entered s) := by
  have hnext : p.mayEnter (.reached s) = true := by
    unfold mayEnter
    rw [h.state_eq]
    cases s <;> rfl
  exact advance_of_mayEnter hnext

variable [Duration τ]

/-- The record after a stage that failed. Foreign failures are not recorded. -/
def stopped (p : Progress) (s : Stage) (e : Failure τ) : Progress :=
  if e.isOwn then p.fail s.name e.message else p

theorem stopped_history (p : Progress) (s : Stage) (e : Failure τ) :
    (p.stopped s e).history = p.history ++ if e.isOwn then [.failed] else [] := by
  unfold stopped
  by_cases hown : e.isOwn = true
  · rw [if_pos hown, if_pos hown]
    rfl
  · rw [if_neg hown, if_neg hown, List.append_nil]

theorem stopped_nodeId (p : Progress) (s : Stage) (e : Failure τ) :
    (p.stopped s e).nodeId = p.nodeId := by
  unfold stopped
  by_cases hown : e.isOwn = true
  · rw [if_pos hown]
    rfl
  · rw [if_neg hown]

theorem reached_mem_stopped (p : Progress) (s s' : Stage) (e : Failure τ) :
    .reached s' ∈ (p.stopped s e).history ↔ .reached s' ∈ p.history := by
  rw [stopped_history, List.mem_append]
  refine or_iff_left fun hmem => ?_
  by_cases hown : e.isOwn = true
  · rw [if_pos hown, List.mem_singleton] at hmem
    cases hmem
  · rw [if_neg hown] at hmem
    cases hmem

/-- The record after a stage. -/
def after (p : Progress) (s : Stage) : Except (Failure τ) α → Progress
  | .ok _ => p.entered s
  | .error e => p.stopped s e

end Progress

variable [Duration τ]

namespace Machine

/-- What a stage does with the result of its action. -/
def record (m : Machine τ) (s : Stage) : Except (Failure τ) α → Run τ α
  | .error e => do
    if e.isOwn then
      Run.update fun w => { w with progress := w.progress.fail s.name e.message }
      let p ← Run.read (·.progress)
      Run.log (m.failureRecord p s e.message)
    Run.fail e
  | .ok a => do
    match (← Run.read (·.progress)).advance (.reached s) with
    | .ok progress =>
      Run.update ({ · with progress })
      pure a
    | .error cause => Run.fail (.progress cause)

theorem stage_eq (m : Machine τ) (s : Stage) (action : Run τ α) :
    m.stage s action = Run.attempt action (m.record s) := by
  unfold stage
  congr 1

theorem record_error (m : Machine τ) (s : Stage) (e : Failure τ) (w : World τ) :
    ∃ records, (m.record s (.error e) : Run τ α) w
      = (.error e, { w with progress := w.progress.stopped s e, records }) := by
  unfold Progress.stopped
  by_cases hown : e.isOwn = true
  · simp only [record, if_pos hown]
    exact ⟨_, rfl⟩
  · simp only [record, if_neg hown]
    exact ⟨_, rfl⟩

theorem record_ok (m : Machine τ) (s : Stage) (a : α) (w : World τ) :
    m.record s (.ok a) w = match w.progress.advance (.reached s) with
      | .ok progress => (.ok a, { w with progress })
      | .error cause => (.error (.progress cause), w) := by
  show (match w.progress.advance (.reached s) with
    | .ok progress => (do Run.update ({ · with progress }); pure a : Run τ α)
    | .error cause => Run.fail (.progress cause)) w = _
  cases w.progress.advance (.reached s) <;> rfl

theorem record_satisfies (m : Machine τ) (s : Stage) (r : Except (Failure τ) α) :
    (m.record s r).Satisfies fun w made r' w' =>
      made = [] ∧ (w.progress.At s.position → r' = r ∧ w'.progress = w.progress.after s r) := by
  intro w
  cases r with
  | ok a =>
      rw [record_ok]
      cases hadvance : w.progress.advance (.reached s) with
      | ok progress =>
          refine ⟨[], rfl, rfl, fun hat => ⟨rfl, ?_⟩⟩
          rw [hat.advance] at hadvance
          exact (Except.ok.inj hadvance).symm
      | error cause =>
          refine ⟨[], rfl, rfl, fun hat => ?_⟩
          rw [hat.advance] at hadvance
          cases hadvance
  | error e =>
      obtain ⟨records, hrun⟩ : ∃ records, (m.record s (.error e) : Run τ α) w
          = (.error e, { w with progress := w.progress.stopped s e, records }) :=
        m.record_error s e w
      rw [hrun]
      exact ⟨[], rfl, rfl, fun _ => ⟨rfl, rfl⟩⟩

/-- Whatever is said of its action, a stage changes no more than the progress record and the log
afterwards. It succeeds with its action only, and where it may be entered it succeeds with it. -/
theorem stage_records (m : Machine τ) (s : Stage) {action : Run τ α} {P : Post τ α}
    (haction : action.Satisfies P) :
    (m.stage s action).Satisfies fun w made r w' =>
      ∃ r₁ w₁, P w made r₁ w₁
        ∧ (∃ progress records, w' = { w₁ with progress, records }
          ∧ progress.nodeId = w₁.progress.nodeId)
        ∧ (∀ a, r = .ok a → r₁ = .ok a ∧ w'.progress.state = some (.reached s))
        ∧ (w₁.progress.mayEnter (.reached s) = true → r = r₁) := by
  rw [stage_eq]
  intro w
  obtain ⟨made, htrace, hP⟩ := haction w
  have hrun : Run.attempt action (m.record s) w = m.record s (action w).1 (action w).2 := rfl
  rw [hrun]
  generalize action w = out at htrace hP ⊢
  obtain ⟨r₁, w₁⟩ := out
  cases r₁ with
  | error e =>
      obtain ⟨records, hrecord⟩ : ∃ records, (m.record s (.error e) : Run τ α) w₁
          = (.error e, { w₁ with progress := w₁.progress.stopped s e, records }) :=
        m.record_error s e w₁
      rw [hrecord]
      exact ⟨made, htrace, .error e, w₁, hP,
        ⟨_, _, rfl, Progress.stopped_nodeId w₁.progress s e⟩, fun _ => nofun, fun _ => rfl⟩
  | ok a =>
      rw [record_ok]
      cases hadvance : w₁.progress.advance (.reached s) with
      | error cause =>
          refine ⟨made, htrace, .ok a, w₁, hP, ⟨_, _, rfl, rfl⟩, fun _ => nofun, fun hmay => ?_⟩
          rw [Progress.advance_of_mayEnter hmay] at hadvance
          cases hadvance
      | ok progress =>
          rw [Progress.eq_of_advance hadvance]
          refine ⟨made, htrace, .ok a, w₁, hP, ⟨_, _, rfl, rfl⟩, ?_, fun _ => rfl⟩
          rintro _ ⟨⟩
          exact ⟨rfl, rfl⟩

/-- A stage that is run at its position does what its action does, and the record says so. -/
theorem stage_satisfies (m : Machine τ) (s : Stage) {action : Run τ α}
    {P : List (Exchange τ) → Except (Failure τ) α → Prop}
    (haction : action.Satisfies fun w made r w' => w'.progress = w.progress ∧ P made r) :
    (m.stage s action).Satisfies fun w made r w' =>
      w.progress.At s.position → P made r ∧ w'.progress = w.progress.after s r := by
  rw [stage_eq]
  refine (haction.attempt (m.record_satisfies s)).mono ?_
  rintro w _ r w' ⟨⟨hkept, hP⟩, rfl, hrecord⟩ hat
  rw [hkept] at hrecord
  obtain ⟨rfl, hprogress⟩ := hrecord hat
  rw [List.append_nil]
  exact ⟨hP, hprogress⟩

end Machine

end Provision
