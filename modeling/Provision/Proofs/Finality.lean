import Provision.Proofs.Stages

/-!
# What is final about a failure

A progress record takes any entries in any order: a state that is entered, or a
failure that is noted. An entry that is refused leaves it as it is. Its history
is always a beginning of the stages with the failures behind it, one for each
that was noted (`Tallies.noteAll`).

No state is entered any more after a failure. But a failure is noted whatever
the state, so the first one is not the last word: each further one goes into
the history and takes the place of stage and reason (`failed_until_noted`).
-/

namespace Provision.Progress

/-! ## Entries -/

inductive Entry where
  | advance (next : RunState)
  | fail (stage reason : String)

/-- The stage and the reason of a failure that is noted. -/
def Entry.failure? : Entry → Option (String × String)
  | advance _ => none
  | fail stage reason => some (stage, reason)

/-- The failures among some entries. -/
def failures (entries : List Entry) : List (String × String) := entries.filterMap Entry.failure?

/-- The record after an entry, or as it is if the entry is refused. -/
def note (p : Progress) : Entry → Progress
  | .advance next => (p.advance next).toOption.getD p
  | .fail stage reason => p.fail stage reason

def noteAll (p : Progress) (entries : List Entry) : Progress := entries.foldl note p

@[simp] theorem noteAll_cons (p : Progress) (entry : Entry) (rest : List Entry) :
    p.noteAll (entry :: rest) = (p.note entry).noteAll rest := rfl

@[simp] theorem failures_advance_cons (next : RunState) (rest : List Entry) :
    failures (.advance next :: rest) = failures rest := rfl

@[simp] theorem failures_fail_cons (stage reason : String) (rest : List Entry) :
    failures (.fail stage reason :: rest) = (stage, reason) :: failures rest := rfl

/-- A state that is entered goes into the history; otherwise nothing happens. -/
theorem note_advance (p : Progress) (next : RunState) :
    p.note (.advance next) = p ∨ p.mayEnter next = true ∧
      p.note (.advance next) = { p with state := some next, history := p.history ++ [next] } := by
  show (p.advance next).toOption.getD p = p ∨ _ ∧ (p.advance next).toOption.getD p = _
  cases hadvance : p.advance next with
  | error cause => exact Or.inl rfl
  | ok entered => exact Or.inr ⟨mayEnter_of_advance hadvance, eq_of_advance hadvance⟩

/-! ## After a failure -/

theorem mayEnter_of_failed {p : Progress} (h : p.state = some .failed) (next : RunState) :
    p.mayEnter next = false := by
  unfold mayEnter
  rw [h]
  cases next <;> rfl

theorem note_advance_of_failed {p : Progress} (h : p.state = some .failed) (next : RunState) :
    p.note (.advance next) = p := by
  rcases p.note_advance next with hsame | ⟨hmay, -⟩
  · exact hsame
  · rw [mayEnter_of_failed h] at hmay
    cases hmay

/-- The record with some failures noted, one after the other. -/
def failing (p : Progress) (noted : List (String × String)) : Progress :=
  noted.foldl (fun p f => p.fail f.1 f.2) p

/-- Of the entries after a failure only further failures count. -/
theorem noteAll_of_failed {p : Progress} (h : p.state = some .failed) (entries : List Entry) :
    p.noteAll entries = p.failing (failures entries) := by
  induction entries generalizing p with
  | nil => rfl
  | cons entry rest ih =>
      cases entry with
      | advance next =>
          rw [noteAll_cons, note_advance_of_failed h, failures_advance_cons]
          exact ih h
      | fail stage reason =>
          rw [noteAll_cons, failures_fail_cons]
          exact ih rfl

/-- Every failure that is noted goes into the history, and the last one tells stage and reason. -/
theorem failing_eq (p : Progress) (noted : List (String × String)) :
    p.failing noted =
      { p with
        state := if noted.isEmpty then p.state else some .failed
        history := p.history ++ List.replicate noted.length .failed
        failedStage := noted.getLast?.elim p.failedStage fun f => some f.1
        failureReason := noted.getLast?.elim p.failureReason fun f => some f.2 } := by
  induction noted generalizing p with
  | nil => simp [failing]
  | cons f rest ih =>
      have hrest : p.failing (f :: rest) = (p.fail f.1 f.2).failing rest := rfl
      rw [hrest, ih, List.getLast?_cons]
      cases rest.getLast? <;> simp [fail, List.replicate_succ]

/-! ## Histories at large -/

/-- The history of the record: the first `k` stages, and `n` failures behind them. -/
structure Tallies (p : Progress) (k n : Nat) : Prop where
  bound : k ≤ 6
  history : p.history = (Stage.all.take k).map .reached ++ List.replicate n .failed
  state : p.state = p.history.getLast?

variable {p : Progress} {k n : Nat}

theorem fresh_tallies (hostname : String) : (fresh hostname).Tallies 0 0 :=
  ⟨Nat.zero_le 6, rfl, rfl⟩

/-- The failures can be counted. -/
theorem Tallies.count_failed (h : p.Tallies k n) : p.history.count .failed = n := by
  have hstages : ((Stage.all.take k).map RunState.reached).count .failed = 0 := by
    refine List.count_eq_zero.mpr fun hmem => ?_
    obtain ⟨s, -, hs⟩ := List.mem_map.mp hmem
    cases hs
  rw [h.history, List.count_append, hstages, List.count_replicate_self, Nat.zero_add]

/-- Only the stage that is next may be entered, and only before any failure. -/
theorem Tallies.of_mayEnter (h : p.Tallies k n) {next : RunState}
    (hmay : p.mayEnter next = true) : n = 0 ∧ ∃ s, next = .reached s ∧ s.position = k := by
  cases n with
  | succ n =>
      have hfailed : p.state = some .failed := by
        rw [h.state, h.history, List.replicate_succ', ← List.append_assoc, List.getLast?_concat]
      rw [mayEnter_of_failed hfailed] at hmay
      cases hmay
  | zero =>
      refine ⟨rfl, ?_⟩
      have hstate : p.state = ((Stage.all.take k).map RunState.reached).getLast? := by
        rw [h.state, h.history, List.replicate_zero, List.append_nil]
      cases next with
      | failed => cases hmay
      | reached s =>
          refine ⟨s, rfl, ?_⟩
          unfold mayEnter at hmay
          cases k with
          | zero =>
              rw [hstate] at hmay
              exact eq_of_beq hmay
          | succ k =>
              obtain ⟨current, rfl⟩ := Stage.exists_position (Nat.lt_of_succ_le h.bound)
              rw [hstate, take_position_succ, List.map_append, List.map_singleton,
                List.getLast?_concat] at hmay
              exact eq_of_beq hmay

theorem Tallies.entered {s : Stage} (h : p.Tallies s.position 0) :
    (p.entered s).Tallies (s.position + 1) 0 where
  bound := s.position_lt
  history := by
    rw [List.replicate_zero, List.append_nil]
    refine entered_history ?_
    rw [h.history, List.replicate_zero, List.append_nil]
  state := entered_state p s

theorem Tallies.note_advance (h : p.Tallies k n) (next : RunState) :
    ∃ k', (p.note (.advance next)).Tallies k' n := by
  rcases p.note_advance next with hsame | ⟨hmay, hentered⟩
  · rw [hsame]
    exact ⟨k, h⟩
  · obtain ⟨rfl, s, rfl, rfl⟩ := h.of_mayEnter hmay
    rw [hentered]
    exact ⟨s.position + 1, h.entered⟩

theorem Tallies.fail (h : p.Tallies k n) (stage reason : String) :
    (p.fail stage reason).Tallies k (n + 1) where
  bound := h.bound
  history := by
    show p.history ++ [RunState.failed] = _
    rw [h.history, List.replicate_succ', List.append_assoc]
  state := by
    show some RunState.failed = (p.history ++ [RunState.failed]).getLast?
    rw [List.getLast?_concat]

theorem Tallies.noteAll (h : p.Tallies k n) (entries : List Entry) :
    ∃ k', (p.noteAll entries).Tallies k' (n + (failures entries).length) := by
  induction entries generalizing p k n with
  | nil => exact ⟨k, h⟩
  | cons entry rest ih =>
      cases entry with
      | advance next =>
          obtain ⟨k', hnext⟩ := h.note_advance next
          exact ih hnext
      | fail stage reason =>
          obtain ⟨k', hrest⟩ := ih (h.fail stage reason)
          refine ⟨k', ?_⟩
          rw [failures_fail_cons, List.length_cons, Nat.add_comm _ 1, ← Nat.add_assoc]
          exact hrest

/-! ## Failing for good -/

/-- **A failure is final but for further failures.** On a failed record no state is entered any
more; yet it stays as it is only if no other failure is noted, since each one adds to the history
and the last one takes over stage and reason. So a history that consists of a beginning of the
stages and some failures stays of this form, and there is at most one failure in it just if no more
than that were noted. -/
theorem failed_until_noted (p : Progress) (entries : List Entry) :
    let q := p.noteAll entries
    (p.state = some .failed →
      q.state = some .failed
      ∧ q.history = p.history ++ List.replicate (failures entries).length .failed
      ∧ q.failedStage = (failures entries).getLast?.elim p.failedStage (fun f => some f.1)
      ∧ q.failureReason = (failures entries).getLast?.elim p.failureReason (fun f => some f.2)
      ∧ (q = p ↔ failures entries = []))
    ∧ ∀ k n, p.Tallies k n →
      (∃ k', q.Tallies k' (n + (failures entries).length))
      ∧ ((∃ k' n', q.Tallies k' n' ∧ n' ≤ 1) ↔ n + (failures entries).length ≤ 1) := by
  refine ⟨fun hfailed => ?_, fun k n h => ?_⟩
  · rw [noteAll_of_failed hfailed, failing_eq]
    refine ⟨?_, rfl, rfl, rfl, fun hsame => ?_, fun hnone => ?_⟩
    · show (if _ then p.state else some .failed) = some .failed
      rw [hfailed, ite_self]
    · have hlength := congrArg (fun q => q.history.length) hsame
      simpa using hlength
    · rw [hnone]
      simp
  · obtain ⟨k', hq⟩ := h.noteAll entries
    refine ⟨⟨k', hq⟩, ?_, fun hfew => ⟨k', _, hq, hfew⟩⟩
    rintro ⟨k'', n', hq', hfew⟩
    rw [← hq.count_failed, hq'.count_failed]
    exact hfew

/-- A failure noted on a failed record, after a stage that it refused. -/
theorem failed_until_noted_twice :
    let p := (fresh "web-1").fail "ORDER_PLACED" "boom"
    let entries : List Entry := [.advance (.reached .orderPlaced), .fail "LOGIN_READY" "late"]
    let q := p.noteAll entries
    p.state = some .failed ∧ p.Tallies 0 1 ∧ q.state = some .failed
    ∧ q.history = [.failed] ++ List.replicate 1 .failed ∧ q.failedStage = some "LOGIN_READY"
    ∧ q.failureReason = some "late" ∧ (∃ k, q.Tallies k 2)
    ∧ ¬ ∃ k n, q.Tallies k n ∧ n ≤ 1 := by
  intro p entries q
  have htallies : p.Tallies 0 1 := (fresh_tallies "web-1").fail "ORDER_PLACED" "boom"
  obtain ⟨hfinal, htally⟩ := failed_until_noted p entries
  obtain ⟨hstate, hhistory, hstage, hreason, -⟩ := hfinal rfl
  obtain ⟨hmore, hfew⟩ := htally 0 1 htallies
  refine ⟨rfl, htallies, hstate, hhistory, hstage, hreason, hmore, ?_⟩
  rw [hfew]
  decide

/-- A second failure changes a record that is failed already. -/
theorem failed_not_absorbing :
    let p := (fresh "web-1").fail "ORDER_PLACED" "boom"
    let q := p.note (.fail "LOGIN_READY" "late")
    p.state = some .failed ∧ q.history = [.failed, .failed] ∧ q.history ≠ p.history
    ∧ q.failedStage ≠ p.failedStage ∧ q.failureReason ≠ p.failureReason := by
  decide

end Provision.Progress
