import Mathlib.Algebra.BigOperators.Group.List.Basic
import Mathlib.Algebra.Order.Ring.Pow
import Provision.Proofs.Intervals

/-!
# The timetable of a wait

A policy whose intervals do not shrink fixes in advance when a wait checks: the
first time at once, and from then on after the pauses of its timetable
(`pause`), each of which is the current interval, or what is left of the
timeout if that is less. The timetable ends at the timeout exactly
(`elapsed_eq_timeout`). A wait keeps to it until a check finds something or
fails, and times out only after a check at its very end (`pollFrom_keeps`);
what can be found from some time on until then is not missed
(`pollUntil_timely`).
-/

namespace Provision

namespace StagePolicy

/-! ## The timetable -/

/-- The interval after `k` checks that found nothing. -/
def intervalAt (p : StagePolicy Rat) (k : Nat) : Rat :=
  match p.cap with
  | some c => min (p.interval * p.backoff ^ k) c
  | none => p.interval

/-- The time between the start of a wait and check `k`. -/
def elapsed (p : StagePolicy Rat) : Nat → Rat
  | 0 => 0
  | k + 1 => p.elapsed k + min (p.intervalAt k) (p.timeout - p.elapsed k)

/-- The sleep after check `k`. -/
def pause (p : StagePolicy Rat) (k : Nat) : Rat :=
  min (p.intervalAt k) (p.timeout - p.elapsed k)

variable {p : StagePolicy Rat}

theorem elapsed_succ (p : StagePolicy Rat) (k : Nat) :
    p.elapsed (k + 1) = p.elapsed k + p.pause k := rfl

theorem intervalAt_of_cap {c : Rat} (h : p.cap = some c) (k : Nat) :
    p.intervalAt k = min (p.interval * p.backoff ^ k) c := by
  simp only [intervalAt, h]

theorem intervalAt_of_no_cap (h : p.cap = none) (k : Nat) : p.intervalAt k = p.interval := by
  simp only [intervalAt, h]

theorem Lasting.of_make_ok {timeout interval backoff : Rat} {cap : Option Rat}
    (hp : make timeout interval cap backoff = .ok p) (hbackoff : cap = none ∨ 1 ≤ backoff) :
    p.Lasting := by
  obtain ⟨rfl, htimeout, hinterval, hcap⟩ := StagePolicy.of_make_ok hp
  refine ⟨htimeout, hinterval, ?_⟩
  intro c hc
  rcases hbackoff with hnone | hbackoff
  · cases hnone.symm.trans hc
  · exact ⟨hcap c hc, hbackoff⟩

theorem Lasting.intervalAt_zero (h : p.Lasting) : p.intervalAt 0 = p.interval := by
  cases hcap : p.cap with
  | none => exact intervalAt_of_no_cap hcap 0
  | some c =>
      rw [intervalAt_of_cap hcap, pow_zero, mul_one]
      exact min_eq_left (h.capped c hcap).1

/-- The intervals of the timetable are those that the wait computes one from the other: a cap that
was reached once is reached for good. -/
theorem Lasting.grow_intervalAt (h : p.Lasting) (k : Nat) :
    p.grow (p.intervalAt k) = p.intervalAt (k + 1) := by
  cases hcap : p.cap with
  | none => rw [grow_of_no_cap hcap, intervalAt_of_no_cap hcap, intervalAt_of_no_cap hcap]
  | some c =>
      obtain ⟨hc, hbackoff⟩ := h.capped c hcap
      have hpos : 0 < c := h.interval_pos.trans_le hc
      have hbeyond : c ≤ c * p.backoff := le_mul_of_one_le_right hpos.le hbackoff
      rw [grow_of_cap hcap, intervalAt_of_cap hcap, intervalAt_of_cap hcap,
        min_mul_of_nonneg _ _ (zero_le_one.trans hbackoff), min_assoc, min_eq_right hbeyond,
        pow_succ, mul_assoc]

theorem Lasting.le_intervalAt (h : p.Lasting) (k : Nat) : p.interval ≤ p.intervalAt k := by
  induction k with
  | zero => exact h.intervalAt_zero.ge
  | succ k ih =>
      rw [← h.grow_intervalAt k]
      exact h.le_grow ih

theorem Lasting.elapsed_le (h : p.Lasting) (k : Nat) : p.elapsed k ≤ p.timeout := by
  induction k with
  | zero => exact h.timeout_pos.le
  | succ k _ =>
      have hshort : p.pause k ≤ p.timeout - p.elapsed k := min_le_right ..
      rw [elapsed_succ]
      linarith

theorem Lasting.pause_pos (h : p.Lasting) {k : Nat} (hk : p.elapsed k < p.timeout) :
    0 < p.pause k :=
  lt_min (h.interval_pos.trans_le (h.le_intervalAt k)) (sub_pos.mpr hk)

/-- Every pause but the last is at least one interval long. -/
theorem Lasting.le_elapsed (h : p.Lasting) (k : Nat) :
    min (k * p.interval) p.timeout ≤ p.elapsed k := by
  induction k with
  | zero =>
      simp only [Nat.cast_zero, zero_mul, elapsed]
      exact min_le_left ..
  | succ k ih =>
      have hinterval := h.le_intervalAt k
      rw [elapsed_succ]
      rcases min_choice (p.intervalAt k) (p.timeout - p.elapsed k) with hpause | hpause
      · rcases min_le_iff.mp ih with hk | hk
        · refine (min_le_left ..).trans ?_
          rw [pause, hpause]
          push_cast
          linarith
        · have hpos := h.interval_pos
          refine (min_le_right ..).trans ?_
          rw [pause, hpause]
          linarith
      · refine (min_le_right ..).trans ?_
        rw [pause, hpause]
        linarith

theorem Lasting.elapsed_eq_timeout (h : p.Lasting) {k : Nat}
    (hk : ⌈p.timeout / p.interval⌉₊ ≤ k) : p.elapsed k = p.timeout := by
  have henough : p.timeout ≤ k * p.interval := by
    refine h.timeout_le.trans ?_
    exact mul_le_mul_of_nonneg_right (Nat.cast_le.mpr hk) h.interval_pos.le
  have hreach := h.le_elapsed k
  rw [min_eq_right henough] at hreach
  exact le_antisymm (h.elapsed_le k) hreach

theorem sum_pauses (p : StagePolicy Rat) (n : Nat) :
    ((List.range n).map p.pause).sum = p.elapsed n := by
  induction n with
  | zero => rfl
  | succ n ih =>
      rw [List.sum_range_succ, ih, elapsed_succ]

/-- Doubled up to a cap, and cut short in the end. -/
example : (List.range 5).map
    (pause { timeout := 10, interval := 1, cap := some 3, backoff := 2 }) = [1, 2, 3, 3, 1] := by
  decide +kernel

end StagePolicy

namespace Run

variable {α : Type} {check : Run Rat (Option α)} {p : StagePolicy Rat} {w : World Rat}

/-! ## Waits that keep to it -/

/-- A check that takes no time of its own. -/
structure Timeless (check : Run Rat (Option α)) : Prop where
  clock : ∀ w, (check w).2.clock = w.clock
  sleeps : ∀ w, (check w).2.sleeps = w.sleeps

/-- The world in which a wait begun in `w` makes check `k`, if it gets there. -/
def atCheck (check : Run Rat (Option α)) (p : StagePolicy Rat) (w : World Rat) : Nat → World Rat
  | 0 => w
  | k + 1 => (check (atCheck check p w k)).2.slept (p.pause k)

theorem Timeless.clock_atCheck (hcheck : Timeless check) (p : StagePolicy Rat) (w : World Rat)
    (k : Nat) : (atCheck check p w k).clock = w.clock + p.elapsed k := by
  induction k with
  | zero => exact (add_zero w.clock).symm
  | succ k ih =>
      have hslept : (atCheck check p w (k + 1)).clock
          = (check (atCheck check p w k)).2.clock + p.pause k := rfl
      rw [hslept, hcheck.clock, ih, StagePolicy.elapsed_succ, add_assoc]

theorem Timeless.pauses_atCheck (hcheck : Timeless check) (p : StagePolicy Rat) (w : World Rat)
    (k : Nat) : (atCheck check p w k).pauses = w.pauses ++ (List.range k).map p.pause := by
  induction k with
  | zero => exact (List.append_nil _).symm
  | succ k ih =>
      have hslept : (atCheck check p w (k + 1)).pauses
          = (check (atCheck check p w k)).2.pauses ++ [p.pause k] := List.reverse_cons
      have hsame : (check (atCheck check p w k)).2.pauses = (atCheck check p w k).pauses :=
        congrArg List.reverse (hcheck.sleeps _)
      rw [hslept, hsame, ih, List.range_succ, List.map_append, List.append_assoc]
      rfl

variable {stage : String} {subject : Value} {n : Nat}
  {out : Except (Failure Rat) α × World Rat}

/-- What a wait comes to with check `n`, made in the world `v`. -/
inductive EndsAt (check : Run Rat (Option α)) (stage : String) (p : StagePolicy Rat)
    (subject : Value) (n : Nat) (v : World Rat) : Except (Failure Rat) α × World Rat → Prop
  | found {a v'} (find : check v = (.ok (some a), v')) :
      EndsAt check stage p subject n v
        (.ok a, { v' with records := satisfiedRecord stage subject (n + 1) :: v'.records })
  | broken {e v'} (failure : check v = (.error e, v')) :
      EndsAt check stage p subject n v (.error e, v')
  | late {v'} (nothing : check v = (.ok none, v')) (time : p.elapsed n = p.timeout) :
      EndsAt check stage p subject n v
        (.error (.timeout { stage, timeout := p.timeout, subject }), v')

/-- A wait begun in `w` has kept to the timetable: check `n` was the last one. -/
structure Timely (check : Run Rat (Option α)) (stage : String) (p : StagePolicy Rat)
    (subject : Value) (w : World Rat) (n : Nat) (out : Except (Failure Rat) α × World Rat) :
    Prop where
  nothing : ∀ k < n, (check (atCheck check p w k)).1 = .ok none
  early : ∀ k < n, p.elapsed k < p.timeout
  ends : EndsAt check stage p subject n (atCheck check p w n) out

theorem EndsAt.sleeps {v : World Rat} (h : EndsAt check stage p subject n v out)
    (hcheck : Timeless check) : out.2.sleeps = v.sleeps := by
  have hsame := hcheck.sleeps v
  cases h with
  | found look | broken look | late look _ =>
      rw [look] at hsame
      exact hsame

/-- What is there at the end of the timeout is not missed. -/
theorem EndsAt.finds {v : World Rat} (h : EndsAt check stage p subject n v out) {T : Rat}
    (hT : T ≤ p.timeout) (hripe : T ≤ p.elapsed n → ∃ a, (check v).1 = .ok (some a)) :
    (∃ a, out.1 = .ok a) ∨ p.elapsed n < T ∧ ∃ e, (check v).1 = .error e := by
  cases h with
  | found _ => exact Or.inl ⟨_, rfl⟩
  | broken failure =>
      rcases lt_or_ge (p.elapsed n) T with hbefore | hafter
      · exact Or.inr ⟨hbefore, _, congrArg Prod.fst failure⟩
      · obtain ⟨a, hfind⟩ := hripe hafter
        rw [failure] at hfind
        cases hfind
  | late nothing time =>
      obtain ⟨a, hfind⟩ := hripe (hT.trans_eq time.symm)
      rw [nothing] at hfind
      cases hfind

/-- One turn of a wait that has kept to the timetable: it ends, or goes on with the next check. -/
theorem pollFrom_turn (hp : p.Lasting) (hcheck : Timeless check) (stage : String)
    (subject : Value) (w : World Rat) (patience k : Nat) :
    EndsAt check stage p subject k (atCheck check p w k)
        (pollFrom check stage p subject w.clock (patience + 1) k (p.intervalAt k)
          (atCheck check p w k))
      ∨ (check (atCheck check p w k)).1 = .ok none ∧ p.elapsed k < p.timeout
        ∧ pollFrom check stage p subject w.clock (patience + 1) k (p.intervalAt k)
            (atCheck check p w k)
          = pollFrom check stage p subject w.clock patience (k + 1) (p.intervalAt (k + 1))
              (atCheck check p w (k + 1)) := by
  have hclock : (check (atCheck check p w k)).2.clock - w.clock = p.elapsed k := by
    rw [hcheck.clock, hcheck.clock_atCheck, add_sub_cancel_left]
  have hnext : atCheck check p w (k + 1) = (check (atCheck check p w k)).2.slept (p.pause k) := rfl
  rw [pollFrom_succ]
  rcases hlook : check (atCheck check p w k) with ⟨r, v⟩
  rw [hlook] at hclock hnext
  cases r with
  | error e =>
      rw [bind_of_error hlook]
      exact Or.inl (.broken hlook)
  | ok found =>
      rw [bind_of_ok hlook]
      cases found with
      | some a => exact Or.inl (.found hlook)
      | none =>
          rcases le_or_gt p.timeout (p.elapsed k) with htime | htime
          · rw [pollNext_late (htime.trans_eq hclock.symm)]
            exact Or.inl (.late hlook ((hp.elapsed_le k).antisymm htime))
          · rw [pollNext_early (hclock.trans_lt htime), hp.grow_intervalAt, hclock, hnext]
            exact Or.inr ⟨rfl, htime, rfl⟩

/-- A wait about to make check `k`, with checks enough to get to the end of the timetable. -/
theorem pollFrom_keeps (hp : p.Lasting) (hcheck : Timeless check) (stage : String)
    (subject : Value) (w : World Rat) (patience k : Nat)
    (hreach : p.elapsed (k + patience) = p.timeout)
    (hbefore : ∀ j < k, (check (atCheck check p w j)).1 = .ok none ∧ p.elapsed j < p.timeout) :
    ∃ n, Timely check stage p subject w n
      (pollFrom check stage p subject w.clock (patience + 1) k (p.intervalAt k)
        (atCheck check p w k)) := by
  induction patience generalizing k with
  | zero =>
      -- The last check allowed is due when the timeout has elapsed, so the wait cannot go on.
      rcases pollFrom_turn hp hcheck stage subject w 0 k with hends | ⟨-, htime, -⟩
      · exact ⟨k, fun j hj => (hbefore j hj).1, fun j hj => (hbefore j hj).2, hends⟩
      · exact absurd hreach htime.ne
  | succ patience ih =>
      rcases pollFrom_turn hp hcheck stage subject w (patience + 1) k with
        hends | ⟨hnothing, htime, hgo⟩
      · exact ⟨k, fun j hj => (hbefore j hj).1, fun j hj => (hbefore j hj).2, hends⟩
      · rw [hgo]
        refine ih (k + 1) ?_ ?_
        · rw [Nat.add_right_comm]
          exact hreach
        · intro j hj
          rcases Nat.lt_succ_iff_lt_or_eq.mp hj with hlt | rfl
          · exact hbefore j hlt
          · exact ⟨hnothing, htime⟩

theorem pollUntil_keeps (hp : p.Lasting) (hcheck : Timeless check) (stage : String)
    (subject : Value) (w : World Rat) (hpatience : p.checks ≤ w.patience) :
    ∃ n, Timely check stage p subject w n (pollUntil check stage p subject w) := by
  obtain ⟨patience, hw⟩ : ∃ patience, w.patience = patience + 1 :=
    Nat.exists_eq_add_one.mpr ((Nat.succ_pos _).trans_le hpatience)
  have henough : ⌈p.timeout / p.interval⌉₊ ≤ 0 + patience := by
    unfold StagePolicy.checks at hpatience
    omega
  have hwait := pollFrom_keeps hp hcheck stage subject w patience 0
    (hp.elapsed_eq_timeout henough) fun _ hj => absurd hj (Nat.not_lt_zero _)
  have hstart : pollUntil check stage p subject w
      = pollFrom check stage p subject w.clock w.patience 0 p.interval w := rfl
  rwa [hstart, hw, ← hp.intervalAt_zero]

/-- **The timing of a wait.** Where the intervals do not shrink, sleep `k` is the interval after `k`
growths, or what is left of the timeout if that is less: no sleep is empty, and all of them take
the timeout at most. The first find is the result, and nothing is looked at after it; the wait
times out only after a check that found nothing just when the timeout had elapsed. So what can be
found from some time on, be it from the very end of the timeout, is found, unless a check failed
before. -/
theorem pollUntil_timely {timeout interval backoff : Rat} {cap : Option Rat}
    (hp : StagePolicy.make timeout interval cap backoff = .ok p)
    (hbackoff : cap = none ∨ 1 ≤ backoff) (hcheck : Timeless check) (stage : String)
    (subject : Value) (w : World Rat) (hpatience : ⌈timeout / interval⌉₊ + 1 ≤ w.patience) :
    ∃ n, Timely check stage p subject w n (pollUntil check stage p subject w)
      ∧ (∀ k ≤ n, (atCheck check p w k).clock = w.clock + p.elapsed k)
      ∧ (pollUntil check stage p subject w).2.pauses = w.pauses ++ (List.range n).map p.pause
      ∧ (∀ k < n, 0 < p.pause k)
      ∧ ((List.range n).map p.pause).sum ≤ timeout
      ∧ ∀ T ≤ timeout,
          (∀ k ≤ n, T ≤ p.elapsed k → ∃ a, (check (atCheck check p w k)).1 = .ok (some a)) →
            (∃ a, (pollUntil check stage p subject w).1 = .ok a)
              ∨ p.elapsed n < T ∧ ∃ e, (check (atCheck check p w n)).1 = .error e := by
  have hlasting : p.Lasting := .of_make_ok hp hbackoff
  obtain ⟨rfl, -, -, -⟩ := StagePolicy.of_make_ok hp
  obtain ⟨n, htimely⟩ := pollUntil_keeps hlasting hcheck stage subject w hpatience
  refine ⟨n, htimely, fun k _ => hcheck.clock_atCheck _ w k, ?_, ?_, ?_, ?_⟩
  · rw [← hcheck.pauses_atCheck]
    exact congrArg List.reverse (htimely.ends.sleeps hcheck)
  · intro k hk
    exact hlasting.pause_pos (htimely.early k hk)
  · rw [StagePolicy.sum_pauses]
    exact hlasting.elapsed_le n
  · intro T hT hripe
    exact htimely.ends.finds hT (hripe n le_rfl)

/-- A check that finds something from an instant on. -/
def ripeFrom (instant : Rat) : Run Rat (Option Unit) :=
  read fun w => if instant ≤ w.clock then some () else none

/-- A wait from 10 on, with pauses of 1 and 2 and a timeout of 3, finds what is there from 13 on:
its last check is made at that very instant. -/
theorem pollUntil_timely_just_in_time :
    ∃ p, StagePolicy.make (3 : Rat) 1 (some 2) 2 = .ok p
      ∧ (pollUntil (ripeFrom 13) "S" p (.text "")
          { remote := .scripted {}, clock := 10, patience := 4 }).1 = .ok () := by
  have hcheck : Timeless (ripeFrom 13) := ⟨fun _ => rfl, fun _ => rfl⟩
  have hp : StagePolicy.make (3 : Rat) 1 (some 2) 2 = .ok ⟨3, 1, some 2, 2⟩ := rfl
  have hpatience : ⌈(3 : Rat) / 1⌉₊ + 1 ≤ 4 := by norm_num
  obtain ⟨n, -, hclock, -, -, -, hfound⟩ := pollUntil_timely hp
    (Or.inr one_le_two) hcheck "S" (.text "")
    { remote := .scripted {}, clock := 10, patience := 4 } hpatience
  refine ⟨_, hp, ?_⟩
  have hends := hfound 3 le_rfl (by
    intro k hk hlate
    refine ⟨(), congrArg Except.ok (if_pos ?_)⟩
    rw [hclock k hk]
    linarith)
  rcases hends with ⟨⟨⟩, hresult⟩ | ⟨-, e, ⟨⟩⟩
  exact hresult

end Run

end Provision
