import Mathlib.Algebra.Order.Archimedean.Basic
import Mathlib.Data.Rat.Floor
import Mathlib.Tactic.Linarith
import Mathlib.Tactic.Ring
import Provision.Proofs.Waiting

/-!
# Intervals that add up

Durations are exact here. A wait that finds nothing sleeps for one interval
after the other, and it is over as soon as its intervals add up to its timeout
(`pollFrom_fruitless`). Where they do not shrink they always do, and the number
of checks is bounded. But a policy is accepted whatever its backoff; with a
factor below one the intervals are a geometric series, and a wait whose series
stays below the timeout never ends (`pollUntil_ends_iff`).
-/

namespace Provision

/-! ## Exact durations -/

@[simp] theorem Duration.least_rat (a b : Rat) : Duration.least a b = min a b := by
  have hbelow : Duration.below b a = true ↔ b < a := decide_eq_true_iff
  unfold Duration.least
  by_cases h : b < a
  · rw [if_pos (hbelow.mpr h), min_eq_right h.le]
  · rw [if_neg (mt hbelow.mp h), min_eq_left (not_lt.mp h)]

theorem Duration.atMost_rat (a b : Rat) : Duration.atMost a b = true ↔ a ≤ b :=
  decide_eq_true_iff

namespace StagePolicy

/-- What the checks of a policy leave through. Nothing is asked of the backoff. -/
theorem of_make_ok {timeout interval backoff : Rat} {cap : Option Rat} {p : StagePolicy Rat}
    (h : make timeout interval cap backoff = .ok p) :
    p = { timeout, interval, cap, backoff } ∧ 0 < timeout ∧ 0 < interval
      ∧ ∀ c, cap = some c → interval ≤ c := by
  unfold make at h
  split at h
  · cases h
  · rename_i hpositive
    have hboth : 0 < timeout ∧ 0 < interval := by
      simpa [Duration.atMost, Duration.ofInt] using hpositive
    cases cap with
    | none =>
        cases h
        exact ⟨rfl, hboth.1, hboth.2, fun _ => nofun⟩
    | some c =>
        by_cases hcap : Duration.below c interval = true
        · simp only [if_pos hcap] at h
          cases h
        · simp only [if_neg hcap] at h
          cases h
          refine ⟨rfl, hboth.1, hboth.2, ?_⟩
          rintro _ ⟨⟩
          exact not_lt.mp fun hlt => hcap (decide_eq_true hlt)

/-! ## Intervals -/

variable {p : StagePolicy Rat}

theorem grow_of_cap {c : Rat} (h : p.cap = some c) (x : Rat) :
    p.grow x = min (x * p.backoff) c := by
  unfold grow
  rw [h]
  exact Duration.least_rat _ _

theorem grow_of_no_cap (h : p.cap = none) (x : Rat) : p.grow x = x := by
  unfold grow
  rw [h]

/-- What some intervals in a row add up to, when the first of them is `x`. -/
def span (p : StagePolicy Rat) : Nat → Rat → Rat
  | 0, _ => 0
  | n + 1, x => x + p.span n (p.grow x)

/-- A policy whose intervals never fall below the first one. -/
structure Lasting (p : StagePolicy Rat) : Prop where
  timeout_pos : 0 < p.timeout
  interval_pos : 0 < p.interval
  capped : ∀ c, p.cap = some c → p.interval ≤ c ∧ 1 ≤ p.backoff

theorem Lasting.le_grow (h : p.Lasting) {x : Rat} (hx : p.interval ≤ x) :
    p.interval ≤ p.grow x := by
  cases hcap : p.cap with
  | none =>
      rw [grow_of_no_cap hcap]
      exact hx
  | some c =>
      obtain ⟨hc, hbackoff⟩ := h.capped c hcap
      have hpos : 0 < x := h.interval_pos.trans_le hx
      rw [grow_of_cap hcap]
      exact le_min (hx.trans (le_mul_of_one_le_right hpos.le hbackoff)) hc

theorem Lasting.le_span (h : p.Lasting) (n : Nat) {x : Rat} (hx : p.interval ≤ x) :
    n * p.interval ≤ p.span n x := by
  induction n generalizing x with
  | zero => simp [span]
  | succ n ih =>
      have hrest := ih (h.le_grow hx)
      rw [span]
      push_cast
      linarith

/-- With a factor below one the intervals are a geometric series: no cap is ever reached. -/
theorem span_of_shrinking {c : Rat} (hcap : p.cap = some c) (hlow : 0 ≤ p.backoff)
    (hhigh : p.backoff ≤ 1) (n : Nat) {x : Rat} (hx : 0 ≤ x) (hxc : x ≤ c) :
    p.span n x * (1 - p.backoff) = x * (1 - p.backoff ^ n) := by
  induction n generalizing x with
  | zero => simp [span]
  | succ n ih =>
      have hshrunk : x * p.backoff ≤ x := mul_le_of_le_one_right hx hhigh
      have hgrow : p.grow x = x * p.backoff := by
        rw [grow_of_cap hcap, min_eq_left (hshrunk.trans hxc)]
      have hrest := ih (mul_nonneg hx hlow) (hshrunk.trans hxc)
      rw [span, hgrow, add_mul, hrest, pow_succ]
      ring

/-- The number of checks that a policy leaves time for. -/
def checks (p : StagePolicy Rat) : Nat := ⌈p.timeout / p.interval⌉₊ + 1

theorem Lasting.timeout_le (h : p.Lasting) :
    p.timeout ≤ (⌈p.timeout / p.interval⌉₊ : Rat) * p.interval :=
  (div_le_iff₀ h.interval_pos).mp (Nat.le_ceil _)

end StagePolicy

/-- The world after a sleep. -/
def World.slept (w : World Rat) (pause : Rat) : World Rat :=
  { w with clock := w.clock + pause, sleeps := pause :: w.sleeps }

namespace Run

variable {α : Type} {check : Run Rat (Option α)} {stage : String} {p : StagePolicy Rat}
  {subject : Value} {started interval : Rat} {patience done : Nat} {w : World Rat}

/-! ## One turn of a wait -/

theorem pollNext_late (h : p.timeout ≤ w.clock - started) :
    pollNext check stage p subject started patience done interval none w
      = (.error (.timeout { stage, timeout := p.timeout, subject }), w) := by
  rw [pollNext_none_eq]
  exact if_pos ((Duration.atMost_rat ..).mpr h)

theorem pollNext_early (h : w.clock - started < p.timeout) :
    pollNext check stage p subject started patience done interval none w
      = pollFrom check stage p subject started patience (done + 1) (p.grow interval)
          (w.slept (min interval (p.timeout - (w.clock - started)))) := by
  rw [pollNext_none_eq, ← Duration.least_rat]
  exact if_neg (mt (Duration.atMost_rat ..).mp (not_le.mpr h))

/-! ## Waiting for nothing -/

/-- A check that never finds anything, and takes no time. -/
structure Fruitless (check : Run Rat (Option α)) : Prop where
  nothing : ∀ w, (check w).1 = .ok none
  clock : ∀ w, (check w).2.clock = w.clock

/-- A wait for nothing ends once the intervals add up to what is left of the timeout. If the checks
that it may make are too few for that, they are all made. -/
theorem pollFrom_fruitless (hcheck : Fruitless check) (stage : String) (p : StagePolicy Rat)
    (subject : Value) (started : Rat) (patience done : Nat) (interval : Rat) (w : World Rat) :
    ((∃ n < patience, p.timeout - (w.clock - started) ≤ p.span n interval)
        ∧ (pollFrom check stage p subject started patience done interval w).1
          = .error (.timeout { stage, timeout := p.timeout, subject }))
      ∨ (∀ n < patience, p.span n interval < p.timeout - (w.clock - started))
        ∧ (pollFrom check stage p subject started patience done interval w).1
          = .error .unfinished := by
  induction patience generalizing done interval w with
  | zero => exact Or.inr ⟨fun n hn => absurd hn (Nat.not_lt_zero n), rfl⟩
  | succ patience ih =>
      obtain ⟨w₁, hlook⟩ : ∃ w₁, check w = (.ok none, w₁) := ⟨_, Prod.ext (hcheck.nothing w) rfl⟩
      have hclock : w₁.clock = w.clock := by
        rw [← hcheck.clock w, hlook]
      rw [pollFrom_succ, bind_of_ok hlook, ← hclock]
      rcases le_or_gt p.timeout (w₁.clock - started) with htime | htime
      · rw [pollNext_late htime]
        refine Or.inl ⟨⟨0, Nat.succ_pos patience, ?_⟩, rfl⟩
        rw [StagePolicy.span]
        linarith
      · rw [pollNext_early htime]
        -- The sleep is cut short where it would go beyond the timeout; then nothing is left.
        generalize hpause : min interval (p.timeout - (w₁.clock - started)) = pause
        have hshort : pause ≤ interval := hpause ▸ min_le_left ..
        have hleft : p.timeout - ((w₁.slept pause).clock - started)
            = p.timeout - (w₁.clock - started) - pause := by
          unfold World.slept
          ring
        rcases ih (done + 1) (p.grow interval) (w₁.slept pause) with ⟨⟨n, hn, hle⟩, hr⟩ | ⟨hall, hr⟩
        · refine Or.inl ⟨⟨n + 1, Nat.succ_lt_succ hn, ?_⟩, hr⟩
          rw [StagePolicy.span]
          linarith
        · refine Or.inr ⟨fun n hn => ?_, hr⟩
          cases n with
          | zero =>
              rw [StagePolicy.span]
              linarith
          | succ n =>
              have hfirst := hall 0 (by omega)
              have hrest := hall n (Nat.lt_of_succ_lt_succ hn)
              rw [StagePolicy.span, hleft] at hfirst
              have hwhole : pause = interval := by
                rcases min_choice interval (p.timeout - (w₁.clock - started)) with h | h
                · exact hpause.symm.trans h
                · linarith
              rw [StagePolicy.span]
              linarith

/-- Whether a wait for nothing ends in its timeout, if it may make that many checks. -/
def EndsWithin (check : Run Rat (Option α)) (stage : String) (p : StagePolicy Rat)
    (subject : Value) (n : Nat) : Prop :=
  ∀ w, n ≤ w.patience → (pollUntil check stage p subject w).1
    = .error (.timeout { stage, timeout := p.timeout, subject })

theorem pollUntil_fruitless (hcheck : Fruitless check) (stage : String) (p : StagePolicy Rat)
    (subject : Value) (w : World Rat) :
    ((∃ n < w.patience, p.timeout ≤ p.span n p.interval)
        ∧ (pollUntil check stage p subject w).1
          = .error (.timeout { stage, timeout := p.timeout, subject }))
      ∨ (∀ n < w.patience, p.span n p.interval < p.timeout)
        ∧ (pollUntil check stage p subject w).1 = .error .unfinished := by
  have hwait := pollFrom_fruitless hcheck stage p subject w.clock w.patience 0 p.interval w
  rwa [sub_self, sub_zero] at hwait

theorem endsWithin_iff (hcheck : Fruitless check) (n : Nat) :
    EndsWithin check stage p subject n ↔ ∃ k < n, p.timeout ≤ p.span k p.interval := by
  constructor
  · intro h
    let w : World Rat := { remote := .scripted {}, clock := 0, patience := n }
    rcases pollUntil_fruitless hcheck stage p subject w with
      ⟨hreach, -⟩ | ⟨-, hr⟩
    · exact hreach
    · rw [h w le_rfl] at hr
      cases hr
  · rintro ⟨k, hk, hreach⟩ w hw
    rcases pollUntil_fruitless hcheck stage p subject w with
      ⟨-, hr⟩ | ⟨hall, -⟩
    · exact hr
    · exact absurd hreach (not_le.mpr (hall k (hk.trans_le hw)))

theorem exists_endsWithin_iff (hcheck : Fruitless check) (stage : String) (p : StagePolicy Rat)
    (subject : Value) :
    (∃ n, EndsWithin check stage p subject n) ↔ ∃ n, p.timeout ≤ p.span n p.interval := by
  constructor
  · rintro ⟨n, h⟩
    obtain ⟨k, -, hreach⟩ := (endsWithin_iff hcheck n).mp h
    exact ⟨k, hreach⟩
  · rintro ⟨k, hreach⟩
    exact ⟨k + 1, (endsWithin_iff hcheck _).mpr ⟨k, Nat.lt_succ_self k, hreach⟩⟩

end Run

namespace StagePolicy

variable {p : StagePolicy Rat}

theorem Lasting.reaches (h : p.Lasting) :
    p.timeout ≤ p.span ⌈p.timeout / p.interval⌉₊ p.interval :=
  h.timeout_le.trans (h.le_span _ le_rfl)

/-- The limit of the geometric series decides. -/
theorem reaches_iff_of_shrinking {c : Rat} (hcap : p.cap = some c) (hinterval : 0 < p.interval)
    (htimeout : 0 < p.timeout) (hc : p.interval ≤ c) (hlow : 0 ≤ p.backoff) (hhigh : p.backoff < 1) :
    (∃ n, p.timeout ≤ p.span n p.interval)
      ↔ p.timeout ≤ p.interval ∨ p.timeout * (1 - p.backoff) < p.interval := by
  have hfactor : 0 < 1 - p.backoff := sub_pos.mpr hhigh
  have hreach : ∀ n, p.timeout ≤ p.span n p.interval
      ↔ p.timeout * (1 - p.backoff) ≤ p.interval * (1 - p.backoff ^ n) := fun n => by
    rw [← span_of_shrinking hcap hlow hhigh.le n hinterval.le hc, mul_le_mul_iff_left₀ hfactor]
  simp only [hreach]
  constructor
  · rintro ⟨n, hn⟩
    rcases hlow.eq_or_lt with hzero | hpos
    · cases n with
      | zero =>
          have hwait := mul_pos htimeout hfactor
          rw [pow_zero] at hn
          linarith
      | succ n =>
          rw [← hzero, pow_succ] at hn
          exact Or.inl (by linarith)
    · have hrest := mul_pos hinterval (pow_pos hpos n)
      exact Or.inr (by linarith)
  · rintro (hfirst | hlimit)
    · refine ⟨1, ?_⟩
      rw [pow_one]
      exact mul_le_mul_of_nonneg_right hfirst hfactor.le
    · obtain ⟨n, hn⟩ := exists_pow_lt_of_lt_one (div_pos (sub_pos.mpr hlimit) hinterval) hhigh
      rw [lt_div_iff₀ hinterval] at hn
      exact ⟨n, by linarith⟩

end StagePolicy

namespace Run

variable {α : Type}

/-- **When a wait for nothing ends.** It does if and only if the intervals of its policy add up to
the timeout. Where the backoff is not negative, this is the case if there is no cap, if the timeout
is no longer than the first interval, or if it is below the limit of the geometric series. Without
a cap, or with a backoff of at least one, the number of checks is bounded by the timeout and the
first interval. -/
theorem pollUntil_ends_iff {timeout interval backoff : Rat} {cap : Option Rat}
    {p : StagePolicy Rat} (hp : StagePolicy.make timeout interval cap backoff = .ok p)
    {check : Run Rat (Option α)} (hcheck : Fruitless check) (stage : String) (subject : Value) :
    ((∃ n, EndsWithin check stage p subject n) ↔ ∃ n, timeout ≤ p.span n interval)
      ∧ (0 ≤ backoff → ((∃ n, EndsWithin check stage p subject n)
          ↔ cap = none ∨ timeout ≤ interval ∨ timeout * (1 - backoff) < interval))
      ∧ (cap = none ∨ 1 ≤ backoff →
          EndsWithin check stage p subject (⌈timeout / interval⌉₊ + 1)) := by
  obtain ⟨rfl, htimeout, hinterval, hcap⟩ := StagePolicy.of_make_ok hp
  have hends := exists_endsWithin_iff hcheck stage { timeout, interval, cap, backoff } subject
  have hlasting : cap = none ∨ 1 ≤ backoff →
      StagePolicy.Lasting { timeout, interval, cap, backoff } := by
    refine fun h => ⟨htimeout, hinterval, fun c hc => ⟨hcap c hc, ?_⟩⟩
    rcases h with rfl | h
    · cases hc
    · exact h
  refine ⟨hends, fun hlow => hends.trans ?_, fun h => ?_⟩
  · by_cases hbounded : cap = none ∨ 1 ≤ backoff
    · refine iff_of_true ⟨_, (hlasting hbounded).reaches⟩ ?_
      rcases hbounded with hnone | hhigh
      · exact Or.inl hnone
      · have hlate : timeout * (1 - backoff) ≤ 0 :=
          mul_nonpos_of_nonneg_of_nonpos htimeout.le (sub_nonpos.mpr hhigh)
        exact Or.inr (Or.inr (hlate.trans_lt hinterval))
    · rw [not_or] at hbounded
      obtain ⟨c, rfl⟩ := Option.ne_none_iff_exists'.mp hbounded.1
      rw [StagePolicy.reaches_iff_of_shrinking rfl hinterval htimeout (hcap c rfl) hlow
        (not_le.mp hbounded.2)]
      exact (or_iff_right hbounded.1).symm
  · exact (endsWithin_iff hcheck _).mpr ⟨_, Nat.lt_succ_self _, (hlasting h).reaches⟩

/-- Intervals of 1, 1, 1, … for a timeout of 3: the fourth check is the last one. -/
theorem pollUntil_ends_steady :
    ∃ p, StagePolicy.make (3 : Rat) 1 none (1 / 2) = .ok p
      ∧ EndsWithin (pure none : Run Rat (Option Unit)) "S" p (.text "") (⌈(3 : Rat) / 1⌉₊ + 1) := by
  have hcheck : Fruitless (pure none : Run Rat (Option Unit)) := ⟨fun _ => rfl, fun _ => rfl⟩
  exact ⟨_, rfl, (pollUntil_ends_iff rfl hcheck "S" (.text "")).2.2 (Or.inl rfl)⟩

/-- Intervals of 1, 1/2, 1/4, … for a timeout of 10: this policy is accepted, and a wait for nothing
makes all the checks that it may make, however many they are. -/
theorem pollUntil_endless_halving :
    ∃ p, StagePolicy.make (10 : Rat) 1 (some 1) (1 / 2) = .ok p
      ∧ ∀ w, (pollUntil (pure none : Run Rat (Option Unit)) "S" p (.text "") w).1
        = .error .unfinished := by
  let p : StagePolicy Rat := { timeout := 10, interval := 1, cap := some 1, backoff := 1 / 2 }
  have hcheck : Fruitless (pure none : Run Rat (Option Unit)) := ⟨fun _ => rfl, fun _ => rfl⟩
  have hshort : ¬ ∃ n, p.timeout ≤ p.span n p.interval := by
    rw [StagePolicy.reaches_iff_of_shrinking (p := p) rfl (by norm_num [p]) (by norm_num [p])
      le_rfl (by norm_num [p]) (by norm_num [p])]
    norm_num [p]
  refine ⟨p, rfl, fun w => ?_⟩
  rcases pollUntil_fruitless hcheck "S" p (.text "") w with
    ⟨⟨n, -, hreach⟩, -⟩ | ⟨-, hr⟩
  · exact absurd ⟨n, hreach⟩ hshort
  · exact hr

end Run

end Provision
