import Mathlib.Algebra.Order.BigOperators.Group.List
import Provision.Proofs.Intervals
import Provision.Proofs.Stages

/-!
# Bounded runs

What a run may take: so much time, spent in sleeps, and so many calls. A `Plan`
lists what is looked at one after the other, and how often at most; a run `Takes`
a plan if its calls are those of the plan and it comes to an end by itself. Only
waits take time, and a wait whose intervals do not shrink takes its timeout at
most and looks no more often than its policy leaves time for (`await_takes`).
All the rest is a matter of doing one thing after the other (`takes_bind`).
-/

namespace Provision

/-! ## Time -/

/-- Between two worlds some sleeps were taken, none of them negative, in all no longer than `d`. -/
structure Rested (d : Rat) (w w' : World Rat) : Prop where
  patience : w'.patience = w.patience
  slept : ∃ pauses : List Rat, w'.sleeps = pauses ++ w.sleeps ∧ (∀ pause ∈ pauses, 0 ≤ pause)
    ∧ pauses.sum ≤ d ∧ w'.clock = w.clock + pauses.sum

namespace Rested

variable {d d' : Rat} {w w₁ w' : World Rat}

theorem of_same (hpatience : w'.patience = w.patience) (hsleeps : w'.sleeps = w.sleeps)
    (hclock : w'.clock = w.clock) : Rested 0 w w' :=
  ⟨hpatience, [], hsleeps, fun _ => nofun, le_rfl, by rw [List.sum_nil, add_zero, hclock]⟩

theorem refl (w : World Rat) : Rested 0 w w := of_same rfl rfl rfl

theorem trans (h : Rested d w w₁) (h' : Rested d' w₁ w') : Rested (d + d') w w' := by
  obtain ⟨pauses, hsleeps, hpos, hsum, hclock⟩ := h.slept
  obtain ⟨pauses', hsleeps', hpos', hsum', hclock'⟩ := h'.slept
  refine ⟨h'.patience.trans h.patience, pauses' ++ pauses, ?_, ?_, ?_, ?_⟩
  · rw [hsleeps', hsleeps, List.append_assoc]
  · intro pause hpause
    exact (List.mem_append.mp hpause).elim (hpos' pause) (hpos pause)
  · rw [List.sum_append]
    linarith
  · rw [hclock', hclock, List.sum_append]
    ring

theorem mono (h : Rested d w w') (hd : d ≤ d') : Rested d' w w' := by
  obtain ⟨pauses, hsleeps, hpos, hsum, hclock⟩ := h.slept
  exact ⟨h.patience, pauses, hsleeps, hpos, hsum.trans hd, hclock⟩

/-- Where no time may be taken, none has passed. -/
theorem clock_eq (h : Rested 0 w w') : w'.clock = w.clock := by
  obtain ⟨pauses, -, hpos, hsum, hclock⟩ := h.slept
  have hnonneg := List.sum_nonneg hpos
  rw [hclock]
  linarith

theorem slept_once {pause : Rat} (h : 0 ≤ pause) : Rested pause w (w.slept pause) :=
  ⟨rfl, [pause], rfl, by simpa using h, by simp, by simp [World.slept]⟩

end Rested

/-! ## Calls -/

/-- What a single look at the remote side, or an action there, is about. -/
inductive Look where
  | catalog
  | order
  /-- Where the node of an order is found. -/
  | approval
  | transaction
  | node
  | powerOff
  | cancellation

/-- The calls that are made for a look, for nodes of some kind. -/
inductive Look.Admits (kind : NodeKind) : Look → List Call → Prop
  | catalog (family) : Admits kind catalog [.listCatalogItems family]
  | order (order) : Admits kind .order [.placeOrder order]
  | listing : Admits kind approval [.listNodes kind]
  | waiting (id) : Admits kind approval [.getBillingOrderStatus id]
  | approved (id) : Admits kind approval [.getBillingOrderStatus id, .listNodes kind]
  | transaction (node) : Admits kind transaction [.getActiveTransaction kind node]
  | node (id) : Admits kind node [.getNode kind id]
  | powerOff (node) : Admits kind powerOff [.powerOffNode kind node]
  | cancellation (item) : Admits kind cancellation [.cancelBillingItem item]

/-- At most `n` looks of one kind. -/
def Rounds (kind : NodeKind) (look : Look) (n : Nat) (calls : List Call) : Prop :=
  ∃ rounds : List (List Call), calls = rounds.flatten ∧ rounds.length ≤ n
    ∧ ∀ round ∈ rounds, look.Admits kind round

/-- What is looked at one after the other, with the number of looks allowed for each. -/
abbrev Plan := List (Look × Nat)

/-- The calls are those of a plan; a plan may be left at any point. -/
def Plan.Covers (kind : NodeKind) : Plan → List Call → Prop
  | [], calls => calls = []
  | (look, n) :: rest, calls => ∃ first later, calls = first ++ later
      ∧ Rounds kind look n first ∧ Plan.Covers kind rest later

variable {kind : NodeKind} {look : Look} {n n' : Nat} {plan plan' : Plan} {calls calls' : List Call}

theorem rounds_nil (kind : NodeKind) (look : Look) (n : Nat) : Rounds kind look n [] :=
  ⟨[], rfl, Nat.zero_le n, fun _ => nofun⟩

theorem Look.Admits.rounds (h : look.Admits kind calls) : Rounds kind look 1 calls :=
  ⟨[calls], by simp, le_rfl, by simpa using h⟩

theorem Rounds.append (h : Rounds kind look n calls) (h' : Rounds kind look n' calls') :
    Rounds kind look (n + n') (calls ++ calls') := by
  obtain ⟨rounds, rfl, hlength, hall⟩ := h
  obtain ⟨rounds', rfl, hlength', hall'⟩ := h'
  refine ⟨rounds ++ rounds', List.flatten_append.symm, ?_, List.forall_mem_append.mpr ⟨hall, hall'⟩⟩
  rw [List.length_append]
  exact Nat.add_le_add hlength hlength'

theorem Plan.covers_nil (kind : NodeKind) (plan : Plan) : plan.Covers kind [] := by
  induction plan with
  | nil => rfl
  | cons step rest ih => exact ⟨[], [], rfl, rounds_nil kind _ _, ih⟩

theorem Plan.covers_single :
    Plan.Covers kind [(look, n)] calls ↔ Rounds kind look n calls := by
  constructor
  · rintro ⟨first, _, rfl, hrounds, rfl⟩
    rwa [List.append_nil]
  · exact fun h => ⟨calls, [], (List.append_nil _).symm, h, rfl⟩

theorem Plan.Covers.append (h : plan.Covers kind calls) (h' : plan'.Covers kind calls') :
    Plan.Covers kind (plan ++ plan') (calls ++ calls') := by
  induction plan generalizing calls with
  | nil =>
      obtain rfl := h
      exact h'
  | cons step rest ih =>
      obtain ⟨first, later, rfl, hfirst, hlater⟩ := h
      exact ⟨first, later ++ calls', List.append_assoc .., hfirst, ih hlater⟩

/-! ## Runs that take a plan -/

namespace Run

variable {α β : Type}

/-- A wait that has used up its checks does not count as an end, unless the remote side itself
answered with that. -/
def Ended (made : List (Exchange Rat)) (r : Except (Failure Rat) α) : Prop :=
  r = .error .unfinished → ∃ x ∈ made, x.reply = .error .unfinished

/-- With `enough` checks allowed for each wait, a run ends by itself, sleeps for `d` at most, and
makes the calls of a plan. -/
def Takes (kind : NodeKind) (enough : Nat) (d : Rat) (plan : Plan) : Post Rat α :=
  fun w made r w' => enough ≤ w.patience →
    Rested d w w' ∧ plan.Covers kind (made.map Exchange.call) ∧ Ended made r

variable {enough enough' : Nat} {d d' : Rat}

theorem Ended.after {made : List (Exchange Rat)} {r : Except (Failure Rat) α} (h : Ended made r)
    (before : List (Exchange Rat)) : Ended (before ++ made) r := by
  intro hr
  obtain ⟨x, hx, hreply⟩ := h hr
  exact ⟨x, List.mem_append_right before hx, hreply⟩

theorem ended_single (c : Call) (reply : Except (Failure Rat) c.Reply) :
    Ended [⟨c, reply⟩] reply :=
  fun hr => ⟨_, List.mem_singleton_self _, hr⟩

theorem Ended.error {made : List (Exchange Rat)} {e : Failure Rat}
    (h : Ended made (.error e : Except (Failure Rat) α)) :
    Ended made (.error e : Except (Failure Rat) β) := by
  rintro ⟨⟩
  exact h rfl

/-- More checks and more time are no harm. -/
theorem Takes.mono {x : Run Rat α} (h : x.Satisfies (Takes kind enough d plan))
    (henough : enough ≤ enough') (hd : d ≤ d') : x.Satisfies (Takes kind enough' d' plan) := by
  refine Satisfies.mono h fun w made r w' htakes hpatience => ?_
  obtain ⟨hrested, hplan, hended⟩ := htakes (henough.trans hpatience)
  exact ⟨hrested.mono hd, hplan, hended⟩

/-- What makes no call and takes no time may stand for any part of a plan. -/
theorem Takes.idle {x : Run Rat α} (h : x.Satisfies (Takes kind enough 0 [])) (hd : 0 ≤ d)
    (plan : Plan) : x.Satisfies (Takes kind enough d plan) := by
  refine Satisfies.mono h fun w made r w' htakes hpatience => ?_
  obtain ⟨hrested, hnone, hended⟩ := htakes hpatience
  refine ⟨hrested.mono hd, ?_, hended⟩
  rw [show made.map Exchange.call = [] from hnone]
  exact Plan.covers_nil kind plan

theorem takes_bind {x : Run Rat α} {f : α → Run Rat β} {whole : Plan} {all : Rat}
    (hx : x.Satisfies (Takes kind enough d plan))
    (hf : ∀ a, (f a).Satisfies (Takes kind enough d' plan')) (hd' : 0 ≤ d')
    (hall : d + d' ≤ all) (hwhole : plan ++ plan' = whole) :
    (x >>= f).Satisfies (Takes kind enough all whole) := by
  subst hwhole
  refine (hx.bind hf).mono ?_
  intro w made r w' h hpatience
  cases h with
  | @failed _ made e _ first =>
      obtain ⟨hrested, hplan, hended⟩ := first hpatience
      refine ⟨hrested.mono (by linarith), ?_, hended.error⟩
      have hboth := hplan.append (Plan.covers_nil kind plan')
      rwa [List.append_nil] at hboth
  | @went _ made₁ a w₁ made₂ _ _ first second =>
      obtain ⟨hrested, hplan, -⟩ := first hpatience
      obtain ⟨hrested', hplan', hended'⟩ := second (hpatience.trans hrested.patience.ge)
      refine ⟨(hrested.trans hrested').mono hall, ?_, hended'.after made₁⟩
      rw [List.map_append]
      exact hplan.append hplan'

/-- What comes first may be of no account. -/
theorem takes_silent_bind {x : Run Rat α} {f : α → Run Rat β}
    (hx : x.Satisfies (Takes kind enough 0 [])) (hf : ∀ a, (f a).Satisfies (Takes kind enough d plan))
    (hd : 0 ≤ d) : (x >>= f).Satisfies (Takes kind enough d plan) :=
  takes_bind hx hf hd (zero_add d).le rfl

/-- What comes last may be of no account. -/
theorem takes_bind_silent {x : Run Rat α} {f : α → Run Rat β}
    (hx : x.Satisfies (Takes kind enough d plan))
    (hf : ∀ a, (f a).Satisfies (Takes kind enough 0 [])) :
    (x >>= f).Satisfies (Takes kind enough d plan) :=
  takes_bind hx hf le_rfl (add_zero d).le (List.append_nil plan)

/-- What is done with a result adds nothing, if it takes no time and does not fail for want of
checks itself. -/
theorem takes_attempt {x : Run Rat α} {f : Except (Failure Rat) α → Run Rat β}
    (hx : x.Satisfies (Takes kind enough d plan))
    (hf : ∀ r w, (f r w).2.exchanges = w.exchanges ∧ Rested 0 w (f r w).2
      ∧ ((f r w).1 = .error .unfinished → r = .error .unfinished)) :
    (attempt x f).Satisfies (Takes kind enough d plan) := by
  have hafter : ∀ r, (f r).Satisfies fun w made r' w' => made = [] ∧ Rested 0 w w'
      ∧ (r' = .error .unfinished → r = .error .unfinished) := fun r w =>
    ⟨[], (hf r w).1, rfl, (hf r w).2⟩
  refine (hx.attempt hafter).mono ?_
  rintro w _ r' w' ⟨htakes, rfl, hrested', hr⟩ hpatience
  obtain ⟨hrested, hplan, hended⟩ := htakes hpatience
  rw [List.append_nil]
  exact ⟨(hrested.trans hrested').mono (add_zero d).le, hplan, fun h => hended (hr h)⟩

/-- A run that calls nobody, takes no time, and does not fail for want of checks. -/
theorem takes_of_silent {x : Run Rat α} (kind : NodeKind) (enough : Nat)
    (h : ∀ w, (x w).2.exchanges = w.exchanges ∧ Rested 0 w (x w).2
      ∧ (x w).1 ≠ .error .unfinished) : x.Satisfies (Takes kind enough 0 []) := by
  intro w
  obtain ⟨htrace, hrested, hr⟩ := h w
  exact ⟨[], htrace, fun _ => ⟨hrested, rfl, fun hunfinished => absurd hunfinished hr⟩⟩

theorem takes_pure (kind : NodeKind) (enough : Nat) (a : α) :
    (pure a : Run Rat α).Satisfies (Takes kind enough 0 []) :=
  takes_of_silent kind enough fun w => ⟨rfl, Rested.refl w, nofun⟩

theorem takes_fail (kind : NodeKind) (enough : Nat) {e : Failure Rat} (he : e ≠ .unfinished) :
    (fail e : Run Rat α).Satisfies (Takes kind enough 0 []) :=
  takes_of_silent kind enough fun w => ⟨rfl, Rested.refl w, fun h => he (Except.error.inj h)⟩

theorem takes_ofFault (kind : NodeKind) (enough : Nat) (x : Except Fault α) :
    (ofFault x : Run Rat α).Satisfies (Takes kind enough 0 []) := by
  cases x with
  | ok a => exact takes_pure kind enough a
  | error fault => exact takes_fail kind enough nofun

theorem takes_update (kind : NodeKind) (enough : Nat) {f : World Rat → World Rat}
    (h : ∀ w, (f w).exchanges = w.exchanges ∧ Rested 0 w (f w)) :
    (update f).Satisfies (Takes kind enough 0 []) :=
  takes_of_silent kind enough fun w => ⟨(h w).1, (h w).2, nofun⟩

theorem call_rested (c : Call) : (call c : Run Rat c.Reply).Satisfies fun w made r w' =>
    made = [⟨c, r⟩] ∧ Rested 0 w w' := by
  refine (satisfies_call c).mono ?_
  rintro w made r w' ⟨hmade, hw'⟩
  rw [hw']
  exact ⟨hmade, Rested.of_same rfl rfl rfl⟩

theorem takes_call {c : Call} (hc : look.Admits kind [c]) (enough : Nat) :
    (call c : Run Rat c.Reply).Satisfies (Takes kind enough 0 [(look, 1)]) := by
  refine (call_rested c).mono ?_
  rintro w _ r w' ⟨rfl, hrested⟩ -
  exact ⟨hrested, Plan.covers_single.mpr hc.rounds, ended_single c r⟩

/-! ## Waits -/

variable {p : StagePolicy Rat} {check : Run Rat (Option α)}

/-- What the rest of a wait that began at `started` takes. Every sleep but the last takes the first
interval at least, so `k` sleeps are enough for a rest of `k` times that interval. The first `n` looks
are allowed in any case. -/
def Rests (kind : NodeKind) (look : Look) (p : StagePolicy Rat) (started : Rat) (patience n : Nat) :
    Post Rat α := fun w made r w' =>
  ∀ k : Nat, p.timeout - (w.clock - started) ≤ k * p.interval → k < patience →
    Rested (max 0 (p.timeout - (w.clock - started))) w w'
      ∧ Rounds kind look (n + k) (made.map Exchange.call) ∧ Ended made r

/-- A wait that makes no more calls. -/
theorem rests_done {x : Run Rat α} {started : Rat} {patience n : Nat} {w : World Rat}
    (htrace : (x w).2.exchanges = w.exchanges) (hrested : Rested 0 w (x w).2)
    (hr : (x w).1 ≠ .error .unfinished) :
    ∃ made, (x w).2.exchanges = made.reverse ++ w.exchanges
      ∧ Rests kind look p started patience n w made (x w).1 (x w).2 :=
  ⟨[], htrace, fun _ _ _ =>
    ⟨hrested.mono (le_max_left ..), rounds_nil kind look _, fun h => absurd h hr⟩⟩

/-- A sleep uses up one interval of the rest, or all of it. -/
theorem rests_slept (hp : p.Lasting) {started interval : Rat} {patience : Nat} {w w' : World Rat}
    {made : List (Exchange Rat)} {r : Except (Failure Rat) α} (hinterval : p.interval ≤ interval)
    (htime : w.clock - started < p.timeout)
    (h : Rests kind look p started patience 1
      (w.slept (min interval (p.timeout - (w.clock - started)))) made r w') :
    Rests kind look p started (patience + 1) 0 w made r w' := by
  unfold Rests at h ⊢
  have hclock : ∀ pause, p.timeout - ((w.slept pause).clock - started)
      = p.timeout - (w.clock - started) - pause := fun pause => by
    unfold World.slept
    ring
  rw [hclock] at h
  have hpos : 0 < p.timeout - (w.clock - started) := sub_pos.mpr htime
  revert h hpos
  generalize p.timeout - (w.clock - started) = left
  intro h hpos k hk hlt
  have hpause : 0 ≤ min interval left := le_min (hp.interval_pos.le.trans hinterval) hpos.le
  cases k with
  | zero =>
      rw [Nat.cast_zero, zero_mul] at hk
      exact absurd hk (not_le.mpr hpos)
  | succ k =>
      -- A sleep of the whole interval pays for one of the `k + 1`. One that is cut short leaves nothing.
      have henough : left - min interval left ≤ k * p.interval := by
        push_cast at hk
        rcases min_choice interval left with hwhole | hcut
        · rw [hwhole]
          linarith
        · rw [hcut, sub_self]
          exact mul_nonneg k.cast_nonneg hp.interval_pos.le
      obtain ⟨hrested, hrounds, hended⟩ := h k henough (Nat.lt_of_succ_lt_succ hlt)
      refine ⟨((Rested.slept_once hpause).trans hrested).mono ?_, ?_, hended⟩
      · rw [max_eq_right (sub_nonneg.mpr (min_le_right ..)), max_eq_right hpos.le]
        linarith
      · rwa [Nat.zero_add, Nat.add_comm]

theorem pollNext_rests (hp : p.Lasting) {stage : String} {subject : Value}
    {started interval : Rat} {patience done : Nat} (hinterval : p.interval ≤ interval)
    (hrest : (pollFrom check stage p subject started patience (done + 1)
      (p.grow interval)).Satisfies (Rests kind look p started patience 1)) (found : Option α) :
    (pollNext check stage p subject started patience done interval found).Satisfies
      (Rests kind look p started (patience + 1) 0) := by
  intro w
  cases found with
  | some a => exact rests_done rfl (Rested.of_same rfl rfl rfl) nofun
  | none =>
      rcases le_or_gt p.timeout (w.clock - started) with htime | htime
      · rw [pollNext_late htime]
        exact rests_done (x := fail _) rfl (Rested.refl w) nofun
      · rw [pollNext_early htime]
        obtain ⟨made, htrace, hmade⟩ := hrest (w.slept _)
        exact ⟨made, htrace, rests_slept hp hinterval htime hmade⟩

theorem pollFrom_rests (hp : p.Lasting) (hcheck : check.Satisfies (Takes kind 0 0 [(look, 1)]))
    (stage : String) (subject : Value) (started : Rat) (patience done : Nat) {interval : Rat}
    (hinterval : p.interval ≤ interval) :
    (pollFrom check stage p subject started patience done interval).Satisfies
      (Rests kind look p started patience 1) := by
  -- On the checks that may still be made. The interval grows, but never falls below the first one.
  induction patience generalizing done interval with
  | zero => exact fun w => ⟨[], rfl, fun k _ hk => absurd hk (Nat.not_lt_zero k)⟩
  | succ patience ih =>
      rw [pollFrom_succ]
      have hnext := pollNext_rests hp hinterval (ih (done + 1) (hp.le_grow hinterval))
      refine (hcheck.bind hnext).mono ?_
      intro w made r w' h k hk hlt
      cases h with
      | failed first =>
          obtain ⟨hrested, hplan, hended⟩ := first (Nat.zero_le _)
          have hrounds := (Plan.covers_single.mp hplan).append (rounds_nil kind look k)
          rw [List.append_nil] at hrounds
          exact ⟨hrested.mono (le_max_left ..), hrounds, hended.error⟩
      | @went _ made₁ found w₁ made₂ _ _ first second =>
          obtain ⟨hrested, hplan, -⟩ := first (Nat.zero_le _)
          rw [← hrested.clock_eq] at hk ⊢
          obtain ⟨hrested', hrounds', hended'⟩ := second k hk hlt
          have hrounds := (Plan.covers_single.mp hplan).append hrounds'
          rw [← List.map_append, Nat.zero_add] at hrounds
          exact ⟨(hrested.trans hrested').mono (zero_add _).le, hrounds, hended'.after made₁⟩

theorem reworded_eq_unfinished {subject : Value} {wording : String} {e : Failure Rat}
    (h : reworded subject wording e = .unfinished) : e = .unfinished := by
  cases e <;> first | rfl | cases h

/-- A wait ends by itself, takes its timeout at most, and checks no more often than its policy
leaves time for. -/
theorem await_takes (hp : p.Lasting) (hcheck : check.Satisfies (Takes kind 0 0 [(look, 1)]))
    (henough : p.checks ≤ enough) (stage : String) (subject : Value) (wording : String) :
    (Machine.await check stage p subject wording).Satisfies
      (Takes kind enough p.timeout [(look, p.checks)]) := by
  have hwait : (pollUntil check stage p subject).Satisfies
      (Takes kind enough p.timeout [(look, p.checks)]) := by
    intro w
    obtain ⟨made, htrace, hmade⟩ :=
      pollFrom_rests hp hcheck stage subject w.clock w.patience 0 le_rfl w
    unfold Rests at hmade
    rw [sub_self, sub_zero, max_eq_right hp.timeout_pos.le] at hmade
    refine ⟨made, htrace, fun hpatience => ?_⟩
    obtain ⟨hrested, hrounds, hended⟩ := hmade _ hp.timeout_le (henough.trans hpatience)
    rw [Nat.add_comm] at hrounds
    exact ⟨hrested, Plan.covers_single.mpr hrounds, hended⟩
  rw [await_eq]
  refine takes_attempt hwait fun r w => ?_
  cases r with
  | ok a => exact ⟨rfl, Rested.refl w, nofun⟩
  | error e =>
      refine ⟨rfl, Rested.refl w, fun h => ?_⟩
      rw [reworded_eq_unfinished (Except.error.inj h)]

end Run

end Provision
