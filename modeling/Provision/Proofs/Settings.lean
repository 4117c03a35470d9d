import Provision.Proofs.Families

/-!
# Settings of an operator

The timing of four stages can be set, timeouts and intervals apart. What comes
out for a stage is one function of its policy and its own two settings
(`StagePolicy.retimed`), and the policy is refused just if one of them is not
positive (`overridden_eq`). An interval above the cap is no reason: it takes the
cap along. So the settings of a configuration are judged stage by stage; the
first that is refused decides, and if there is none every stage is timed as it
was set (`configuredPolicies_cases`).

Durations are only compared here, and all that is asked of the comparison is
that of two durations at most one is below the other. This is so for exact
durations as for those of a configuration, integers and doubles side by side.
-/

namespace Provision

/-! ## Comparing durations -/

/-- Of two durations at most one is below the other. -/
class Duration.Asymmetric (τ : Type) [Duration τ] : Prop where
  below_asymm (a b : τ) : Duration.below a b = true → Duration.below b a = false

instance : Duration.Asymmetric Rat where
  below_asymm a b h := by
    have hle : a ≤ b := Rat.le_of_lt (of_decide_eq_true h)
    exact decide_eq_false (Rat.not_lt.mpr hle)

namespace Seconds

open Float.Model in
/-- Doubles that change places compare the other way round. -/
theorem compare_swap (a b : UnpackedFloat) : b.compare a = (a.compare b).map Ordering.swap := by
  have hplaces (m m' : Nat) (e e' : Int) : (compare e' e).then (compare m' m)
      = ((compare e e').then (compare m m')).swap := by
    rw [Ordering.swap_then, ← Std.OrientedCmp.eq_swap, ← Std.OrientedCmp.eq_swap]
  cases a with
  | notANumber => cases b <;> rfl
  | infinity s =>
      cases b with
      | notANumber => cases s <;> rfl
      | infinity t => cases s <;> cases t <;> rfl
      | zero t => cases s <;> rfl
      | finite t => cases s <;> rfl
  | zero s =>
      cases b with
      | notANumber => rfl
      | infinity t => cases t <;> rfl
      | zero t => rfl
      | finite t => cases t <;> rfl
  | finite s m e =>
      cases b with
      | notANumber => cases s <;> rfl
      | infinity t => cases s <;> cases t <;> rfl
      | zero t => cases s <;> rfl
      | finite t m' e' =>
          -- Of two below zero the larger one has the smaller mantissa and exponent.
          cases s <;> cases t
          · exact congrArg (some ·.swap) (hplaces m m' e e')
          · rfl
          · rfl
          · exact congrArg some (hplaces m m' e e')

theorem lt_asymm {x y : Float} (h : x < y) : ¬ y < x := by
  intro hback
  have hxy : x.toModel.unpack.compare y.toModel.unpack = some .lt :=
    eq_of_beq (of_decide_eq_true h)
  have hyx : y.toModel.unpack.compare x.toModel.unpack = some .lt :=
    eq_of_beq (of_decide_eq_true hback)
  rw [compare_swap, hxy] at hyx
  cases hyx

instance : Duration.Asymmetric Seconds where
  below_asymm a b h := by
    cases a with
    | whole m =>
        cases b with
        | whole n => exact decide_eq_false (Int.not_lt.mpr (Int.le_of_lt (of_decide_eq_true h)))
        | real y =>
            have hlt : Decimal.compareInt m y = some .lt := eq_of_beq h
            show (Decimal.compareInt m y == some .gt) = false
            rw [hlt]
            rfl
    | real x =>
        cases b with
        | whole n =>
            have hgt : Decimal.compareInt n x = some .gt := eq_of_beq h
            show (Decimal.compareInt n x == some .lt) = false
            rw [hgt]
            rfl
        | real y => exact decide_eq_false (lt_asymm (of_decide_eq_true h))

end Seconds

variable {τ : Type} [Duration τ]

namespace Duration

/-- The larger one of two durations, either of them where neither is below the other. -/
structure IsLarger (a b larger : τ) : Prop where
  one : larger = a ∨ larger = b
  not_below : below larger a = false ∧ below larger b = false

variable [Asymmetric τ]

theorem below_irrefl (a : τ) : below a a = false := by
  cases h : below a a with
  | false => rfl
  | true => exact h.symm.trans (Asymmetric.below_asymm a a h)

theorem isLarger_ite (a b : τ) : IsLarger a b (if below a b then b else a) := by
  cases h : below a b with
  | true => exact ⟨Or.inr rfl, Asymmetric.below_asymm a b h, below_irrefl b⟩
  | false => exact ⟨Or.inl rfl, below_irrefl a, h⟩

end Duration

/-! ## One policy -/

namespace StagePolicy

/-- A policy that stands up to the checks it is made with. -/
def Accepted (p : StagePolicy τ) : Prop := make p.timeout p.interval p.cap p.backoff = .ok p

/-- A setting that no policy can have. -/
def isRefused (timeout interval : Option τ) : Bool :=
  timeout.any (Duration.atMost · (Duration.ofInt 0))
    || interval.any (Duration.atMost · (Duration.ofInt 0))

/-- The policy with a timeout and an interval of its own, where they are set. -/
def retimed (p : StagePolicy τ) (timeout interval : Option τ) : StagePolicy τ :=
  let next := interval.getD p.interval
  { p with
    timeout := timeout.getD p.timeout
    interval := next
    cap := p.cap.map fun c => if Duration.below c next then next else c }

variable {p : StagePolicy τ} {timeout interval : Option τ}

/-- Where no cap is in the way, only the signs of timeout and interval are checked. -/
theorem make_eq {t i backoff : τ} {cap : Option τ}
    (hcap : ∀ c, cap = some c → Duration.below c i = false) : make t i cap backoff
      = if Duration.atMost t (Duration.ofInt 0) || Duration.atMost i (Duration.ofInt 0) then
          .error (.notPositive t i)
        else .ok { timeout := t, interval := i, cap, backoff } := by
  unfold make
  cases cap with
  | none => rfl
  | some c => simp only [hcap c rfl, Bool.false_eq_true, if_false]

theorem Accepted.positive (h : p.Accepted) :
    Duration.atMost p.timeout (Duration.ofInt 0) = false
      ∧ Duration.atMost p.interval (Duration.ofInt 0) = false := by
  unfold Accepted make at h
  split at h
  · cases h
  · rename_i hsigns
    simpa using hsigns

theorem Accepted.capped (h : p.Accepted) {c : τ} (hc : p.cap = some c) :
    Duration.below c p.interval = false := by
  obtain ⟨ht, hi⟩ := h.positive
  unfold Accepted make at h
  cases hbelow : Duration.below c p.interval with
  | false => rfl
  | true => simp [ht, hi, hc, hbelow] at h

theorem accepted_of (ht : Duration.atMost p.timeout (Duration.ofInt 0) = false)
    (hi : Duration.atMost p.interval (Duration.ofInt 0) = false)
    (hcap : ∀ c, p.cap = some c → Duration.below c p.interval = false) : p.Accepted := by
  rw [Accepted, make_eq hcap, ht, hi]
  rfl

theorem retimed_none (hp : p.Accepted) : p.retimed none none = p := by
  have hcap : p.cap.map (fun c => if Duration.below c p.interval then p.interval else c)
      = p.cap := by
    cases hc : p.cap with
    | none => rfl
    | some c => simp [hp.capped hc]
  simp only [retimed, Option.getD_none, hcap]

/-- Only a setting can have the wrong sign. -/
theorem signs_retimed (hp : p.Accepted) (timeout interval : Option τ) :
    (Duration.atMost (p.retimed timeout interval).timeout (Duration.ofInt 0)
      || Duration.atMost (p.retimed timeout interval).interval (Duration.ofInt 0))
    = isRefused timeout interval := by
  obtain ⟨ht, hi⟩ := hp.positive
  cases timeout <;> cases interval <;> simp [retimed, isRefused, ht, hi]

variable [Duration.Asymmetric τ]

/-- A cap that was raised where need be is not below the interval. -/
theorem cap_retimed {c : τ} (hc : (p.retimed timeout interval).cap = some c) :
    Duration.below c (p.retimed timeout interval).interval = false := by
  obtain ⟨c₀, -, rfl⟩ := Option.map_eq_some_iff.mp hc
  exact (Duration.isLarger_ite c₀ (interval.getD p.interval)).not_below.2

/-- What is set for a stage is refused, or it is what the stage gets. -/
theorem overridden_eq (hp : p.Accepted) (timeout interval : Option τ) :
    FamilySpec.overridden p timeout interval
      = if isRefused timeout interval then
          .error (.notPositive (timeout.getD p.timeout) (interval.getD p.interval))
        else .ok (p.retimed timeout interval) := by
  unfold FamilySpec.overridden
  by_cases hnone : (timeout.isNone && interval.isNone) = true
  · obtain ⟨rfl, rfl⟩ : timeout = none ∧ interval = none := by simpa using hnone
    rw [retimed_none hp]
    rfl
  · have hcap : ∀ c, (p.retimed timeout interval).cap = some c →
        Duration.below c (p.retimed timeout interval).interval = false := fun c hc => cap_retimed hc
    rw [if_neg hnone, ← signs_retimed hp]
    exact make_eq hcap

theorem accepted_retimed (hp : p.Accepted) (h : isRefused timeout interval = false) :
    (p.retimed timeout interval).Accepted := by
  rw [← signs_retimed hp, Bool.or_eq_false_iff] at h
  exact accepted_of h.1 h.2 fun c hc => cap_retimed hc

/-- To set the same once more changes nothing. -/
theorem retimed_retimed (p : StagePolicy τ) (timeout interval : Option τ) :
    (p.retimed timeout interval).retimed timeout interval = p.retimed timeout interval := by
  have htimeout : timeout.getD (timeout.getD p.timeout) = timeout.getD p.timeout := by
    cases timeout <;> rfl
  have hinterval : interval.getD (interval.getD p.interval) = interval.getD p.interval := by
    cases interval <;> rfl
  simp only [retimed, htimeout, hinterval]
  cases p.cap with
  | none => rfl
  | some c =>
      simp only [Option.map_some, (Duration.isLarger_ite c _).not_below.2, Bool.false_eq_true,
        if_false]

/-- A policy with its own settings: each as it is set, or else as it was, and the cap raised to the
interval where it would be below. -/
structure SetTo (p : StagePolicy τ) (t i : Option τ) (p' : StagePolicy τ) : Prop where
  timeout : p'.timeout = t.getD p.timeout
  interval : p'.interval = i.getD p.interval
  uncapped : p.cap = none → p'.cap = none
  capped : ∀ c, p.cap = some c → ∃ c', p'.cap = some c' ∧ Duration.IsLarger c p'.interval c'
  backoff : p'.backoff = p.backoff
  untouched : t = none → i = none → p' = p

theorem setTo_retimed (hp : p.Accepted) (timeout interval : Option τ) :
    p.SetTo timeout interval (p.retimed timeout interval) where
  timeout := rfl
  interval := rfl
  uncapped h := by rw [retimed, h, Option.map_none]
  capped c h := ⟨_, by rw [retimed, h, Option.map_some], Duration.isLarger_ite c _⟩
  backoff := rfl
  untouched := by
    rintro rfl rfl
    exact retimed_none hp

end StagePolicy

/-! ## All stages -/

/-- Whether a configuration sets something for a stage that no policy can have. -/
def Config.refuses (c : Config τ) (stage : Stage) : Bool :=
  StagePolicy.isRefused (c.timeoutOf stage) (c.intervalOf stage)

theorem Config.refuses_iff {c : Config τ} {stage : Stage} : c.refuses stage = true
    ↔ ∃ x, (c.timeoutOf stage = some x ∨ c.intervalOf stage = some x)
      ∧ Duration.atMost x (Duration.ofInt 0) = true := by
  rw [refuses, StagePolicy.isRefused, Bool.or_eq_true, Option.any_eq_true, Option.any_eq_true]
  constructor
  · rintro (⟨x, hx, hsign⟩ | ⟨x, hx, hsign⟩)
    · exact ⟨x, Or.inl hx, hsign⟩
    · exact ⟨x, Or.inr hx, hsign⟩
  · rintro ⟨x, hx | hx, hsign⟩
    · exact Or.inl ⟨x, hx, hsign⟩
    · exact Or.inr ⟨x, hx, hsign⟩

namespace StagePolicies

/-- The policies of all stages that can be set stand up to the checks. -/
def Accepted (p : StagePolicies τ) : Prop := ∀ stage q, p.get? stage = some q → q.Accepted

/-- The policies with what a configuration sets for them. -/
def retimed (p : StagePolicies τ) (c : Config τ) : StagePolicies τ :=
  let change (stage : Stage) (q : StagePolicy τ) := q.retimed (c.timeoutOf stage) (c.intervalOf stage)
  { p with
    orderApproved := change .orderApproved p.orderApproved
    transactionsStarted := change .transactionsStarted p.transactionsStarted
    transactionsEnded := change .transactionsEnded p.transactionsEnded
    loginReady := change .loginReady p.loginReady }

theorem get?_retimed (p : StagePolicies τ) (c : Config τ) (stage : Stage) :
    (p.retimed c).get? stage
      = (p.get? stage).map (·.retimed (c.timeoutOf stage) (c.intervalOf stage)) := by
  cases stage <;> rfl

/-- To set the same once more changes nothing. -/
theorem retimed_retimed [Duration.Asymmetric τ] (p : StagePolicies τ) (c : Config τ) :
    (p.retimed c).retimed c = p.retimed c := by
  simp only [retimed, StagePolicy.retimed_retimed]

variable {p : StagePolicies τ}

theorem accepted_of (happroved : p.orderApproved.Accepted)
    (hstarted : p.transactionsStarted.Accepted) (hended : p.transactionsEnded.Accepted)
    (hlogin : p.loginReady.Accepted) : p.Accepted := by
  intro stage q hq
  cases stage <;> cases hq
  · exact happroved
  · exact hstarted
  · exact hended
  · exact hlogin

end StagePolicies

namespace FamilySpec

theorem configured_error {s : FamilySpec τ} {c : Config τ} {fault : PolicyFault τ}
    (h : configuredPolicies s.policies c = .error fault) : s.configured c = .error fault := by
  unfold configured
  rw [h]
  rfl

theorem configured_ok {s : FamilySpec τ} {c : Config τ} {policies : StagePolicies τ}
    (h : configuredPolicies s.policies c = .ok policies) :
    s.configured c = .ok { s with policies, hourly := c.hourly.getD s.hourly } := by
  unfold configured
  rw [h]
  rfl

variable [Duration.Asymmetric τ] {p : StagePolicies τ}

/-- The first stage with a setting that is refused decides. -/
theorem configuredPolicies_cases (hp : p.Accepted) (c : Config τ) :
    (∃ stage q, Stage.timed.find? c.refuses = some stage ∧ p.get? stage = some q
      ∧ configuredPolicies p c = .error (.notPositive ((c.timeoutOf stage).getD q.timeout)
        ((c.intervalOf stage).getD q.interval)))
    ∨ (Stage.timed.find? c.refuses = none ∧ configuredPolicies p c = .ok (p.retimed c)) := by
  have hstage : ∀ stage q, p.get? stage = some q →
      overridden q (c.timeoutOf stage) (c.intervalOf stage)
        = if c.refuses stage then .error (.notPositive ((c.timeoutOf stage).getD q.timeout)
            ((c.intervalOf stage).getD q.interval))
          else .ok (q.retimed (c.timeoutOf stage) (c.intervalOf stage)) :=
    fun stage q hq => StagePolicy.overridden_eq (hp stage q hq) _ _
  unfold configuredPolicies
  simp only [hstage .orderApproved _ rfl, hstage .transactionsStarted _ rfl,
    hstage .transactionsEnded _ rfl, hstage .loginReady _ rfl, Stage.timed]
  cases happroved : c.refuses .orderApproved with
  | true => exact Or.inl ⟨.orderApproved, _, by simp [happroved], rfl, rfl⟩
  | false =>
      cases hstarted : c.refuses .transactionsStarted with
      | true => exact Or.inl ⟨.transactionsStarted, _, by simp [happroved, hstarted], rfl, rfl⟩
      | false =>
          cases hended : c.refuses .transactionsEnded with
          | true =>
              exact Or.inl ⟨.transactionsEnded, _, by simp [happroved, hstarted, hended], rfl, rfl⟩
          | false =>
              cases hlogin : c.refuses .loginReady with
              | true =>
                  exact Or.inl ⟨.loginReady, _, by simp [happroved, hstarted, hended, hlogin], rfl,
                    rfl⟩
              | false =>
                  exact Or.inr ⟨by simp [happroved, hstarted, hended, hlogin], rfl⟩

theorem accepted_retimed (hp : p.Accepted) {c : Config τ}
    (hnone : Stage.timed.find? c.refuses = none) : (p.retimed c).Accepted := by
  have hgood : ∀ stage ∈ Stage.timed, c.refuses stage = false := by simpa using hnone
  refine StagePolicies.accepted_of ?_ ?_ ?_ ?_
  · exact StagePolicy.accepted_retimed (hp .orderApproved _ rfl) (hgood _ (by decide))
  · exact StagePolicy.accepted_retimed (hp .transactionsStarted _ rfl) (hgood _ (by decide))
  · exact StagePolicy.accepted_retimed (hp .transactionsEnded _ rfl) (hgood _ (by decide))
  · exact StagePolicy.accepted_retimed (hp .loginReady _ rfl) (hgood _ (by decide))

/-- **Settings of a family.** A configuration is refused just if it sets a timeout or an interval
that is not positive for one of the stages that can be set; the first such stage is named by its
timing, and a cap is never the reason. Otherwise every stage is timed as it is set or as it was, its
cap being the larger one of the cap that it had and its interval. The pricing is as it is set or as
it was, and nothing else of the family is changed. To apply the same configuration once more
changes nothing. -/
theorem configured_by_stage {s : FamilySpec τ} (hs : s.policies.Accepted) (c : Config τ) :
    ((∃ fault, s.configured c = .error fault) ↔ ∃ stage ∈ Stage.timed, ∃ x,
      (c.timeoutOf stage = some x ∨ c.intervalOf stage = some x)
        ∧ Duration.atMost x (Duration.ofInt 0) = true)
    ∧ (∀ fault, s.configured c = .error fault → ∃ stage q,
      Stage.timed.find? c.refuses = some stage ∧ s.policies.get? stage = some q
        ∧ fault = .notPositive ((c.timeoutOf stage).getD q.timeout)
          ((c.intervalOf stage).getD q.interval))
    ∧ ∀ s', s.configured c = .ok s' →
      (∀ stage q, s.policies.get? stage = some q → ∃ q', s'.policies.get? stage = some q'
        ∧ q.SetTo (c.timeoutOf stage) (c.intervalOf stage) q')
      ∧ s'.policies.poweredOff = s.policies.poweredOff
      ∧ s'.hourly = c.hourly.getD s.hourly
      ∧ s' = { s with policies := s'.policies, hourly := s'.hourly }
      ∧ s'.policies.Accepted
      ∧ s'.configured c = .ok s' := by
  simp only [← Config.refuses_iff, ← List.find?_isSome]
  rcases configuredPolicies_cases hs c with
    ⟨stage, q, hfirst, hq, hpolicies⟩ | ⟨hnone, hpolicies⟩
  · have hfault := configured_error hpolicies
    refine ⟨iff_of_true ⟨_, hfault⟩ ?_, ?_, ?_⟩
    · rw [hfirst]
      rfl
    · intro fault h
      exact ⟨stage, q, hfirst, hq, Except.error.inj (h.symm.trans hfault)⟩
    · intro s' h
      cases hfault.symm.trans h
  · have hok := configured_ok hpolicies
    refine ⟨iff_of_false ?_ ?_, ?_, ?_⟩
    · rintro ⟨fault, h⟩
      cases hok.symm.trans h
    · rw [hnone]
      exact Bool.false_ne_true
    · intro fault h
      cases hok.symm.trans h
    · intro s' h
      obtain rfl := Except.ok.inj (hok.symm.trans h)
      have haccepted := accepted_retimed hs hnone
      refine ⟨fun stage q hq => ⟨_, ?_, StagePolicy.setTo_retimed (hs stage q hq) _ _⟩, rfl, rfl, rfl,
        haccepted, ?_⟩
      · rw [StagePolicies.get?_retimed, hq]
        rfl
      · have hagain : configuredPolicies (s.policies.retimed c) c = .ok (s.policies.retimed c) := by
          rcases configuredPolicies_cases haccepted c with ⟨stage, q, hfirst, -⟩ | ⟨-, hagain⟩
          · cases hnone.symm.trans hfirst
          · rw [hagain, StagePolicies.retimed_retimed]
        rw [configured_ok hagain]
        cases c.hourly <;> rfl

/-! ## The built-in policies -/

theorem accepted_of_hours {n : Int} {interval cap : Seconds} (hn : 0 < n)
    (hinterval : Duration.atMost interval (Duration.ofInt 0) = false)
    (hcap : Duration.below cap interval = false) : StagePolicy.Accepted
      { timeout := Duration.ofInt (n * 3600), interval, cap := some cap
        backoff := StagePolicy.usualBackoff } := by
  refine StagePolicy.accepted_of ?_ hinterval ?_
  · have hpos : 0 < n * 3600 := Int.mul_pos hn (by decide)
    exact decide_eq_false (Int.not_le.mpr hpos)
  · rintro c ⟨⟩
    exact hcap

theorem timing_accepted {hours approval login : Int} {interval cap : Seconds} (hhours : 0 < hours)
    (happroval : 0 < approval) (hlogin : 0 < login)
    (hinterval : Duration.atMost interval (Duration.ofInt 0) = false)
    (hcap : Duration.below cap interval = false) :
    (timing hours approval login interval cap).Accepted :=
  StagePolicies.accepted_of (accepted_of_hours happroval hinterval hcap)
    (accepted_of_hours hhours hinterval hcap) (accepted_of_hours hhours hinterval hcap)
    (accepted_of_hours hlogin hinterval hcap)

/-- The policies that the families come with stand up to the checks. -/
theorem builders_accepted {c : Config Seconds} {s : FamilySpec Seconds} (h : .ok s ∈ builders c) :
    s.policies.Accepted := by
  have hserver {hours approval login : Int} (hhours : 0 < hours) (happroval : 0 < approval)
      (hlogin : 0 < login) : (serverTiming hours approval login : StagePolicies Seconds).Accepted :=
    timing_accepted hhours happroval hlogin (by decide) (by decide)
  rcases built_of_builders h with h | h | h | h
  · rw [h.policies]
    exact timing_accepted (by decide) (by decide) (by decide) (by decide +kernel)
      (by decide +kernel)
  · rw [h.policies]
    exact hserver (by decide) (by decide) (by decide)
  · rw [h.policies]
    exact hserver (by decide) (by decide) (by decide)
  · rw [h.policies]
    exact hserver (by decide) (by decide) (by decide)

/-- The login of a node is waited for two minutes, and looked at every two seconds. -/
def patientLogin : Config Seconds :=
  { Config.usual with
    timeouts := [("LOGIN_READY", .whole 120)]
    intervals := [("LOGIN_READY", .real 2)] }

theorem virtualGuest_isSome :
    (virtualGuest (Config.usual : Config Seconds)).toOption.isSome = true := by
  decide +kernel

/-- The interval is longer than the cap of a guest, which is one second, and the cap follows it. -/
theorem configured_by_stage_login : ∃ s s' : FamilySpec Seconds,
    virtualGuest Config.usual = .ok s ∧ s.policies.Accepted
      ∧ s.configured patientLogin = .ok s'
      ∧ s'.policies.loginReady.timeout = .whole 120
      ∧ s'.policies.loginReady.cap = some (.real 2)
      ∧ s'.policies.orderApproved = s.policies.orderApproved
      ∧ s'.configured patientLogin = .ok s' := by
  obtain ⟨s, hs⟩ := Option.isSome_iff_exists.mp virtualGuest_isSome
  have hbuilt : virtualGuest Config.usual = .ok s := ok_of_toOption hs
  have haccepted : s.policies.Accepted :=
    builders_accepted (by rw [← hbuilt]; exact List.mem_cons_self ..)
  have hpolicies := (virtualGuest_built hbuilt).policies
  obtain ⟨hrefused, -, hdone⟩ := configured_by_stage haccepted patientLogin
  cases hconfigured : s.configured patientLogin with
  | error fault =>
      have hnone : ∀ stage ∈ Stage.timed, patientLogin.refuses stage = false := by decide +kernel
      obtain ⟨stage, hstage, hsetting⟩ := hrefused.mp ⟨fault, hconfigured⟩
      cases (hnone stage hstage).symm.trans (Config.refuses_iff.mpr hsetting)
  | ok s' =>
      obtain ⟨hstages, -, -, -, -, hagain⟩ := hdone s' hconfigured
      obtain ⟨_, ⟨⟩, hlogin⟩ := hstages .loginReady _ rfl
      obtain ⟨_, ⟨⟩, happroved⟩ := hstages .orderApproved _ rfl
      have hcap : s.policies.loginReady.cap = some (Duration.ofTenths 10) := by
        rw [hpolicies]
        rfl
      obtain ⟨cap, hcap', hlarger⟩ := hlogin.capped _ hcap
      have hinterval : s'.policies.loginReady.interval = .real 2 := hlogin.interval
      rw [hinterval] at hlarger
      refine ⟨s, s', hbuilt, haccepted, hconfigured, hlogin.timeout, ?_, ?_, hagain⟩
      · rcases hlarger.one with rfl | rfl
        · have hbelow : Duration.below (Duration.ofTenths 10 : Seconds) (.real 2) = true := by
            decide +kernel
          cases hbelow.symm.trans hlarger.not_below.2
        · exact hcap'
      · exact happroved.untouched rfl rfl

end FamilySpec

end Provision
