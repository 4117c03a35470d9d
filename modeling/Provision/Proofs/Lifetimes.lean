import Provision.Family.Registry
import Provision.Proofs.Bounds
import Provision.Proofs.Decommissioning
import Provision.Proofs.Families
import Provision.Proofs.Provisioning

/-!
# Lifetimes

Provisioning and destroying a node of a supported family come to an end,
whatever the remote side does (`Strategy.machine_bounded`). The time that they take is
that of their waits, and a wait is bounded where the intervals of its policy
do not shrink. The built-in policies are of that kind, and the settings of an
operator keep them so: the backoff cannot be set, and the cap is raised where
the interval would exceed it (`supported_lasting`).
-/

namespace Provision

/-! ## Policies of supported families -/

/-- Intervals do not shrink in any wait. -/
structure StagePolicies.Lasting (p : StagePolicies Rat) : Prop where
  orderApproved : p.orderApproved.Lasting
  transactionsStarted : p.transactionsStarted.Lasting
  transactionsEnded : p.transactionsEnded.Lasting
  loginReady : p.loginReady.Lasting
  poweredOff : p.poweredOff.Lasting

namespace StagePolicies

def all (p : StagePolicies Rat) : List (StagePolicy Rat) :=
  [p.orderApproved, p.transactionsStarted, p.transactionsEnded, p.loginReady, p.poweredOff]

/-- Enough checks for any wait. -/
def checks (p : StagePolicies Rat) : Nat := (p.all.map StagePolicy.checks).sum

theorem le_checks {p : StagePolicies Rat} {q : StagePolicy Rat} (h : q ∈ p.all) :
    q.checks ≤ p.checks :=
  List.single_le_sum (fun _ _ => Nat.zero_le _) _ (List.mem_map_of_mem h)

end StagePolicies

namespace FamilySpec

theorem usualBackoff_ge_one : (1 : Rat) ≤ StagePolicy.usualBackoff := by
  show (1 : Rat) ≤ mkRat 15 10
  norm_num

theorem lasting_of_hours {n : Int} {interval cap : Rat} (hn : 0 < n) (hinterval : 0 < interval)
    (hcap : interval ≤ cap) : StagePolicy.Lasting
      { timeout := Duration.ofInt (n * 3600), interval, cap := some cap
        backoff := StagePolicy.usualBackoff } where
  timeout_pos := by
    show (0 : Rat) < ((n * 3600 : Int) : Rat)
    exact_mod_cast Int.mul_pos hn (by decide)
  interval_pos := hinterval
  capped := by
    rintro c ⟨⟩
    exact ⟨hcap, usualBackoff_ge_one⟩

theorem timing_lasting {hours approval login : Int} {interval cap : Rat} (hhours : 0 < hours)
    (happroval : 0 < approval) (hlogin : 0 < login) (hinterval : 0 < interval)
    (hcap : interval ≤ cap) : (timing hours approval login interval cap).Lasting where
  orderApproved := lasting_of_hours happroval hinterval hcap
  transactionsStarted := lasting_of_hours hhours hinterval hcap
  transactionsEnded := lasting_of_hours hhours hinterval hcap
  loginReady := lasting_of_hours hlogin hinterval hcap
  poweredOff :=
    { timeout_pos := show (0 : Rat) < ((600 : Int) : Rat) by norm_num
      interval_pos := show (0 : Rat) < ((5 : Int) : Rat) by norm_num
      capped := fun _ => nofun }

theorem serverTiming_lasting {hours approval login : Int} (hhours : 0 < hours)
    (happroval : 0 < approval) (hlogin : 0 < login) :
    (serverTiming hours approval login : StagePolicies Rat).Lasting :=
  timing_lasting hhours happroval hlogin (show (0 : Rat) < ((5 : Int) : Rat) by norm_num)
    (show ((5 : Int) : Rat) ≤ ((10 : Int) : Rat) by norm_num)

theorem built_lasting {c : Config Rat} {s : FamilySpec Rat} (h : .ok s ∈ builders c) :
    s.policies.Lasting := by
  rcases built_of_builders h with h | h | h | h
  · rw [h.policies]
    refine timing_lasting (by decide) (by decide) (by decide) ?_ ?_
    · show (0 : Rat) < mkRat 1 10
      norm_num
    · show mkRat 1 10 ≤ mkRat 10 10
      norm_num
  · rw [h.policies]
    exact serverTiming_lasting (by decide) (by decide) (by decide)
  · rw [h.policies]
    exact serverTiming_lasting (by decide) (by decide) (by decide)
  · rw [h.policies]
    exact serverTiming_lasting (by decide) (by decide) (by decide)

theorem overridden_lasting {p q : StagePolicy Rat} {timeout interval : Option Rat}
    (hp : p.Lasting) (h : overridden p timeout interval = .ok q) : q.Lasting := by
  unfold overridden at h
  by_cases hnone : (timeout.isNone && interval.isNone) = true
  · rw [if_pos hnone] at h
    cases h
    exact hp
  · rw [if_neg hnone] at h
    obtain ⟨rfl, htimeout, hinterval, hcap⟩ := StagePolicy.of_make_ok h
    refine ⟨htimeout, hinterval, fun c hc => ⟨hcap c hc, ?_⟩⟩
    obtain ⟨c₀, hc₀, -⟩ := Option.map_eq_some_iff.mp hc
    exact (hp.capped c₀ hc₀).2

/-- The settings of an operator leave no wait without a bound. -/
theorem supported_lasting {c : Config Rat} {specs : List (FamilySpec Rat)}
    (h : supported c = .ok specs) {s : FamilySpec Rat} (hs : s ∈ specs) : s.policies.Lasting := by
  obtain ⟨s₀, hbuilt, hconfigured⟩ := mem_supported h hs
  obtain ⟨policies, hpolicies, rfl⟩ := of_configured_ok hconfigured
  obtain ⟨⟨happroved, hstarted, hended, hlogin⟩, hpower⟩ := of_configuredPolicies_ok hpolicies
  have hlasting := built_lasting hbuilt
  exact
    { orderApproved := overridden_lasting hlasting.orderApproved happroved
      transactionsStarted := overridden_lasting hlasting.transactionsStarted hstarted
      transactionsEnded := overridden_lasting hlasting.transactionsEnded hended
      loginReady := overridden_lasting hlasting.loginReady hlogin
      poweredOff := hpower ▸ hlasting.poweredOff }

end FamilySpec

/-! ## What is done once -/

open Run (Takes takes_bind takes_silent_bind takes_bind_silent takes_call takes_attempt
  takes_of_silent takes_pure takes_fail takes_ofFault takes_update await_takes)

variable {α : Type} {kind : NodeKind} {enough : Nat}

theorem takes_log (kind : NodeKind) (enough : Nat) (record : Log.Record) :
    (Run.log record).Satisfies (Takes kind enough 0 []) :=
  takes_update kind enough fun _ => ⟨rfl, Rested.of_same rfl rfl rfl⟩

theorem takes_warned {c : Prop} [Decidable c] {record : Log.Record} {x : Run Rat α} {d : Rat}
    {plan : Plan} (hx : x.Satisfies (Takes kind enough d plan)) (hd : 0 ≤ d) :
    (if c then Run.log record >>= fun _ => x else x).Satisfies (Takes kind enough d plan) := by
  by_cases hc : c
  · rw [if_pos hc]
    exact takes_silent_bind (takes_log kind enough record) (fun _ => hx) hd
  · rw [if_neg hc]
    exact hx

theorem rested_setTracker (w : World Rat) (kind : NodeKind) (t : Tracker) :
    Rested 0 w (w.setTracker kind t) := by
  cases kind <;> exact Rested.of_same rfl rfl rfl

theorem takes_observe (kind kind' : NodeKind) (enough : Nat) (node : Int) (hostname : Value)
    (seen : Option Transaction) :
    (Run.observe kind' node hostname seen).Satisfies (Takes kind enough 0 []) := by
  refine takes_of_silent kind enough fun w => ⟨Run.setTracker_exchanges w kind' _, ?_, nofun⟩
  have hset := rested_setTracker w kind' ((w.tracker kind').observe node hostname seen).1
  exact ⟨hset.patience, hset.slept⟩

/-- A catalog is fetched at most once. -/
theorem Run.load_takes (family : Int) (session : String) :
    (Run.load family session).Satisfies (Takes kind enough 0 [(.catalog, 1)]) := by
  refine takes_silent_bind (takes_log kind enough _) (fun _ => ?_) le_rfl
  refine takes_bind_silent (takes_call (.catalog family) enough) fun items => ?_
  refine takes_silent_bind (takes_ofFault kind enough _) (fun catalog => ?_) le_rfl
  refine takes_silent_bind (takes_log kind enough _) (fun _ => ?_) le_rfl
  exact takes_of_silent kind enough fun w => ⟨rfl, Rested.of_same rfl rfl rfl, nofun⟩

theorem CatalogSource.fetch_takes (source : CatalogSource) :
    (source.fetch : Run Rat Catalog).Satisfies (Takes kind enough 0 [(.catalog, 1)]) := by
  cases source with
  | given catalog => exact Takes.idle (takes_pure kind enough catalog) le_rfl _
  | cached family session =>
      have hlookup : (Run.cachedCatalog family session
          (Run.call (.listCatalogItems family))).Satisfies (Takes kind enough 0 [(.catalog, 1)]) := by
        intro w
        rw [Run.cachedCatalog_eq]
        cases w.cache.find? family session with
        | some entry => exact Takes.idle (takes_pure kind enough entry) le_rfl _ w
        | none => exact Run.load_takes family session w
      exact takes_bind_silent hlookup fun entry => takes_pure kind enough entry.catalog

theorem Selector.catalogFor_takes (defaults : OrderDefaults) (source : Option CatalogSource) :
    (catalogFor defaults source : Run Rat (Option Catalog)).Satisfies
      (Takes kind enough 0 [(.catalog, 1)]) := by
  cases source with
  | none => exact Takes.idle (takes_pure kind enough none) le_rfl _
  | some source =>
      simp only [catalogFor]
      by_cases hextras : defaults.extraItems.isEmpty = true
      · rw [if_pos hextras]
        exact Takes.idle (takes_pure kind enough none) le_rfl _
      · rw [if_neg hextras]
        exact takes_bind_silent source.fetch_takes fun catalog => takes_pure kind enough (some catalog)

namespace Machine

variable {m : Machine Rat}

/-- The record of a stage takes no time. -/
theorem stage_takes {d : Rat} {plan : Plan} {action : Run Rat α} (s : Stage)
    (haction : action.Satisfies (Takes kind enough d plan)) :
    (m.stage s action).Satisfies (Takes kind enough d plan) := by
  rw [stage_eq]
  refine takes_attempt haction fun r w => ?_
  cases r with
  | ok a =>
      rw [record_ok]
      cases w.progress.advance (.reached s) with
      | ok progress => exact ⟨rfl, Rested.of_same rfl rfl rfl, nofun⟩
      | error cause => exact ⟨rfl, Rested.refl w, nofun⟩
  | error e =>
      obtain ⟨records, hrun⟩ : ∃ records, (m.record s (.error e) : Run Rat α) w
          = (.error e, { w with progress := w.progress.stopped s e, records }) :=
        m.record_error s e w
      rw [hrun]
      exact ⟨rfl, Rested.of_same rfl rfl rfl, id⟩

theorem prepare_takes (template : Template) (combination : String) :
    (m.prepare template combination).Satisfies (Takes kind enough 0 [(.catalog, 1)]) :=
  takes_bind_silent (Selector.catalogFor_takes _ _) fun _ => takes_ofFault kind enough _

theorem place_takes (template : Template) (order : Order) :
    (m.place template order).Satisfies (Takes kind enough 0 [(.order, 1)]) := by
  refine takes_silent_bind (takes_log kind enough _) (fun _ => ?_) le_rfl
  refine takes_bind_silent (stage_takes _ (takes_call (.order order) enough)) fun receipt => ?_
  cases receipt with
  | none => exact takes_pure kind enough none
  | some r => exact takes_of_silent kind enough fun w => ⟨rfl, Rested.of_same rfl rfl rfl, nofun⟩

theorem handOver_takes (combination : String) (node final : Node) :
    (m.handOver combination node final).Satisfies (Takes kind enough 0 []) := by
  refine takes_silent_bind (takes_of_silent kind enough fun w => ⟨rfl, Rested.refl w, nofun⟩)
    (fun progress => ?_) le_rfl
  refine takes_silent_bind (takes_log kind enough _) (fun _ => ?_) le_rfl
  cases final.passwords with
  | nil => exact takes_fail kind enough nofun
  | cons credentials more => exact takes_pure kind enough _

/-! ## Looking again and again -/

/-- The node of an order is looked for in one call or two. -/
theorem locate_takes (template : Template) (orderId : Value) :
    (m.locate template orderId).Satisfies (Takes m.kind enough 0 [(.approval, 1)]) := by
  unfold locate
  by_cases hstatus : (!orderId.isNull && m.requiresApproval) = true
  · rw [if_pos hstatus]
    -- Nodes are listed only for an order that is approved, and both calls belong to one look.
    have hlisting : ∀ status : Value,
        (if status.same (.text "APPROVED") then m.findNode template else pure none).Satisfies
          fun w made r w' => Rested 0 w w' ∧ Run.Ended made r
            ∧ Look.approval.Admits m.kind (.getBillingOrderStatus orderId :: made.map Exchange.call) := by
      intro status
      by_cases happroved : status.same (.text "APPROVED") = true
      · rw [if_pos happroved]
        refine ((Run.call_rested _).bind fun nodes => Run.satisfies_pure _).mono ?_
        intro w made r w' h
        cases h with
        | failed first =>
            obtain ⟨rfl, hrested⟩ := first
            exact ⟨hrested, (Run.ended_single _ _).error, .approved orderId⟩
        | went first second =>
            obtain ⟨rfl, hrested⟩ := first
            obtain ⟨rfl, rfl, rfl⟩ := second
            exact ⟨hrested, nofun, .approved orderId⟩
      · rw [if_neg happroved]
        exact fun w => ⟨[], rfl, Rested.refl w, nofun, .waiting orderId⟩
    refine ((Run.call_rested _).bind hlisting).mono ?_
    intro w made r w' h _
    cases h with
    | failed first =>
        obtain ⟨rfl, hrested⟩ := first
        exact ⟨hrested, Plan.covers_single.mpr (Look.Admits.waiting orderId).rounds,
          (Run.ended_single _ _).error⟩
    | went first second =>
        obtain ⟨rfl, hrested⟩ := first
        obtain ⟨hrested', hended, hadmits⟩ := second
        exact ⟨(hrested.trans hrested').mono (add_zero 0).le,
          Plan.covers_single.mpr hadmits.rounds, hended.after _⟩
  · rw [if_neg hstatus]
    exact takes_bind_silent (takes_call .listing enough) fun nodes => takes_pure m.kind enough _

theorem checkIdle_takes (node : Int) (hostname : Value) :
    (m.checkIdle node hostname).Satisfies (Takes m.kind enough 0 [(.transaction, 1)]) := by
  refine takes_bind_silent (takes_call (.transaction node) enough) fun seen => ?_
  exact takes_silent_bind (takes_observe m.kind m.kind enough node hostname seen)
    (fun idle => takes_pure m.kind enough _) le_rfl

theorem reachableNode_takes (node : Int) (template : Template) :
    (m.reachableNode node template).Satisfies (Takes m.kind enough 0 [(.node, 1)]) :=
  takes_bind_silent (takes_call (.node node) enough) fun _ => takes_pure m.kind enough _

theorem confirm_takes (node : Int) (template : Template) :
    (m.confirm node template).Satisfies (Takes m.kind enough 0 [(.node, 1)]) := by
  refine takes_bind_silent (reachableNode_takes node template) fun found => ?_
  cases found with
  | some final => exact takes_pure m.kind enough final
  | none => exact takes_fail m.kind enough nofun

theorem checkHalted_takes (node : Int) :
    (m.checkHalted node).Satisfies (Takes m.kind enough 0 [(.node, 1)]) :=
  takes_bind_silent (takes_call (.node node) enough) fun _ => takes_pure m.kind enough _

/-! ## Waits -/

section Waits

variable (hp : m.policies.Lasting)
include hp

theorem awaitOrder_takes (template : Template) (receipt : Option Receipt) :
    (m.awaitOrder template receipt).Satisfies (Takes m.kind m.policies.checks
      m.policies.orderApproved.timeout [(.approval, m.policies.orderApproved.checks)]) := by
  have henough : m.policies.orderApproved.checks ≤ m.policies.checks :=
    StagePolicies.le_checks (by simp [StagePolicies.all])
  unfold awaitOrder
  cases receipt.bind (·.nodes.head?) with
  | some node => exact Takes.idle (takes_pure m.kind _ node) hp.orderApproved.timeout_pos.le _
  | none =>
      exact takes_warned (await_takes hp.orderApproved (locate_takes template _) henough _ _ _)
        hp.orderApproved.timeout_pos.le

theorem awaitStarted_takes (node : Int) (hostname : Value) :
    (m.awaitStarted node hostname).Satisfies (Takes m.kind m.policies.checks
      m.policies.transactionsStarted.timeout
      [(.transaction, m.policies.transactionsStarted.checks)]) := by
  have henough : m.policies.transactionsStarted.checks ≤ m.policies.checks :=
    StagePolicies.le_checks (by simp [StagePolicies.all])
  refine takes_bind_silent (await_takes hp.transactionsStarted
    (takes_call (.transaction node) 0) henough _ _ _) fun transaction => ?_
  exact takes_silent_bind (takes_observe m.kind m.kind _ node hostname (some transaction))
    (fun _ => takes_pure m.kind _ transaction) le_rfl

theorem awaitEnded_takes (node : Int) (hostname : Value) :
    (m.awaitEnded node hostname).Satisfies (Takes m.kind m.policies.checks
      m.policies.transactionsEnded.timeout
      [(.transaction, m.policies.transactionsEnded.checks)]) := by
  have henough : m.policies.transactionsEnded.checks ≤ m.policies.checks :=
    StagePolicies.le_checks (by simp [StagePolicies.all])
  refine takes_attempt (await_takes hp.transactionsEnded
    (checkIdle_takes node hostname) henough _ _ _) fun r w => ?_
  exact ⟨Run.setTracker_exchanges w m.kind _, rested_setTracker w m.kind _, id⟩

theorem awaitLogin_takes (node : Int) (template : Template) :
    (m.awaitLogin node template).Satisfies (Takes m.kind m.policies.checks
      m.policies.loginReady.timeout [(.node, m.policies.loginReady.checks)]) :=
  await_takes hp.loginReady (reachableNode_takes node template)
    (StagePolicies.le_checks (by simp [StagePolicies.all])) _ _ _

theorem powerOff_takes (node : Node) :
    (m.powerOff node).Satisfies (Takes m.kind m.policies.checks m.policies.poweredOff.timeout
      [(.powerOff, 1), (.node, m.policies.poweredOff.checks)]) :=
  takes_bind (takes_call (.powerOff node.id) _)
    (fun _ => await_takes hp.poweredOff (checkHalted_takes node.id)
      (StagePolicies.le_checks (by simp [StagePolicies.all])) _ _ _)
    hp.poweredOff.timeout_pos.le (zero_add _).le rfl

/-! ## From the order to the node, and to its end -/

theorem approve_takes (template : Template) (receipt : Option Receipt) :
    (m.approve template receipt).Satisfies (Takes m.kind m.policies.checks
      m.policies.orderApproved.timeout [(.approval, m.policies.orderApproved.checks)]) :=
  takes_bind_silent (stage_takes _ (awaitOrder_takes hp template receipt)) fun _ =>
    takes_of_silent m.kind _ fun _ => ⟨rfl, Rested.of_same rfl rfl rfl, nofun⟩

theorem follow_takes (template : Template) (node : Node) :
    (m.follow template node).Satisfies (Takes m.kind m.policies.checks
      (m.policies.transactionsStarted.timeout + (m.policies.transactionsEnded.timeout
        + (m.policies.loginReady.timeout + 0)))
      [(.transaction, m.policies.transactionsStarted.checks),
        (.transaction, m.policies.transactionsEnded.checks),
        (.node, m.policies.loginReady.checks), (.node, 1)]) := by
  have hlogin := hp.loginReady.timeout_pos.le
  have hended := hp.transactionsEnded.timeout_pos.le
  refine takes_bind (stage_takes _ (awaitStarted_takes hp node.id _)) (fun _ => ?_) (by linarith)
    le_rfl rfl
  refine takes_bind (stage_takes _ (awaitEnded_takes hp node.id _)) (fun _ => ?_) (by linarith)
    le_rfl rfl
  exact takes_bind (stage_takes _ (awaitLogin_takes hp node.id template))
    (fun _ => stage_takes _ (confirm_takes node.id template)) le_rfl le_rfl rfl

theorem provision_takes (template : Template) (combination : String)
    (progress : Option Progress) :
    (m.provision template combination progress).Satisfies (Takes m.kind m.policies.checks
      (m.policies.orderApproved.timeout + m.policies.transactionsStarted.timeout
        + m.policies.transactionsEnded.timeout + m.policies.loginReady.timeout)
      [(.catalog, 1), (.order, 1), (.approval, m.policies.orderApproved.checks),
        (.transaction, m.policies.transactionsStarted.checks),
        (.transaction, m.policies.transactionsEnded.checks),
        (.node, m.policies.loginReady.checks), (.node, 1)]) := by
  have happroved := hp.orderApproved.timeout_pos.le
  have hstarted := hp.transactionsStarted.timeout_pos.le
  have hended := hp.transactionsEnded.timeout_pos.le
  have hlogin := hp.loginReady.timeout_pos.le
  have htotal := add_nonneg (add_nonneg (add_nonneg happroved hstarted) hended) hlogin
  have hfollow := fun node => takes_bind_silent (follow_takes hp template node) fun final =>
    handOver_takes (m := m) combination node final
  refine takes_silent_bind (takes_update m.kind _ fun _ => ⟨rfl, Rested.of_same rfl rfl rfl⟩)
    (fun _ => ?_) htotal
  refine takes_bind (prepare_takes template combination) (fun order => ?_) htotal
    (zero_add _).le rfl
  refine takes_bind (place_takes template order) (fun receipt => ?_) htotal (zero_add _).le rfl
  refine takes_bind (approve_takes hp template receipt) hfollow ?_ ?_ rfl
  · linarith
  · linarith

theorem cancel_takes (id : Int) (node : Node) :
    (m.cancel id node).Satisfies (Takes m.kind m.policies.checks
      (m.policies.transactionsStarted.timeout + m.policies.transactionsEnded.timeout)
      [(.cancellation, 1), (.transaction, m.policies.transactionsStarted.checks),
        (.transaction, m.policies.transactionsEnded.checks)]) := by
  have hstarted := hp.transactionsStarted.timeout_pos.le
  have hended := hp.transactionsEnded.timeout_pos.le
  refine takes_silent_bind (takes_log m.kind _ _) (fun _ => ?_) (add_nonneg hstarted hended)
  refine takes_bind (takes_call (.cancellation node.billingItem) _) (fun _ => ?_)
    (add_nonneg hstarted hended) (zero_add _).le rfl
  refine takes_bind (awaitStarted_takes hp node.id node.hostname) (fun _ => ?_) hended le_rfl rfl
  exact takes_bind_silent (awaitEnded_takes hp node.id node.hostname) fun _ =>
    takes_pure m.kind _ true

theorem destroy_takes (id : Int) :
    (m.destroy id).Satisfies (Takes m.kind m.policies.checks
      ((if m.powerOffFirst then m.policies.poweredOff.timeout else 0)
        + (m.policies.transactionsStarted.timeout + m.policies.transactionsEnded.timeout))
      ((.node, 1) :: (if m.powerOffFirst then
          [(.powerOff, 1), (.node, m.policies.poweredOff.checks)] else [])
        ++ [(.cancellation, 1), (.transaction, m.policies.transactionsStarted.checks),
          (.transaction, m.policies.transactionsEnded.checks)])) := by
  have hstarted := hp.transactionsStarted.timeout_pos.le
  have hended := hp.transactionsEnded.timeout_pos.le
  have hwaits := add_nonneg hstarted hended
  have hpower : (0 : Rat) ≤ if m.powerOffFirst then m.policies.poweredOff.timeout else 0 := by
    by_cases hpowerOff : m.powerOffFirst = true
    · rw [if_pos hpowerOff]
      exact hp.poweredOff.timeout_pos.le
    · rw [if_neg hpowerOff]
  have htotal := add_nonneg hpower hwaits
  refine takes_bind (takes_call (.node id) _) (fun found => ?_) htotal (zero_add _).le rfl
  cases found with
  | none =>
      exact Takes.idle (takes_silent_bind (takes_log m.kind _ _)
        (fun _ => takes_pure m.kind _ true) le_rfl) htotal _
  | some node =>
      simp only
      by_cases hbilled : (!node.isBilled) = true
      · rw [if_pos hbilled]
        exact Takes.idle (takes_silent_bind (takes_log m.kind _ _)
          (fun _ => takes_pure m.kind _ true) le_rfl) htotal _
      · rw [if_neg hbilled]
        by_cases hpowerOff : m.powerOffFirst = true
        · rw [if_pos hpowerOff, if_pos hpowerOff, if_pos hpowerOff]
          exact takes_bind (powerOff_takes hp node) (fun _ => cancel_takes hp id node) hwaits le_rfl
            rfl
        · rw [if_neg hpowerOff, if_neg hpowerOff, if_neg hpowerOff]
          exact Takes.mono (cancel_takes hp id node) le_rfl (zero_add _).ge

end Waits

/-- Nodes can be provisioned and destroyed in bounded time, whatever the remote side does. Both end
by themselves, sleep for the timeouts of their waits at most, and check a condition no more often
than its policy leaves time for. -/
structure Bounded (m : Machine Rat) (kind : NodeKind) (p : StagePolicies Rat)
    (powerOffFirst : Bool) : Prop where
  provision : ∀ template combination progress,
    (m.provision template combination progress).Satisfies (Takes kind p.checks
      (p.orderApproved.timeout + p.transactionsStarted.timeout + p.transactionsEnded.timeout
        + p.loginReady.timeout)
      [(.catalog, 1), (.order, 1), (.approval, p.orderApproved.checks),
        (.transaction, p.transactionsStarted.checks), (.transaction, p.transactionsEnded.checks),
        (.node, p.loginReady.checks), (.node, 1)])
  destroy : ∀ id, (m.destroy id).Satisfies (Takes kind p.checks
    ((if powerOffFirst then p.poweredOff.timeout else 0)
      + (p.transactionsStarted.timeout + p.transactionsEnded.timeout))
    ((.node, 1) :: (if powerOffFirst then
        [(.powerOff, 1), (.node, p.poweredOff.checks)] else [])
      ++ [(.cancellation, 1), (.transaction, p.transactionsStarted.checks),
        (.transaction, p.transactionsEnded.checks)]))

end Machine

/-! ## Supported families -/

end Provision
