import Provision.Proofs.Catalogs
import Provision.Proofs.Decommissioning

/-!
# Indifference

What a run does not look at makes no difference to it. Two worlds are alike if
they differ at most in what is logged and what is tracked, and if their remote
sides, with the calls made so far, count as the same. A run is `Indifferent` if
in alike worlds it gives the same result and leaves alike worlds behind.

There is again one rule for every way to build a run. What the worlds have in
common of the remote side is a parameter: all that matters is which calls keep
it (`Pairing.Keeps`). Provisioning and destroying keep the trackers up to date,
but nothing that they do depends on them.
-/

namespace Provision

variable {τ α β : Type}

/-- When two remote sides, with the calls made to each of them, count as the same. -/
abbrev Pairing (τ : Type) : Type 1 :=
  Remote τ → List (Exchange τ) → Remote τ → List (Exchange τ) → Prop

/-- The call is answered in the same way on both sides, and they still count as the same. -/
def Pairing.Keeps (S : Pairing τ) (c : Call) : Prop :=
  ∀ r made r' made', S r made r' made' →
    (r'.answer c).1 = (r.answer c).1
      ∧ S (r.answer c).2 (⟨c, (r.answer c).1⟩ :: made)
        (r'.answer c).2 (⟨c, (r'.answer c).1⟩ :: made')

/-- The call succeeds on both sides or fails in the same way, and they still count as the same. -/
def Pairing.Tolerates (S : Pairing τ) (c : Call) : Prop :=
  ∀ r made r' made', S r made r' made' →
    (r'.answer c).1.map (fun _ => ()) = (r.answer c).1.map (fun _ => ())
      ∧ S (r.answer c).2 (⟨c, (r.answer c).1⟩ :: made)
        (r'.answer c).2 (⟨c, (r'.answer c).1⟩ :: made')

/-- Worlds that differ in what is logged and tracked only, but for a pairing of the remote sides. -/
structure World.Alike (S : Pairing τ) (w w' : World τ) : Prop where
  remote : S w.remote w.exchanges w'.remote w'.exchanges
  clock : w'.clock = w.clock
  sleeps : w'.sleeps = w.sleeps
  cache : w'.cache = w.cache
  progress : w'.progress = w.progress
  patience : w'.patience = w.patience

namespace Run

/-- In worlds that are alike the run does the same. -/
def Indifferent (S : Pairing τ) (x : Run τ α) : Prop :=
  ∀ w w', w.Alike S w' → (x w').1 = (x w).1 ∧ (x w).2.Alike S (x w').2

section Rules

variable {S : Pairing τ}

theorem indifferent_pure (a : α) : Indifferent S (pure a) := fun _ _ h => ⟨rfl, h⟩

theorem indifferent_fail (e : Failure τ) : Indifferent S (fail e : Run τ α) :=
  fun _ _ h => ⟨rfl, h⟩

theorem indifferent_ofExcept (x : Except (Failure τ) α) : Indifferent S (ofExcept x) := by
  cases x with
  | ok a => exact indifferent_pure a
  | error e => exact indifferent_fail e

theorem indifferent_ofFault (x : Except Fault α) : Indifferent S (ofFault x) := by
  cases x with
  | ok a => exact indifferent_pure a
  | error f => exact indifferent_fail (.fault f)

theorem indifferent_read {f : World τ → α} (hf : ∀ w w', w.Alike S w' → f w' = f w) :
    Indifferent S (read f) :=
  fun w w' h => ⟨congrArg Except.ok (hf w w' h), h⟩

theorem indifferent_update {f : World τ → World τ}
    (hf : ∀ w w', w.Alike S w' → (f w).Alike S (f w')) : Indifferent S (update f) :=
  fun w w' h => ⟨rfl, hf w w' h⟩

theorem indifferent_log (record : Log.Record) : Indifferent S (log record) :=
  indifferent_update fun _ _ h => ⟨h.remote, h.clock, h.sleeps, h.cache, h.progress, h.patience⟩

theorem indifferent_call {c : Call} (hc : S.Keeps c) : Indifferent S (call c) := by
  intro w w' h
  obtain ⟨hreply, hremote⟩ := hc _ _ _ _ h.remote
  exact ⟨hreply, hremote, h.clock, h.sleeps, h.cache, h.progress, h.patience⟩

namespace Indifferent

theorem ite {c : Prop} [Decidable c] {x y : Run τ α} (hx : Indifferent S x)
    (hy : Indifferent S y) : Indifferent S (if c then x else y) := by
  by_cases hc : c
  · rw [if_pos hc]
    exact hx
  · rw [if_neg hc]
    exact hy

theorem attempt {x : Run τ α} {f : Except (Failure τ) α → Run τ β} (hx : Indifferent S x)
    (hf : ∀ r, Indifferent S (f r)) : Indifferent S (Run.attempt x f) := by
  intro w w' h
  obtain ⟨hresult, halike⟩ := hx w w' h
  have hrun : Run.attempt x f w' = f (x w).1 (x w').2 := by
    rw [← hresult]
    rfl
  rw [hrun]
  exact hf (x w).1 _ _ halike

theorem bind {x : Run τ α} {f : α → Run τ β} (hx : Indifferent S x)
    (hf : ∀ a, Indifferent S (f a)) : Indifferent S (x >>= f) := by
  rw [bind_eq_attempt]
  refine hx.attempt fun r => ?_
  cases r with
  | ok a => exact hf a
  | error e => exact indifferent_fail e

theorem ensuring {x : Run τ α} {after : Run τ Unit} (hx : Indifferent S x)
    (hafter : Indifferent S after) : Indifferent S (Run.ensuring x after) :=
  hx.attempt fun _ w w' h => ⟨rfl, (hafter w w' h).2⟩

end Indifferent

/-- Where nothing is done with the answer but to go on, it may be a different one. -/
theorem indifferent_call_then {c : Call} (hc : S.Tolerates c) {x : Run τ α}
    (hx : Indifferent S x) : Indifferent S (call c >>= fun _ => x) := by
  intro w w' h
  obtain ⟨hreply, hremote⟩ := hc _ _ _ _ h.remote
  have halike : (call c w).2.Alike S (call c w').2 :=
    ⟨hremote, h.clock, h.sleeps, h.cache, h.progress, h.patience⟩
  cases hfirst : (w.remote.answer c).1 with
  | error e =>
      cases hsecond : (w'.remote.answer c).1 with
      | error e' =>
          rw [hfirst, hsecond] at hreply
          cases hreply
          have hrun : call c w = (.error e, (call c w).2) := Prod.ext hfirst rfl
          have hrun' : call c w' = (.error e, (call c w').2) := Prod.ext hsecond rfl
          rw [bind_of_error hrun, bind_of_error hrun']
          exact ⟨rfl, halike⟩
      | ok a' =>
          rw [hfirst, hsecond] at hreply
          cases hreply
  | ok a =>
      cases hsecond : (w'.remote.answer c).1 with
      | error e' =>
          rw [hfirst, hsecond] at hreply
          cases hreply
      | ok a' =>
          have hrun : call c w = (.ok a, (call c w).2) := Prod.ext hfirst rfl
          have hrun' : call c w' = (.ok a', (call c w').2) := Prod.ext hsecond rfl
          rw [bind_of_ok hrun, bind_of_ok hrun']
          exact hx _ _ halike

/-! ## Tracking -/

theorem alike_setTracker {w w' : World τ} (h : w.Alike S w') (kind : NodeKind) (t t' : Tracker) :
    (w.setTracker kind t).Alike S (w'.setTracker kind t') := by
  cases kind <;> exact ⟨h.remote, h.clock, h.sleeps, h.cache, h.progress, h.patience⟩

theorem indifferent_forget (kind : NodeKind) (node : Int) : Indifferent S (forget kind node) :=
  indifferent_update fun _ _ h => alike_setTracker h kind _ _

/-- Whether the node is idle is plain from the observation itself. -/
theorem indifferent_observe (kind : NodeKind) (node : Int) (hostname : Value)
    (seen : Option Transaction) : Indifferent S (observe kind node hostname seen) := by
  intro w w' h
  have halike := alike_setTracker h kind ((w.tracker kind).observe node hostname seen).1
    ((w'.tracker kind).observe node hostname seen).1
  exact ⟨rfl, halike.remote, halike.clock, halike.sleeps, halike.cache, halike.progress,
    halike.patience⟩

/-! ## Waiting -/

variable [Duration τ]

theorem indifferent_pollFrom {check : Run τ (Option α)} (hcheck : Indifferent S check)
    (stage : String) (policy : StagePolicy τ) (subject : Value) (started : τ)
    (patience done : Nat) (interval : τ) :
    Indifferent S (pollFrom check stage policy subject started patience done interval) := by
  induction patience generalizing done interval with
  | zero => exact indifferent_fail .unfinished
  | succ patience ih =>
      rw [pollFrom_succ]
      refine hcheck.bind fun found => ?_
      cases found with
      | some a => exact (indifferent_log _).bind fun _ => indifferent_pure a
      | none =>
          intro w w' h
          rw [pollNext_none_eq, pollNext_none_eq, h.clock]
          by_cases htime : Duration.atMost policy.timeout (Duration.sub w.clock started) = true
          · rw [if_pos htime, if_pos htime]
            exact ⟨rfl, h⟩
          · rw [if_neg htime, if_neg htime]
            exact ih _ _ _ _ ⟨h.remote, rfl, congrArg (List.cons _) h.sleeps, h.cache, h.progress,
              h.patience⟩

theorem indifferent_pollUntil {check : Run τ (Option α)} (hcheck : Indifferent S check)
    (stage : String) (policy : StagePolicy τ) (subject : Value) :
    Indifferent S (pollUntil check stage policy subject) := by
  intro w w' h
  have hpoll := indifferent_pollFrom hcheck stage policy subject w.clock w.patience 0
    policy.interval w w' h
  rw [show pollUntil check stage policy subject w'
      = pollFrom check stage policy subject w.clock w.patience 0 policy.interval w' by
    rw [← h.clock, ← h.patience]
    rfl]
  exact hpoll

theorem indifferent_await {check : Run τ (Option α)} (hcheck : Indifferent S check)
    (stage : String) (policy : StagePolicy τ) (subject : Value) (wording : String) :
    Indifferent S (Machine.await check stage policy subject wording) := by
  rw [await_eq]
  exact (indifferent_pollUntil hcheck stage policy subject).attempt fun _ => indifferent_ofExcept _

end Rules

end Run

/-! ## Catalogs -/

section Catalogs

open Run

variable {S : Pairing τ}

theorem load_indifferent (hS : ∀ c : Call, c.cancelled? = none → S.Keeps c) (family : Int)
    (session : String) : Indifferent S (load family session) := by
  refine (indifferent_log _).bind fun _ => ?_
  refine (indifferent_call (hS _ rfl)).bind fun items => ?_
  refine (indifferent_ofFault _).bind fun catalog => ?_
  refine (indifferent_log _).bind fun _ => ?_
  refine (indifferent_read fun _ _ h => h.cache).bind fun cache => ?_
  refine Indifferent.bind ?_ fun _ => indifferent_pure _
  exact indifferent_update fun _ _ h =>
    ⟨h.remote, h.clock, h.sleeps, rfl, h.progress, h.patience⟩

theorem CatalogSource.fetch_indifferent (hS : ∀ c : Call, c.cancelled? = none → S.Keeps c)
    (source : CatalogSource) : Indifferent S source.fetch := by
  cases source with
  | given catalog => exact indifferent_pure catalog
  | cached family session =>
      refine Indifferent.bind (fun w w' h => ?_) fun entry => indifferent_pure entry.catalog
      rw [cachedCatalog_eq, cachedCatalog_eq, h.cache]
      cases w.cache.find? family session with
      | some entry => exact ⟨rfl, h⟩
      | none => exact load_indifferent hS family session w w' h

theorem Selector.catalogFor_indifferent (hS : ∀ c : Call, c.cancelled? = none → S.Keeps c)
    (defaults : OrderDefaults) (source : Option CatalogSource) :
    Indifferent S (catalogFor defaults source) := by
  cases source with
  | none => exact indifferent_pure none
  | some source =>
      refine .ite (indifferent_pure none) ?_
      exact (source.fetch_indifferent hS).bind fun catalog => indifferent_pure (some catalog)

end Catalogs

/-! ## The life of a node -/

namespace Machine

open Run

variable {S : Pairing τ} (hS : ∀ c : Call, c.cancelled? = none → S.Keeps c) (m : Machine τ)
include hS

theorem findNode_indifferent (template : Template) : Indifferent S (m.findNode template) :=
  (indifferent_call (hS _ rfl)).bind fun _ => indifferent_pure _

theorem locate_indifferent (template : Template) (orderId : Value) :
    Indifferent S (m.locate template orderId) := by
  refine .ite ?_ (m.findNode_indifferent hS template)
  refine (indifferent_call (hS _ rfl)).bind fun status => ?_
  exact .ite (m.findNode_indifferent hS template) (indifferent_pure none)

theorem checkIdle_indifferent (node : Int) (hostname : Value) :
    Indifferent S (m.checkIdle node hostname) := by
  refine (indifferent_call (hS _ rfl)).bind fun seen => ?_
  exact (indifferent_observe _ _ _ _).bind fun idle => indifferent_pure _

theorem reachableNode_indifferent (node : Int) (template : Template) :
    Indifferent S (m.reachableNode node template) :=
  (indifferent_call (hS _ rfl)).bind fun _ => indifferent_pure _

theorem checkHalted_indifferent (node : Int) : Indifferent S (m.checkHalted node) :=
  (indifferent_call (hS _ rfl)).bind fun _ => indifferent_pure _

theorem confirm_indifferent (node : Int) (template : Template) :
    Indifferent S (m.confirm node template) := by
  refine (m.reachableNode_indifferent hS node template).bind fun found => ?_
  cases found with
  | some final => exact indifferent_pure final
  | none => exact indifferent_fail _

variable [Duration τ]

theorem awaitOrder_indifferent (template : Template) (receipt : Option Receipt) :
    Indifferent S (m.awaitOrder template receipt) := by
  unfold awaitOrder
  cases receipt.bind (·.nodes.head?) with
  | some node => exact indifferent_pure node
  | none =>
      have hwait := fun id => indifferent_await (m.locate_indifferent hS template id)
        Stage.orderApproved.name m.policies.orderApproved (.text template.hostname)
        s!"order for host {template.hostname} did not finish within configured delay"
      exact .ite ((indifferent_log _).bind fun _ => hwait _) (hwait _)

theorem awaitStarted_indifferent (node : Int) (hostname : Value) :
    Indifferent S (m.awaitStarted node hostname) := by
  refine (indifferent_await (indifferent_call (hS _ rfl)) _ _ _ _).bind fun transaction => ?_
  exact (indifferent_observe _ _ _ _).bind fun _ => indifferent_pure transaction

theorem awaitEnded_indifferent (node : Int) (hostname : Value) :
    Indifferent S (m.awaitEnded node hostname) :=
  (indifferent_await (m.checkIdle_indifferent hS node hostname) _ _ _ _).ensuring
    (indifferent_forget m.kind node)

theorem awaitLogin_indifferent (node : Int) (template : Template) :
    Indifferent S (m.awaitLogin node template) :=
  indifferent_await (m.reachableNode_indifferent hS node template) _ _ _ _

omit hS in
theorem stage_indifferent (s : Stage) {action : Run τ α} (haction : Indifferent S action) :
    Indifferent S (m.stage s action) := by
  rw [stage_eq]
  refine haction.attempt fun r w w' h => ?_
  cases r with
  | error e =>
      obtain ⟨records, hrun⟩ : ∃ records, (m.record s (.error e) : Run τ α) w
          = (.error e, { w with progress := w.progress.stopped s e, records }) :=
        m.record_error s e w
      obtain ⟨records', hrun'⟩ : ∃ records, (m.record s (.error e) : Run τ α) w'
          = (.error e, { w' with progress := w'.progress.stopped s e, records }) :=
        m.record_error s e w'
      rw [hrun, hrun', h.progress]
      exact ⟨rfl, h.remote, h.clock, h.sleeps, h.cache, rfl, h.patience⟩
  | ok a =>
      rw [record_ok, record_ok, h.progress]
      cases w.progress.advance (.reached s) with
      | ok progress => exact ⟨rfl, h.remote, h.clock, h.sleeps, h.cache, rfl, h.patience⟩
      | error cause => exact ⟨rfl, h⟩

theorem place_indifferent (template : Template) (order : Order) :
    Indifferent S (m.place template order) := by
  refine (indifferent_log _).bind fun _ => ?_
  refine (m.stage_indifferent .orderPlaced (indifferent_call (hS _ rfl))).bind fun receipt => ?_
  cases receipt with
  | none => exact indifferent_pure none
  | some r =>
      refine Indifferent.bind ?_ fun _ => indifferent_pure _
      exact indifferent_update fun _ _ h => ⟨h.remote, h.clock, h.sleeps, h.cache,
        congrArg (fun p : Progress => { p with orderId := r.orderId }) h.progress, h.patience⟩

theorem approve_indifferent (template : Template) (receipt : Option Receipt) :
    Indifferent S (m.approve template receipt) := by
  refine (m.stage_indifferent _ (m.awaitOrder_indifferent hS template receipt)).bind fun node => ?_
  refine Indifferent.bind ?_ fun _ => (indifferent_log _).bind fun _ => indifferent_pure node
  exact indifferent_update fun _ _ h => ⟨h.remote, h.clock, h.sleeps, h.cache,
    congrArg (fun p : Progress => { p with nodeId := some node.id }) h.progress, h.patience⟩

theorem follow_indifferent (template : Template) (node : Node) :
    Indifferent S (m.follow template node) := by
  refine (m.stage_indifferent _ (m.awaitStarted_indifferent hS node.id _)).bind fun _ => ?_
  refine (m.stage_indifferent _ (m.awaitEnded_indifferent hS node.id _)).bind fun _ => ?_
  refine (m.stage_indifferent _ (m.awaitLogin_indifferent hS node.id template)).bind fun _ => ?_
  exact m.stage_indifferent _ (m.confirm_indifferent hS node.id template)

omit hS [Duration τ] in
theorem handOver_indifferent (combination : String) (node final : Node) :
    Indifferent S (m.handOver combination node final) := by
  refine (indifferent_read fun _ _ h => h.progress).bind fun progress => ?_
  refine (indifferent_log _).bind fun _ => ?_
  cases final.passwords with
  | nil => exact indifferent_fail _
  | cons credentials more => exact indifferent_pure _

theorem provision_indifferent (template : Template) (combination : String)
    (progress : Option Progress) : Indifferent S (m.provision template combination progress) := by
  refine Indifferent.bind (indifferent_update fun _ _ h =>
    ⟨h.remote, h.clock, h.sleeps, h.cache, rfl, h.patience⟩) fun _ => ?_
  refine Indifferent.bind ?_ fun order => ?_
  · exact (Selector.catalogFor_indifferent hS _ _).bind fun _ => indifferent_ofFault _
  refine (m.place_indifferent hS template order).bind fun receipt => ?_
  refine (m.approve_indifferent hS template receipt).bind fun node => ?_
  refine (m.follow_indifferent hS template node).bind fun final => ?_
  exact m.handOver_indifferent combination node final

theorem powerOff_indifferent (node : Node) : Indifferent S (m.powerOff node) :=
  (indifferent_call (hS _ rfl)).bind fun _ =>
    indifferent_await (m.checkHalted_indifferent hS node.id) _ _ _ _

/-- Destroying a node makes no use of what the cancellation is answered with. -/
theorem destroy_indifferent (hcancel : ∀ item, S.Tolerates (.cancelBillingItem item)) (id : Int) :
    Indifferent S (m.destroy id) := by
  refine (indifferent_call (hS _ rfl)).bind fun found => ?_
  cases found with
  | none => exact (indifferent_log _).bind fun _ => indifferent_pure true
  | some node =>
      have hdispose : Indifferent S (m.cancel id node) := by
        refine (indifferent_log _).bind fun _ => indifferent_call_then (hcancel _) ?_
        refine (m.awaitStarted_indifferent hS node.id node.hostname).bind fun _ => ?_
        exact (m.awaitEnded_indifferent hS node.id node.hostname).bind fun _ =>
          indifferent_pure true
      refine .ite ((indifferent_log _).bind fun _ => indifferent_pure true) (.ite ?_ hdispose)
      exact (m.powerOff_indifferent hS node).bind fun _ => hdispose

end Machine

end Provision
