import Provision.Proofs.Stages

/-!
# Operations of a machine

All that a machine does is made of a few things: calls about nodes and about
the status of orders, notes in the progress record and in the trackers, and
waiting. Only the placing of an order and what precedes it go beyond that. So a
frame that bears these few things is kept by all stages of a machine, and so by
whole operations. That no order is placed is one such frame.

A run is `Calm` but for some calls if those are all that it makes beside the
plain ones, and if it leaves the cache as it was.

Where a frame is kept only under a condition, the run before has to see to it:
a run `Achieves` a condition if it does so whenever it succeeds, and keeps the
frame in any case.
-/

namespace Provision

variable {τ α : Type}

/-- A call that is neither for a catalog nor with an order. -/
def Call.isPlain : Call → Bool
  | listCatalogItems _ | verifyOrder _ | placeOrder _ => false
  | _ => true

namespace Run

/-- A frame that bears plain calls and notes in the progress record. -/
structure Workable (F : Frame τ) : Prop where
  steady : Steady F
  called : ∀ {c : Call}, c.isPlain = true → (call c : Run τ c.Reply).Keeps F
  noted : ∀ w progress, F w [] { w with progress }

/-- A frame that bears notes in the trackers too. -/
structure Trackable (F : Frame τ) : Prop extends Workable F where
  tracked : ∀ w kind t, F w [] (w.setTracker kind t)

variable {F : Frame τ}

theorem Trackable.observe (hF : Trackable F) (kind : NodeKind) (node : Int) (hostname : Value)
    (seen : Option Transaction) : (Run.observe kind node hostname seen : Run τ Bool).Keeps F := by
  intro w
  refine ⟨[], setTracker_exchanges w kind _, ?_⟩
  exact hF.steady.trans (hF.tracked w kind _) (hF.steady.idle _ _ _ _)

theorem Trackable.forget (hF : Trackable F) (kind : NodeKind) (node : Int) :
    (Run.forget kind node : Run τ Unit).Keeps F :=
  fun w => ⟨[], setTracker_exchanges w kind _, hF.tracked w kind _⟩

theorem unordered_trackable : Trackable (Unordered : Frame τ) where
  steady := unordered_steady
  called {c} hc := call_unordered (by cases c <;> first | rfl | cases hc)
  noted _ _ := rfl
  tracked _ _ _ := rfl

end Run

/-! ## With a progress record -/

namespace Machine

open Run

variable {F : Frame τ} (hF : Workable F) (m : Machine τ)
include hF

theorem findNode_keeps (template : Template) : (m.findNode template).Keeps F :=
  hF.steady.bind (hF.called rfl) fun _ => hF.steady.pure _

theorem locate_keeps (template : Template) (orderId : Value) :
    (m.locate template orderId).Keeps F := by
  refine .ite ?_ (m.findNode_keeps hF template)
  exact hF.steady.bind (hF.called rfl) fun _ =>
    .ite (m.findNode_keeps hF template) (hF.steady.pure none)

theorem reachableNode_keeps (node : Int) (template : Template) :
    (m.reachableNode node template).Keeps F :=
  hF.steady.bind (hF.called rfl) fun _ => hF.steady.pure _

theorem confirm_keeps (node : Int) (template : Template) : (m.confirm node template).Keeps F := by
  refine hF.steady.bind (m.reachableNode_keeps hF node template) fun found => ?_
  cases found with
  | some final => exact hF.steady.pure final
  | none => exact hF.steady.fail _

theorem checkHalted_keeps (node : Int) : (m.checkHalted node).Keeps F :=
  hF.steady.bind (hF.called rfl) fun _ => hF.steady.pure _

theorem handOver_keeps (combination : String) (node final : Node) :
    (m.handOver combination node final).Keeps F := by
  refine hF.steady.bind (hF.steady.read _) fun _ => hF.steady.bind (hF.steady.log _) fun _ => ?_
  cases final.passwords with
  | nil => exact hF.steady.fail _
  | cons credentials more => exact hF.steady.pure _

variable [Duration τ]

theorem stage_keeps (s : Stage) {action : Run τ α} (haction : action.Keeps F) :
    (m.stage s action).Keeps F := by
  refine (m.stage_records s haction).mono ?_
  rintro w made r w' ⟨r₁, w₁, hkept, ⟨progress, records, rfl, -⟩, -⟩
  have hnoted := hF.steady.trans hkept (hF.noted w₁ progress)
  have hlogged := hF.steady.idle { w₁ with progress } records w₁.clock w₁.sleeps
  have hboth := hF.steady.trans hnoted hlogged
  rwa [List.append_nil, List.append_nil] at hboth

theorem awaitOrder_keeps (template : Template) (receipt : Option Receipt) :
    (m.awaitOrder template receipt).Keeps F := by
  unfold awaitOrder
  cases receipt.bind (·.nodes.head?) with
  | some node => exact hF.steady.pure node
  | none =>
      have hwait := fun id => await_keeps hF.steady (m.locate_keeps hF template id)
        Stage.orderApproved.name m.policies.orderApproved (.text template.hostname)
        s!"order for host {template.hostname} did not finish within configured delay"
      exact .ite (hF.steady.bind (hF.steady.log _) fun _ => hwait _) (hwait _)

theorem place_keeps (template : Template) {order : Order}
    (hplaced : (call (.placeOrder order) : Run τ _).Keeps F) :
    (m.place template order).Keeps F := by
  refine hF.steady.bind (hF.steady.log _) fun _ => ?_
  refine hF.steady.bind (m.stage_keeps hF .orderPlaced hplaced) fun receipt => ?_
  cases receipt with
  | none => exact hF.steady.pure none
  | some r =>
      exact hF.steady.bind (fun w => ⟨[], rfl, hF.noted w _⟩) fun _ => hF.steady.pure _

theorem approve_keeps (template : Template) (receipt : Option Receipt) :
    (m.approve template receipt).Keeps F := by
  have hwait := m.stage_keeps hF .orderApproved (m.awaitOrder_keeps hF template receipt)
  refine hF.steady.bind hwait fun node => ?_
  refine hF.steady.bind (fun w => ⟨[], rfl, hF.noted w _⟩) fun _ => ?_
  exact hF.steady.bind (hF.steady.log _) fun _ => hF.steady.pure node

theorem powerOff_keeps (node : Node) : (m.powerOff node).Keeps F :=
  hF.steady.bind (hF.called rfl) fun _ =>
    await_keeps hF.steady (m.checkHalted_keeps hF node.id) _ _ _ _

end Machine

/-! ## With trackers -/

namespace Machine

open Run

variable [Duration τ] {F : Frame τ} (hF : Trackable F) (m : Machine τ)
include hF

theorem awaitStarted_keeps (node : Int) (hostname : Value) :
    (m.awaitStarted node hostname).Keeps F := by
  refine hF.steady.bind (await_keeps hF.steady (hF.called rfl) _ _ _ _) fun transaction => ?_
  exact hF.steady.bind (hF.observe _ _ _ _) fun _ => hF.steady.pure transaction

theorem awaitEnded_keeps (node : Int) (hostname : Value) :
    (m.awaitEnded node hostname).Keeps F := by
  have hcheck : (m.checkIdle node hostname).Keeps F :=
    hF.steady.bind (hF.called rfl) fun _ =>
      hF.steady.bind (hF.observe _ _ _ _) fun _ => hF.steady.pure _
  have hwait := await_keeps hF.steady hcheck Stage.transactionsEnded.name
    m.policies.transactionsEnded hostname
    ("host " ++ hostname.display ++ " did not finish its transactions within configured delay")
  refine (hwait.ensuring (forget m.kind node) fun w => setTracker_exchanges w m.kind _).mono ?_
  rintro w made r w' ⟨w₁, hkept, rfl⟩
  have hboth := hF.steady.trans hkept (hF.tracked w₁ m.kind ((w₁.tracker m.kind).forget node))
  rwa [List.append_nil] at hboth

theorem follow_keeps (template : Template) (node : Node) : (m.follow template node).Keeps F := by
  have hwork := hF.toWorkable
  refine hF.steady.bind (m.stage_keeps hwork _ (m.awaitStarted_keeps hF node.id _)) fun _ => ?_
  refine hF.steady.bind (m.stage_keeps hwork _ (m.awaitEnded_keeps hF node.id _)) fun _ => ?_
  have hlogin : (m.awaitLogin node.id template).Keeps F :=
    await_keeps hF.steady (m.reachableNode_keeps hwork node.id template) _ _ _ _
  refine hF.steady.bind (m.stage_keeps hwork _ hlogin) fun _ => ?_
  exact m.stage_keeps hwork _ (m.confirm_keeps hwork node.id template)

end Machine

/-! ## Calm runs -/

namespace Run

/-- The cache is as before, and all calls made were plain or of a kind. -/
structure Calm (p : Call → Prop) (w : World τ) (made : List (Exchange τ)) (w' : World τ) :
    Prop where
  cache : w'.cache = w.cache
  calls : ∀ x ∈ made, x.call.isPlain = true ∨ p x.call

variable {p : Call → Prop}

theorem setTracker_cache (w : World τ) (kind : NodeKind) (t : Tracker) :
    (w.setTracker kind t).cache = w.cache := by
  cases kind <;> rfl

theorem calm_call {c : Call} (hc : c.isPlain = true ∨ p c) :
    (call c : Run τ c.Reply).Keeps (Calm p) := by
  refine (satisfies_call c).mono ?_
  rintro w _ r w' ⟨rfl, hkept⟩
  exact ⟨by rw [hkept], List.forall_mem_singleton.mpr hc⟩

theorem calm_trackable (p : Call → Prop) : Trackable (Calm p : Frame τ) where
  steady :=
    { idle _ _ _ _ := ⟨rfl, fun _ => nofun⟩
      trans h h' :=
        ⟨h'.cache.trans h.cache, List.forall_mem_append.mpr ⟨h.calls, h'.calls⟩⟩ }
  called hc := calm_call (.inl hc)
  noted _ _ := ⟨rfl, fun _ => nofun⟩
  tracked w kind t := ⟨setTracker_cache w kind t, fun _ => nofun⟩

/-! ## Conditions -/

/-- Where `pre` holds, the frame is kept, and if the run succeeds then `good` holds afterwards. -/
def Achieves (x : Run τ α) (F : Frame τ) (pre : World τ → Prop) (good : α → World τ → Prop) :
    Prop :=
  x.Satisfies fun w made r w' => pre w → F w made w' ∧ ∀ a, r = .ok a → good a w'

section Conditions

variable {F : Frame τ} {pre : World τ → Prop} {good : α → World τ → Prop} {x : Run τ α}

theorem Achieves.keeps (h : x.Achieves F (fun _ => True) good) : x.Keeps F :=
  Satisfies.mono h fun _ _ _ _ h => (h trivial).1

theorem Keeps.achieves (h : x.Keeps F) : x.Achieves F pre fun _ _ => True :=
  h.mono fun _ _ _ _ h _ => ⟨h, fun _ _ => trivial⟩

theorem Steady.achieves_pure (hF : Steady F) {a : α} (h : ∀ w, pre w → good a w) :
    (Pure.pure a : Run τ α).Achieves F pre good := by
  refine fun w => ⟨[], rfl, fun hpre => ⟨hF.refl w, ?_⟩⟩
  rintro _ ⟨⟩
  exact h w hpre

theorem Steady.achieves_fail (hF : Steady F) (e : Failure τ) :
    (Run.fail e : Run τ α).Achieves F pre good :=
  fun w => ⟨[], rfl, fun _ => ⟨hF.refl w, fun _ => nofun⟩⟩

theorem Steady.achieves_bind {β : Type} (hF : Steady F) {P : α → World τ → Prop}
    {Q : β → World τ → Prop} {f : α → Run τ β} (hx : x.Achieves F pre P)
    (hf : ∀ a, (f a).Achieves F (P a) Q) : (x >>= f).Achieves F pre Q := by
  refine (Satisfies.bind hx hf).mono ?_
  intro w made r w' h hpre
  cases h with
  | failed first => exact ⟨(first hpre).1, fun _ => nofun⟩
  | went first second =>
      obtain ⟨hfirst, hmid⟩ := first hpre
      obtain ⟨hsecond, hgood⟩ := second (hmid _ rfl)
      exact ⟨hF.trans hfirst hsecond, hgood⟩

end Conditions

end Run

end Provision
