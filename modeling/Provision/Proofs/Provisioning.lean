import Provision.Proofs.Catalogs
import Provision.Proofs.Gates
import Provision.Proofs.Operations

/-!
# Provisioning

The machine first makes its order, then pursues it: the order is placed, and
the stages lead from phase to phase until the node is handed over. Only the
placing of the order places one, so a run that comes that far places exactly
one, and a run that does not places none (`provision_course`).
-/

namespace Provision

variable {τ α β : Type}

namespace Machine

/-! ## Before the order and after the stages -/

theorem handOver_satisfies (m : Machine τ) (combination : String) (node final : Node) :
    (m.handOver combination node final).Satisfies fun w made r w' =>
      made = [] ∧ w'.progress = w.progress ∧
        ∀ credentials more, final.passwords = credentials :: more →
          r = .ok { node := final, credentials, combination, progress := w.progress } := by
  intro w
  cases hpasswords : final.passwords with
  | nil =>
      have hrun : (m.handOver combination node final w).2.exchanges = w.exchanges
          ∧ (m.handOver combination node final w).2.progress = w.progress := by
        simp only [handOver, hpasswords]
        exact ⟨rfl, rfl⟩
      exact ⟨[], hrun.1, rfl, hrun.2, nofun⟩
  | cons credentials more =>
      have hrun : (m.handOver combination node final w).2.exchanges = w.exchanges
          ∧ (m.handOver combination node final w).2.progress = w.progress
          ∧ (m.handOver combination node final w).1
            = .ok { node := final, credentials, combination, progress := w.progress } := by
        simp only [handOver, hpasswords]
        exact ⟨rfl, rfl, rfl⟩
      refine ⟨[], hrun.1, rfl, hrun.2.1, ?_⟩
      rintro _ _ ⟨⟩
      exact hrun.2.2

theorem prepare_keeps {F : Run.Frame τ} (hF : Run.Listing F) (m : Machine τ) (template : Template)
    (combination : String) : (m.prepare template combination).Keeps F :=
  hF.steady.bind (hF.catalogFor m.defaults m.catalog) fun _ => hF.steady.ofFault _

/-- The order for a combination is made without placing one. -/
theorem prepare_aside (m : Machine τ) (template : Template) (combination : String) :
    (m.prepare template combination).Keeps Run.Aside := by
  have hsteady := Run.aside_steady (τ := τ)
  have hcatalog : (Selector.catalogFor m.defaults m.catalog).Keeps (Run.Aside (τ := τ)) :=
    (Selector.catalogFor_satisfies m.defaults m.catalog).mono fun _ _ _ _ h => h.1
  exact hsteady.bind hcatalog fun catalog => hsteady.ofFault _

variable [Duration τ] {m : Machine τ} {template : Template} {φ : Phase} {s : Stage}

/-! ## Stages lead on -/

/-- A stage that is run in its phase does what its action does. Behind it is the next phase, for
which what is done afterwards may complete the progress record. -/
theorem stage_bind_stands {ψ : α → Phase} {P : List (Exchange τ) → Except (Failure τ) α → Prop}
    {action : Run τ α} {after : α → Run τ α} (hs : s.position = φ.position)
    (hnext : ∀ a, (ψ a).position = φ.position + 1)
    (haction : action.Satisfies fun w made r w' => w'.progress = w.progress ∧ P made r)
    (hafter : ∀ a, (after a).Satisfies fun w made r w' => made = [] ∧ r = .ok a ∧
      (w.progress.At (ψ a).position →
        (∀ node, φ.node? = some node → w.progress.nodeId = some node.id) →
        (ψ a).Stands w'.progress)) :
    (m.stage s action >>= after).Satisfies fun w made r w' => φ.Stands w.progress →
      P made r ∧ (∀ a, r = .ok a → (ψ a).Stands w'.progress) ∧
        ∀ e, r = .error e → w'.progress = w.progress.stopped s e := by
  refine ((m.stage_satisfies s haction).bind hafter).mono ?_
  intro w made r w' h hstands
  have hat : w.progress.At s.position := by
    rw [hs]
    exact hstands.at_position
  cases h with
  | failed first =>
      obtain ⟨hP, hprogress⟩ := first hat
      refine ⟨hP, fun _ => nofun, ?_⟩
      rintro _ ⟨⟩
      exact hprogress
  | went first second =>
      obtain ⟨hP, hprogress⟩ := first hat
      obtain ⟨rfl, rfl, hcomplete⟩ := second
      rw [List.append_nil]
      refine ⟨hP, ?_, fun _ => nofun⟩
      rintro _ ⟨⟩
      refine hcomplete ?_ ?_
      · rw [hprogress, hnext, ← hs]
        exact hat.entered
      · rw [hprogress]
        exact hstands.follows

/-- What comes of a stage with a gate. -/
theorem Gate.outcome {ψ : α → Phase} {goal : α → Phase → Prop} {made : List (Exchange τ)}
    {r : Except (Failure τ) α} {p p' : Progress} (h : m.Gate template s φ ψ made r)
    (hs : s.position = φ.position) (hstands : φ.Stands p)
    (hpassed : ∀ a, r = .ok a → (ψ a).Stands p')
    (hstopped : ∀ e, r = .error e → p' = p.stopped s e)
    (hgoal : ∀ a, m.Passes template φ made (ψ a) → goal a (ψ a)) :
    m.Outcome template φ goal made r p' := by
  cases h with
  | passed passes => exact .reached passes.path (hpassed _ rfl) (hgoal _ passes)
  | stopped trouble => exact .stopped (.here _) hstands hs trouble (hstopped _ rfl)

/-- A stage with a gate leads to the phase behind it. -/
theorem stage_leads {ψ : α → Phase} {goal : α → Phase → Prop} {action : Run τ α}
    (hs : s.position = φ.position) (hnext : ∀ a, (ψ a).position = φ.position + 1)
    (haction : action.Satisfies fun w made r w' =>
      Run.Aside w made w' ∧ m.Gate template s φ ψ made r)
    (hnode : ∀ a, (ψ a).node? = φ.node?)
    (hgoal : ∀ made a, m.Passes template φ made (ψ a) → goal a (ψ a)) :
    (m.stage s action).Satisfies (m.Leads template (· = φ) goal) := by
  rw [← bind_pure (m.stage s action)]
  have hpure : ∀ a, (pure a : Run τ α).Satisfies fun w made r w' => made = [] ∧ r = .ok a ∧
      (w.progress.At (ψ a).position →
        (∀ node, φ.node? = some node → w.progress.nodeId = some node.id) →
        (ψ a).Stands w'.progress) := by
    intro a w
    refine ⟨[], rfl, rfl, rfl, fun hat hfollows => ⟨hat, ?_⟩⟩
    rw [hnode a]
    exact hfollows
  refine (stage_bind_stands hs hnext
    (haction.mono fun _ _ _ _ h => ⟨h.1.progress, h.2⟩) hpure).mono ?_
  rintro w made r w' h _ rfl hstands
  obtain ⟨hgate, hpassed, hstopped⟩ := h hstands
  exact hgate.outcome hs hstands hpassed hstopped fun a => hgoal made a

/-- Placing an order is one call, and its result is what the stage gives. -/
theorem place_stands (m : Machine τ) (template : Template) (order : Order) :
    (m.place template order).Satisfies fun w made r w' => (Phase.placing order).Stands w.progress →
      made = [⟨.placeOrder order, r⟩] ∧
        (∀ receipt, r = .ok receipt → (Phase.locating receipt).Stands w'.progress) ∧
        ∀ e, r = .error e → w'.progress = w.progress.stopped .orderPlaced e := by
  have haction : (Run.call (.placeOrder order)).Satisfies fun (w : World τ) made r w' =>
      w'.progress = w.progress ∧ made = [⟨.placeOrder order, r⟩] := by
    refine (Run.satisfies_call (.placeOrder order)).mono ?_
    rintro w made r w' ⟨hmade, hw'⟩
    exact ⟨by rw [hw'], hmade⟩
  refine Run.Satisfies.logged ?_ (fun _ _ _ _ _ h => h) _
  refine stage_bind_stands rfl (fun _ => rfl) haction ?_
  intro receipt w
  cases receipt with
  | none => exact ⟨[], rfl, rfl, rfl, fun hat _ => ⟨hat, nofun⟩⟩
  | some r =>
      refine ⟨[], rfl, rfl, rfl, fun hat _ => ⟨?_, nofun⟩⟩
      exact ⟨hat.history, hat.state, hat.failedStage, hat.failureReason⟩

theorem place_leads (m : Machine τ) (template : Template) (order : Order) :
    (m.place template order).Satisfies
      (m.Leads template (· = .placing order) fun receipt => (· = .locating receipt)) := by
  refine (m.place_stands template order).mono ?_
  rintro w made r w' h _ rfl hstands
  obtain ⟨rfl, hpassed, hstopped⟩ := h hstands
  have hgate : m.Gate template .orderPlaced (.placing order) .locating
      [⟨.placeOrder order, r⟩] r := by
    cases r with
    | ok receipt => exact .passed (.placed order receipt)
    | error e => exact .stopped (.answered (failing_single _ e))
  exact hgate.outcome rfl hstands hpassed hstopped fun _ _ => rfl

theorem approve_stands (m : Machine τ) (template : Template) (receipt : Option Receipt) :
    (m.approve template receipt).Satisfies fun w made r w' =>
      (Phase.locating receipt).Stands w.progress →
        (m.Gate template .orderApproved (.locating receipt) .starting made r ∧
          ∀ known node more, receipt = some known → known.nodes = node :: more →
            made = [] ∧ r = .ok node) ∧
        (∀ node, r = .ok node → (Phase.starting node).Stands w'.progress) ∧
        ∀ e, r = .error e → w'.progress = w.progress.stopped .orderApproved e := by
  refine stage_bind_stands rfl (fun _ => rfl)
    ((m.awaitOrder_gate template receipt).and (m.awaitOrder_received template receipt) |>.mono
      fun _ _ _ _ h => ⟨h.1.1.progress, h.1.2, h.2⟩) ?_
  intro node w
  refine ⟨[], rfl, rfl, rfl, fun hat _ => ⟨?_, ?_⟩⟩
  · exact ⟨hat.history, hat.state, hat.failedStage, hat.failureReason⟩
  · rintro _ ⟨⟩
    rfl

theorem approve_leads (m : Machine τ) (template : Template) (receipt : Option Receipt) :
    (m.approve template receipt).Satisfies
      (m.Leads template (· = .locating receipt) fun node => (· = .starting node)) := by
  refine (m.approve_stands template receipt).mono ?_
  rintro w made r w' h _ rfl hstands
  obtain ⟨⟨hgate, -⟩, hpassed, hstopped⟩ := h hstands
  exact hgate.outcome rfl hstands hpassed hstopped fun _ _ => rfl

theorem follow_leads (m : Machine τ) (template : Template) (node : Node) :
    (m.follow template node).Satisfies
      (m.Leads template (· = .starting node) fun final χ =>
        χ = .ready node final ∧ final.passwords ≠ []) := by
  have hstarted : (m.stage .transactionsStarted
      (m.awaitStarted node.id (.text template.hostname))).Satisfies
        (m.Leads template (· = .starting node) fun _ => (· = .ending node)) :=
    stage_leads rfl (fun _ => rfl) (m.awaitStarted_gate template node _) (fun _ => rfl) fun _ _ _ => rfl
  have hended : (m.stage .transactionsEnded
      (m.awaitEnded node.id (.text template.hostname))).Satisfies
        (m.Leads template (· = .ending node) fun _ => (· = .loggingIn node)) :=
    stage_leads rfl (fun _ => rfl) (m.awaitEnded_gate template node _) (fun _ => rfl) fun _ _ _ => rfl
  have hlogin : (m.stage .loginReady (m.awaitLogin node.id template)).Satisfies
      (m.Leads template (· = .loggingIn node) fun _ => (· = .confirming node)) :=
    stage_leads rfl (fun _ => rfl) (m.awaitLogin_gate template node) (fun _ => rfl) fun _ _ _ => rfl
  have hconfirmed : (m.stage .complete (m.confirm node.id template)).Satisfies
      (m.Leads template (· = .confirming node) fun final χ =>
        χ = .ready node final ∧ final.passwords ≠ []) := by
    refine stage_leads rfl (fun _ => rfl) (m.confirm_gate template node) (fun _ => rfl) ?_
    intro made final hpasses
    refine ⟨rfl, fun hnone => ?_⟩
    cases hpasses with
    | confirmed _ reachable =>
        unfold Node.isReachable at reachable
        rw [hnone] at reachable
        cases reachable
  refine leads_bind hstarted fun _ => leads_bind hended fun _ => ?_
  exact leads_bind hlogin fun _ => hconfirmed

/-- A node with credentials can be handed over. -/
theorem handOver_leads (m : Machine τ) (template : Template) (combination : String)
    (node final : Node) :
    (m.handOver combination node final).Satisfies
      (m.Leads template (fun χ => χ = .ready node final ∧ final.passwords ≠ [])
        fun done χ => χ = .ready node done.node) := by
  refine (m.handOver_satisfies combination node final).mono ?_
  rintro w _ r w' ⟨rfl, hprogress, hdone⟩ _ ⟨rfl, hsome⟩ hstands
  obtain ⟨credentials, more, hpasswords⟩ := List.exists_cons_of_ne_nil hsome
  rw [hdone credentials more hpasswords, hprogress]
  exact .reached (.here _) hstands rfl

/-! ## One order -/

theorem approve_unordered (m : Machine τ) (template : Template) (receipt : Option Receipt) :
    (m.approve template receipt).Keeps Run.Unordered :=
  m.approve_keeps Run.unordered_trackable.toWorkable template receipt

/-- What remains to be done once the order is made. -/
def pursue (m : Machine τ) (template : Template) (combination : String) (order : Order) :
    Run τ Provisioned := do
  let receipt ← m.place template order
  let node ← m.approve template receipt
  let final ← m.follow template node
  m.handOver combination node final

theorem provision_eq (m : Machine τ) (template : Template) (combination : String)
    (progress : Option Progress) (w : World τ) :
    m.provision template combination progress w
      = (m.prepare template combination >>= m.pursue template combination)
          { w with progress := progress.getD (.fresh template.hostname) } := rfl

section Frames

variable {F : Run.Frame τ} (hF : Run.Trackable F)
include hF

theorem pursue_keeps (m : Machine τ) (template : Template) (combination : String) {order : Order}
    (hplaced : (Run.call (.placeOrder order) : Run τ _).Keeps F) :
    (m.pursue template combination order).Keeps F := by
  refine hF.steady.bind (m.place_keeps hF.toWorkable template hplaced) fun receipt => ?_
  refine hF.steady.bind (m.approve_keeps hF.toWorkable template receipt) fun node => ?_
  refine hF.steady.bind (m.follow_keeps hF template node) fun final => ?_
  exact m.handOver_keeps hF.toWorkable combination node final

theorem provision_keeps (m : Machine τ) {template : Template} {combination : String}
    (h : (m.prepare template combination >>= m.pursue template combination).Keeps F)
    (progress : Option Progress) : (m.provision template combination progress).Keeps F :=
  hF.steady.bind (fun w => ⟨[], rfl, hF.noted w _⟩) fun _ => h

end Frames

theorem pursue_leads (m : Machine τ) (template : Template) (combination : String)
    (order : Order) :
    (m.pursue template combination order).Satisfies
      (m.Leads template (· = .placing order) fun done χ => ∃ node, χ = .ready node done.node) := by
  refine leads_bind (m.place_leads template order) fun receipt => ?_
  refine leads_bind (m.approve_leads template receipt) fun node => ?_
  refine leads_bind (m.follow_leads template node) fun final => ?_
  refine (m.handOver_leads template combination node final).mono ?_
  intro w made r w' h φ hφ hstands
  cases h φ hφ hstands with
  | reached path stands there => exact .reached path stands ⟨node, there⟩
  | stopped path stands here trouble record => exact .stopped path stands here trouble record

theorem place_orders (m : Machine τ) (template : Template) (order : Order) :
    (m.place template order).Satisfies fun _ made _ _ =>
      ∃ reply, made = [⟨.placeOrder order, reply⟩] := by
  have hstage : (m.stage .orderPlaced (Run.call (.placeOrder order))).Satisfies
      fun _ made _ _ => ∃ reply, made = [⟨.placeOrder order, reply⟩] := by
    rw [stage_eq]
    refine ((Run.satisfies_call (.placeOrder order)).attempt
      fun r => m.record_satisfies .orderPlaced r).mono ?_
    rintro w _ r w' ⟨⟨rfl, -⟩, rfl, -⟩
    exact ⟨_, rfl⟩
  refine Run.Satisfies.logged ((hstage.bind (Q := fun _ _ made _ _ => made = []) ?_).mono ?_)
    (fun _ _ _ _ _ h => h) _
  · intro receipt w
    cases receipt with
    | none => exact ⟨[], rfl, rfl⟩
    | some r => exact ⟨[], rfl, rfl⟩
  · intro w made r w' h
    cases h with
    | failed first => exact first
    | went first second =>
        rw [second, List.append_nil]
        exact first

/-- The order is placed first, and once. -/
theorem pursue_orders (m : Machine τ) (template : Template) (combination : String)
    (order : Order) :
    (m.pursue template combination order).Satisfies fun _ made _ _ =>
      ∃ reply later, made = ⟨.placeOrder order, reply⟩ :: later ∧ orders later = [] := by
  have hlater : ∀ receipt, Run.Keeps (do
      let node ← m.approve template receipt
      let final ← m.follow template node
      m.handOver combination node final) Run.Unordered := by
    intro receipt
    have htracked := Run.unordered_trackable (τ := τ)
    refine Run.unordered_steady.bind (m.approve_unordered template receipt) fun node => ?_
    refine Run.unordered_steady.bind (m.follow_keeps htracked template node) fun final => ?_
    exact m.handOver_keeps htracked.toWorkable combination node final
  refine ((m.place_orders template order).bind hlater).mono ?_
  intro w made r w' h
  cases h with
  | failed first =>
      obtain ⟨reply, rfl⟩ := first
      exact ⟨reply, [], rfl, rfl⟩
  | went first second =>
      obtain ⟨reply, rfl⟩ := first
      exact ⟨reply, _, rfl, second⟩

/-- The course of provisioning from a world with the progress record in it. Either the order cannot
be made, or it is placed and leads on to a node that is handed over. -/
inductive Course (m : Machine τ) (template : Template) (combination : String) :
    Post τ Provisioned
  | unprepared {begun prepared e w'} (failed : (m.prepare template combination begun).1 = .error e)
      (unordered : orders prepared = []) (kept : w'.progress = begun.progress) :
      Course m template combination begun prepared (.error e) w'
  | pursued {begun prepared order reply later r w'}
      (prepares : (m.prepare template combination begun).1 = .ok order)
      (unordered : orders prepared = []) (once : orders later = [])
      (outcome : begun.progress.At 0 → m.Outcome template (.placing order)
        (fun done χ => ∃ node, χ = .ready node done.node)
        (⟨.placeOrder order, reply⟩ :: later) r w'.progress) :
      Course m template combination begun (prepared ++ ⟨.placeOrder order, reply⟩ :: later) r w'

theorem provision_course (m : Machine τ) (template : Template) (combination : String) :
    (m.prepare template combination >>= m.pursue template combination).Satisfies
      (m.Course template combination) := by
  have hprepare := (m.prepare_aside template combination).result
  refine (hprepare.bind fun order => (m.pursue_leads template combination order).and
    (m.pursue_orders template combination order)).mono ?_
  intro w made r w' h
  cases h with
  | failed first => exact .unprepared first.2 first.1.unordered first.1.progress
  | went first second =>
      obtain ⟨haside, hprepared⟩ := first
      obtain ⟨hleads, reply, later, rfl, honce⟩ := second
      refine .pursued hprepared haside.unordered honce fun hat => ?_
      refine hleads _ rfl ⟨?_, nofun⟩
      rw [haside.progress]
      exact hat

end Machine

end Provision
