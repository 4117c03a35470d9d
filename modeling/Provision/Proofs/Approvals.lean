import Provision.Proofs.Decommissioning
import Provision.Proofs.Histories
import Provision.Proofs.Reuse

/-!
# Approvals

An order that needs approval passes its second stage in one of two ways. Where
the node has to be looked for, the order's status is asked for each time before.
Where the receipt names the node, nothing is asked for at all: the run takes the
node and goes on to its transactions, and from then on it looks at nothing but
the node. So it is the receipt that decides whether the approval of an order is
waited for (`approval_bypassed`).
-/

namespace Provision

variable {τ α : Type}

/-- The order whose status a call asks for, if it does. -/
def Call.inquired? : Call → Option Value
  | getBillingOrderStatus order => some order
  | _ => none

/-! ## The order that was placed -/

theorem not_placed_of_unordered {made : List (Exchange τ)} (h : orders made = []) (order : Order)
    (reply : Except (Failure τ) (Option Receipt)) : ⟨.placeOrder order, reply⟩ ∉ made := by
  intro hmem
  have hnone := List.filterMap_eq_nil_iff.mp h _ hmem
  cases hnone

/-- Between calls that place no order the one that does is known. -/
theorem eq_of_placed {before later : List (Exchange τ)} {x : Exchange τ} {order : Order}
    {reply : Except (Failure τ) (Option Receipt)} (hbefore : orders before = [])
    (hlater : orders later = []) (hmem : ⟨.placeOrder order, reply⟩ ∈ before ++ x :: later) :
    ⟨.placeOrder order, reply⟩ = x := by
  rcases List.mem_append.mp hmem with hmem | hmem
  · exact absurd hmem (not_placed_of_unordered hbefore order reply)
  · exact (List.mem_cons.mp hmem).resolve_right (not_placed_of_unordered hlater order reply)

namespace Machine

variable {m : Machine τ} {template : Template} {φ χ : Phase} {made : List (Exchange τ)}

/-- A walk does not lead back. -/
theorem Path.position_le (h : m.Path template φ made χ) : φ.position ≤ χ.position := by
  induction h with
  | here => exact Nat.le_refl _
  | step first later ih =>
      rw [first.position] at ih
      exact Nat.le_of_succ_le ih

/-- The calls by which a node is followed. -/
def Attends (m : Machine τ) (node : Node) (c : Call) : Prop :=
  c = .getActiveTransaction m.kind node.id ∨ c = .getNode m.kind node.id

/-- The calls by which catalogs are fetched. -/
def Lists (c : Call) : Prop := ∃ family, c = .listCatalogItems family

theorem listing_lists : Run.Listing (Run.Only Lists : Run.Frame τ) where
  steady := Run.only_steady Lists
  listed family := Run.call_only ⟨family, rfl⟩
  cached _ := fun _ => ⟨[], rfl, fun _ => nofun⟩

variable [Duration τ]

/-! ## With a node in the receipt -/

theorem stage_only (m : Machine τ) (s : Stage) {p : Call → Prop} {action : Run τ α}
    (haction : action.Keeps (Run.Only p)) : (m.stage s action).Keeps (Run.Only p) := by
  refine (m.stage_records s haction).mono ?_
  rintro w made r w' ⟨r₁, w₁, honly, -⟩
  exact honly

/-- A node that is known is all that the run looks at. -/
theorem follow_attends (m : Machine τ) (template : Template) (node : Node) :
    (m.follow template node).Keeps (Run.Only (m.Attends node)) := by
  have hsteady := Run.only_steady (τ := τ) (m.Attends node)
  have hlook : (m.reachableNode node.id template).Keeps (Run.Only (m.Attends node)) :=
    hsteady.bind (Run.call_only (Or.inr rfl)) fun _ => hsteady.pure _
  have hstarted : (m.awaitStarted node.id (.text template.hostname)).Keeps
      (Run.Only (m.Attends node)) :=
    (m.awaitStarted_looks node.id _).mono fun _ _ _ _ h x hx => Or.inl (h.1 x hx)
  have hended : (m.awaitEnded node.id (.text template.hostname)).Keeps
      (Run.Only (m.Attends node)) :=
    (m.awaitEnded_looks node.id _).mono fun _ _ _ _ h x hx => Or.inl (h.1 x hx)
  have hlogin : (m.awaitLogin node.id template).Keeps (Run.Only (m.Attends node)) :=
    Run.await_keeps hsteady hlook _ _ _ _
  have hconfirmed : (m.confirm node.id template).Keeps (Run.Only (m.Attends node)) := by
    refine hsteady.bind hlook fun found => ?_
    cases found with
    | some final => exact hsteady.pure final
    | none => exact hsteady.fail _
  refine hsteady.bind (m.stage_only _ hstarted) fun _ => ?_
  refine hsteady.bind (m.stage_only _ hended) fun _ => ?_
  exact hsteady.bind (m.stage_only _ hlogin) fun _ => m.stage_only _ hconfirmed

/-- Once a node is known, its order counts as approved for good. -/
theorem attended_approved (m : Machine τ) (template : Template) (combination : String)
    (node : Node) :
    Run.Satisfies (do
      let final ← m.follow template node
      m.handOver combination node final) fun (w : World τ) made _ w' =>
        (Phase.starting node).Stands w.progress →
          .reached .orderApproved ∈ w'.progress.history ∧ ∀ x ∈ made, m.Attends node x.call := by
  have hdone : ∀ final, (m.handOver combination node final).Keeps (Run.Only (m.Attends node)) := by
    intro final
    refine (m.handOver_satisfies combination node final).mono ?_
    rintro w _ r w' ⟨rfl, -⟩ x hx
    cases hx
  refine ((leads_bind (m.follow_leads template node)
    fun final => m.handOver_leads template combination node final).and
      ((Run.only_steady _).bind (m.follow_attends template node) hdone)).mono ?_
  rintro w made r w' ⟨hleads, honly⟩ hstands
  obtain ⟨along, rest, χ, -, hpath, hhistory, -⟩ := (hleads _ rfl hstands).account
  exact ⟨(hhistory _).mpr hpath.position_le, honly⟩

/-- Where the receipt names a node, the run passes the approval of its order without a call. -/
theorem pursue_received (m : Machine τ) (template : Template) (combination : String)
    (order : Order) :
    (m.pursue template combination order).Satisfies fun w made _ w' =>
      (Phase.placing order).Stands w.progress → ∀ known node more later,
        made = ⟨.placeOrder order, .ok (some known)⟩ :: later → known.nodes = node :: more →
          .reached .orderApproved ∈ w'.progress.history ∧
            ∀ x ∈ later, m.Attends node x.call := by
  refine ((m.place_stands template order).bind fun receipt =>
    (m.approve_stands template receipt).bind (m.attended_approved template combination)).mono ?_
  intro w made r w' h hstands known node more later hmade hfirst
  cases h with
  | failed first =>
      obtain ⟨rfl, -⟩ := first hstands
      cases hmade
  | went first second =>
      obtain ⟨rfl, hlocating, -⟩ := first hstands
      cases hmade
      have hplaced := hlocating _ rfl
      cases second with
      | failed first =>
          obtain ⟨⟨-, hreceived⟩, -⟩ := first hplaced
          cases (hreceived known node more rfl hfirst).2
      | went first second =>
          obtain ⟨⟨-, hreceived⟩, hstarting, -⟩ := first hplaced
          obtain ⟨rfl, hnode⟩ := hreceived known node more rfl hfirst
          cases hnode
          exact second (hstarting _ rfl)

/-! ## Without a node in the receipt -/

/-- The stage of approval is entered after the answer that the order is approved. -/
theorem Outcome.asked {goal : α → Phase → Prop} {r : Except (Failure τ) α} {p : Progress}
    {order : Order} {receipt : Receipt} {later : List (Exchange τ)}
    (h : m.Outcome template (.placing order) goal
      (⟨.placeOrder order, .ok (some receipt)⟩ :: later) r p)
    (hneeds : m.requiresApproval = true) (hid : receipt.orderId ≠ .null)
    (hnone : receipt.nodes = []) (happroved : .reached .orderApproved ∈ p.history) :
    ⟨.getBillingOrderStatus receipt.orderId, .ok (.text "APPROVED")⟩ ∈ later := by
  obtain ⟨along, rest, χ, hmade, hpath, hhistory, -⟩ := h.account
  have hbeyond := (hhistory _).mp happroved
  obtain ⟨placed, walked, rfl, hlocating⟩ := hpath.past_placing (Nat.lt_of_succ_lt hbeyond)
  obtain ⟨located, onward, node, rfl, hlocated, -⟩ := hlocating.past_locating hbeyond
  obtain ⟨hplaced, rfl⟩ := List.cons_eq_cons.mp hmade
  cases hplaced
  cases hlocated with
  | received known first =>
      cases known
      rw [hnone] at first
      cases first
  | listed _ approved =>
      obtain ⟨before, rfl⟩ := approved receipt rfl hid hneeds
      refine List.mem_append_left rest (List.mem_append_left onward (List.mem_append_left _ ?_))
      exact List.mem_append_right before (List.mem_singleton_self _)

/-! ## Every order -/

/-- **A receipt may stand in for the approval.** Of an order that needs approval, and whose id is
known, the stage of approval is entered only after the answer that it is approved, if the receipt
names no node. If it names one, the stage is entered in any case, and nobody is ever asked for the
status of any order. -/
theorem approval_bypassed (m : Machine τ) (hneeds : m.requiresApproval = true)
    (template : Template) (combination : String) (host : Option String) (w : World τ) :
    let out := m.provision template combination (host.map .fresh) w
    let history := out.2.progress.history
    ∃ made : List (Exchange τ), out.2.exchanges = made.reverse ++ w.exchanges ∧
      ∀ order receipt, ⟨.placeOrder order, .ok (some receipt)⟩ ∈ made → receipt.orderId ≠ .null →
        (receipt.nodes = [] → .reached .orderApproved ∈ history →
          ⟨.getBillingOrderStatus receipt.orderId, .ok (.text "APPROVED")⟩ ∈ made)
        ∧ (receipt.nodes ≠ [] → .reached .orderApproved ∈ history
          ∧ ∀ x ∈ made, x.call.inquired? = none) := by
  have hrun := m.provision_eq template combination (host.map .fresh) w
  have hfresh := Progress.fresh_getD_at host template.hostname
  have hprepare := (m.prepare_aside template combination).and
    (m.prepare_keeps listing_lists template combination)
  have hpursue := fun order => ((m.pursue_leads template combination order).and
    (m.pursue_orders template combination order)).and
      (m.pursue_received template combination order)
  obtain ⟨made, htrace, hcourse⟩ := hprepare.bind hpursue
    { w with progress := (host.map .fresh).getD (.fresh template.hostname) }
  rw [← hrun] at htrace hcourse
  generalize m.provision template combination (host.map .fresh) w = out at htrace hcourse ⊢
  obtain ⟨r, w'⟩ := out
  refine ⟨made, htrace, fun order receipt hplaced hid => ?_⟩
  cases hcourse with
  | failed first => exact absurd hplaced (not_placed_of_unordered first.1.unordered _ _)
  | @went _ _ _ w₁ _ _ _ first second =>
      obtain ⟨haside, hlists⟩ := first
      obtain ⟨⟨hleads, reply, later, rfl, honce⟩, hreceived⟩ := second
      cases eq_of_placed haside.unordered honce hplaced
      have hat : w₁.progress.At 0 := by
        rw [haside.progress]
        exact hfresh
      have hstands : (Phase.placing order).Stands w₁.progress := ⟨hat, nofun⟩
      refine ⟨fun hnone happroved => ?_, fun hsome => ?_⟩
      · have hasked := (hleads _ rfl hstands).asked hneeds hid hnone happroved
        exact List.mem_append_right _ (List.mem_cons_of_mem _ hasked)
      · obtain ⟨node, more, hfirst⟩ := List.exists_cons_of_ne_nil hsome
        obtain ⟨happroved, hattends⟩ := hreceived hstands receipt node more later rfl hfirst
        refine ⟨happroved, fun x hx => ?_⟩
        rcases List.mem_append.mp hx with hx | hx
        · obtain ⟨family, hcall⟩ := hlists x hx
          rw [hcall]
          rfl
        · rcases List.mem_cons.mp hx with rfl | hx
          · rfl
          · rcases hattends x hx with hcall | hcall <;> rw [hcall] <;> rfl

/-! ## Two receipts -/

/-- A machine for servers, whose orders need approval. -/
def servers : Machine Rat :=
  { guests with defaults := { family := 50, kind := .hardwareServer }, supportsSuspend := false }

/-- A node for the host, ready to be used. -/
def webNode : Node :=
  { id := 1001, hostname := .text "web-1", domain := .text "example.com"
    publicAddress := .text "1.2.3.4", privateAddress := .text "10.0.0.4"
    passwords := [⟨.text "root", .text "s3cret"⟩] }

/-- The order is accepted with this receipt, its status changes in this way, and the node is being
set up. -/
def billing (receipt : Receipt) (status : Script Rat Value) : World Rat where
  remote := .scripted
    { placeOrder := .always (some receipt)
      getBillingOrderStatus := status
      listNodes := .always [webNode]
      getActiveTransaction := ⟨.ok (some { name := .text "Setup" }), [.ok none]⟩
      getNode := .always (some webNode) }
  clock := 0
  patience := 20

def serverOrder : Order := { webOrder with family := 50, kind := .hardwareServer }

theorem billing_placed {receipt : Receipt} {status : Script Rat Value} {w : World Rat}
    (hw : w = billing receipt status) :
    ⟨.placeOrder serverOrder, .ok (some receipt)⟩
      ∈ (servers.provision webHost "19,123" none w).2.exchanges := by
  subst hw
  let begun := { billing receipt status with progress := .fresh "web-1" }
  let placed := (servers.place webHost serverOrder begun).2
  have hprepare : servers.prepare webHost "19,123" begun = (.ok serverOrder, begun) := rfl
  have hplace : servers.place webHost serverOrder begun = (.ok (some receipt), placed) := rfl
  have hrun : servers.provision webHost "19,123" none (billing receipt status)
      = servers.pursue webHost "19,123" serverOrder begun :=
    (servers.provision_eq webHost "19,123" none _).trans (Run.bind_of_ok hprepare)
  have hpursue : servers.pursue webHost "19,123" serverOrder begun
      = (servers.approve webHost (some receipt) >>= fun node => do
          let final ← servers.follow webHost node
          servers.handOver "19,123" node final) placed := Run.bind_of_ok hplace
  obtain ⟨made, htrace, -⟩ := (servers.approve_unordered webHost (some receipt)).bind
    (servers.attended_approved webHost "19,123") placed
  rw [hrun, hpursue, htrace]
  exact List.mem_append_right _ (List.mem_singleton_self _)

/-- Without a node in the receipt, and approved when asked for the second time. -/
theorem approval_bypassed_listed :
    let w := billing { orderId := .int 77 }
      ⟨.ok (.text "PENDING_APPROVAL"), [.ok (.text "APPROVED")]⟩
    let out := servers.provision webHost "19,123" none w
    servers.requiresApproval = true ∧ .reached .orderApproved ∈ out.2.progress.history
    ∧ ⟨.getBillingOrderStatus (.int 77), .ok (.text "APPROVED")⟩ ∈ out.2.exchanges := by
  intro w
  have happroved : .reached .orderApproved
      ∈ (servers.provision webHost "19,123" none w).2.progress.history := by
    decide +kernel
  have hplaced := billing_placed (w := w) rfl
  have hbegun : w.exchanges = [] := rfl
  have hbypassed := servers.approval_bypassed rfl webHost "19,123" none w
  rw [Option.map_none] at hbypassed
  obtain ⟨made, htrace, hall⟩ := hbypassed
  rw [hbegun, List.append_nil] at htrace
  rw [htrace, List.mem_reverse] at hplaced
  refine ⟨rfl, happroved, ?_⟩
  rw [htrace, List.mem_reverse]
  exact (hall serverOrder _ hplaced nofun).1 rfl happroved

/-- With a node in the receipt, and never approved. -/
theorem approval_unasked :
    let receipt : Receipt := { orderId := .int 77, nodes := [webNode] }
    let out := servers.provision webHost "19,123" none
      (billing receipt (.always (.text "PENDING_APPROVAL")))
    servers.requiresApproval = true
    ∧ ⟨.placeOrder serverOrder, .ok (some receipt)⟩ ∈ out.2.exchanges
    ∧ out.2.progress.history = Stage.all.map .reached
    ∧ ∀ x ∈ out.2.exchanges, x.call.inquired? = none :=
  ⟨rfl, billing_placed rfl, by decide +kernel, by decide +kernel⟩

end Machine

end Provision
