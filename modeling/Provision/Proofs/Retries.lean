import Provision.Proofs.Approvals
import Provision.Proofs.Indifference

/-!
# Trying again

A run that failed may have left a node behind. The next run for the same host
makes no use of what was noted of the first one (`provision_forgets`), but it
does not tell that node from its own either: unless its receipt names a node,
it takes the first one that goes by the host's name (`pursue_finds`). So what
is left behind is used again just if it comes first in the listing in which the
search ends (`retry_finds`).
-/

namespace Provision

variable {τ : Type}

/-! ## What is noted of a run -/

/-- The world with what was noted in another one: its log, its trace of calls, its trackers and its
progress record. -/
def World.recalling (w memory : World τ) : World τ :=
  { w with
    exchanges := memory.exchanges
    records := memory.records
    guests := memory.guests
    servers := memory.servers
    progress := memory.progress }

/-- Remote sides that are the same, to which the same calls were made since they had been called in
two different ways. -/
def Pairing.since (before before' : List (Exchange τ)) : Pairing τ := fun r made r' made' =>
  r' = r ∧ ∃ added, made = added ++ before ∧ made' = added ++ before'

theorem Pairing.since_keeps (before before' : List (Exchange τ)) (c : Call) :
    (since before before').Keeps c := by
  rintro _ _ r _ ⟨rfl, added, rfl, rfl⟩
  exact ⟨rfl, rfl, ⟨c, (r.answer c).1⟩ :: added, rfl, rfl⟩

namespace Machine

variable [Duration τ]

/-- Provisioning does the same whatever is noted of earlier runs. -/
theorem provision_forgets (m : Machine τ) (template : Template) (combination : String)
    (progress : Option Progress) (w memory : World τ) :
    let out := m.provision template combination progress w
    let out' := m.provision template combination progress (w.recalling memory)
    out'.1 = out.1 ∧ ∃ added, out.2.exchanges = added ++ w.exchanges
      ∧ out'.2.exchanges = added ++ memory.exchanges := by
  intro out out'
  have halike : w.Alike (.since w.exchanges memory.exchanges)
      { w.recalling memory with progress := w.progress } :=
    ⟨⟨rfl, [], rfl, rfl⟩, rfl, rfl, rfl, rfl, rfl⟩
  have hsame := m.provision_indifferent
    (fun c _ => Pairing.since_keeps w.exchanges memory.exchanges c) template combination progress
  -- The record in the world is replaced at once.
  have hrun : out' = m.provision template combination progress
      { w.recalling memory with progress := w.progress } := rfl
  obtain ⟨hresult, ⟨-, hadded⟩, -⟩ := hsame _ _ halike
  rw [hrun]
  exact ⟨hresult, hadded⟩

/-! ## How a node is found -/

theorem followed_finds (m : Machine τ) (template : Template) (combination : String)
    (node : Node) :
    Run.Satisfies (do
      let final ← m.follow template node
      m.handOver combination node final) fun (w : World τ) made r w' =>
        (Phase.starting node).Stands w.progress → (∀ x ∈ made, m.Attends node x.call) ∧
          ∀ done, r = .ok done → w'.progress.nodeId = some node.id
            ∧ ⟨.getNode m.kind node.id, .ok (some done.node)⟩ ∈ made := by
  refine ((leads_bind (m.follow_leads template node)
    fun final => m.handOver_leads template combination node final).and
      (m.attended_approved template combination node)).mono ?_
  rintro w made r w' ⟨hleads, hattends⟩ hstands
  refine ⟨(hattends hstands).2, ?_⟩
  rintro done rfl
  cases hleads _ rfl hstands with
  | reached path stands there =>
      subst there
      refine ⟨stands.follows node rfl, ?_⟩
      obtain ⟨started, transaction, rest, rfl, hending⟩ := path.past_starting (show 2 < 6 by decide)
      obtain ⟨ended, rest, rfl, hloggingIn⟩ := hending.past_ending (show 3 < 6 by decide)
      obtain ⟨loggedIn, found, rest, rfl, -, hconfirming⟩ :=
        hloggingIn.past_loggingIn (show 4 < 6 by decide)
      obtain ⟨final, rfl, -, hready⟩ := hconfirming.past_confirming (show 5 < 6 by decide)
      cases hready
      refine List.mem_append_right _ (List.mem_cons_of_mem _ (List.mem_append_right _ ?_))
      refine List.mem_cons_of_mem _ (List.mem_append_right _ (List.mem_cons_of_mem _ ?_))
      exact List.mem_singleton_self _

/-- The node is the first one in the receipt, or if there is none the first that fits in the listing
with which the search ended. -/
theorem pursue_finds (m : Machine τ) (template : Template) (combination : String) (order : Order) :
    (m.pursue template combination order).Satisfies fun w made r w' =>
      (Phase.placing order).Stands w.progress → ∀ done, r = .ok done →
        ∃ receipt looked later node,
          made = ⟨.placeOrder order, .ok receipt⟩ :: (looked ++ later)
          ∧ m.Located template receipt looked node
          ∧ (∀ known, receipt = some known → known.nodes ≠ [] → looked = [])
          ∧ (∀ x ∈ later, m.Attends node x.call)
          ∧ w'.progress.nodeId = some node.id
          ∧ ⟨.getNode m.kind node.id, .ok (some done.node)⟩ ∈ later := by
  refine ((m.place_stands template order).bind fun receipt =>
    (m.approve_stands template receipt).bind (m.followed_finds template combination)).mono ?_
  rintro w made r w' h hstands done rfl
  cases h with
  | @went _ _ receipt _ _ _ _ first second =>
      obtain ⟨rfl, hlocating, -⟩ := first hstands
      cases second with
      | @went _ looked node _ later _ _ first second =>
          obtain ⟨⟨hgate, hreceived⟩, hstarting, -⟩ := first (hlocating _ rfl)
          obtain ⟨hattends, hdone⟩ := second (hstarting _ rfl)
          obtain ⟨hnode, hlooked⟩ := hdone done rfl
          refine ⟨receipt, looked, later, node, rfl, ?_, ?_, hattends, hnode, hlooked⟩
          · cases hgate with
            | passed passes =>
                cases passes with
                | located located => exact located
          · intro known hknown hsome
            obtain ⟨first, more, hfirst⟩ := List.exists_cons_of_ne_nil hsome
            exact (hreceived known first more hknown hfirst).1

/-- How the node of an order was found: it is the first in the receipt, or the receipt names none
and the node is the first that fits in the listing with which the search ended. -/
def Found (m : Machine τ) (template : Template) (receipt : Option Receipt)
    (looked : List (Exchange τ)) (node : Node) : Prop :=
  (∃ known more, receipt = some known ∧ known.nodes = node :: more)
    ∨ (∀ known, receipt = some known → known.nodes = [])
      ∧ ∃ earlier nodes, looked = earlier ++ [⟨.listNodes m.kind, .ok nodes⟩]
        ∧ FirstFit template nodes node

omit [Duration τ] in
theorem Located.found {m : Machine τ} {template : Template} {receipt : Option Receipt}
    {looked : List (Exchange τ)} {node : Node} (h : m.Located template receipt looked node)
    (hreceived : ∀ known, receipt = some known → known.nodes ≠ [] → looked = []) :
    m.Found template receipt looked node := by
  cases h with
  | received known first => exact .inl ⟨_, _, known, first⟩
  | @listed earlier nodes _ fit _ =>
      refine .inr ⟨fun known hknown => ?_, earlier, nodes, rfl, fit⟩
      cases hnodes : known.nodes with
      | nil => rfl
      | cons received more =>
          have hnone := hreceived known hknown (hnodes ▸ List.cons_ne_nil received more)
          exact absurd hnone (List.append_ne_nil_of_right_ne_nil _ (List.cons_ne_nil _ _))

/-- **A retry finds its node by itself.** A second run for the same host does the same whatever is
noted of the first one. If it returns, the node that it has followed is the first in the receipt of
its own order, or if this names none, the first that goes by the template's name in the listing with
which its search ended. What it returns is what it was shown of that node, so it is that node where
the remote side does not show one node for another. -/
theorem retry_finds (m : Machine τ) (template : Template) (combination combination' : String)
    (host host' : Option String) (w : World τ) :
    let left := (m.provision template combination (host.map .fresh) w).2
    let retry := m.provision template combination' (host'.map .fresh)
    (∀ memory, (retry (left.recalling memory)).1 = (retry left).1
      ∧ ∃ added, (retry left).2.exchanges = added ++ left.exchanges
        ∧ (retry (left.recalling memory)).2.exchanges = added ++ memory.exchanges)
    ∧ ∀ done, (retry left).1 = .ok done → ∃ before order receipt looked later node,
      (retry left).2.exchanges
          = (before ++ ⟨.placeOrder order, .ok receipt⟩ :: (looked ++ later)).reverse
            ++ left.exchanges
        ∧ orders before = [] ∧ orders (looked ++ later) = []
        ∧ m.Found template receipt looked node
        ∧ (retry left).2.progress.nodeId = some node.id
        ∧ ⟨.getNode m.kind node.id, .ok (some done.node)⟩ ∈ later
        ∧ (∀ x ∈ later, m.Attends node x.call)
        ∧ ((∀ shown, ⟨.getNode m.kind node.id, .ok (some shown)⟩ ∈ later → shown.id = node.id) →
          done.node.id = node.id) := by
  intro left retry
  refine ⟨m.provision_forgets template combination' (host'.map .fresh) left, ?_⟩
  have hrun : retry left = _ := m.provision_eq template combination' (host'.map .fresh) left
  have hfresh := Progress.fresh_getD_at host' template.hostname
  have hpursue := fun order => (m.pursue_orders template combination' order).and
    (m.pursue_finds template combination' order)
  obtain ⟨made, htrace, hcourse⟩ := (m.prepare_aside template combination').bind hpursue
    { left with progress := (host'.map .fresh).getD (.fresh template.hostname) }
  rw [← hrun] at htrace hcourse
  generalize retry left = out at htrace hcourse ⊢
  obtain ⟨r, w'⟩ := out
  rintro done rfl
  cases hcourse with
  | @went _ before order w₁ _ _ _ first second =>
      obtain ⟨⟨reply, following, hplaced, honce⟩, hfinds⟩ := second
      have hat : w₁.progress.At 0 := by
        rw [first.progress]
        exact hfresh
      obtain ⟨receipt, looked, later, node, rfl, hlocated, hreceived, hattends, hnode, hseen⟩ :=
        hfinds ⟨hat, nofun⟩ done rfl
      obtain ⟨-, rfl⟩ := List.cons_eq_cons.mp hplaced
      exact ⟨before, order, receipt, looked, later, node, htrace, first.unordered, honce,
        hlocated.found hreceived, hnode, hseen, hattends, fun hshown => hshown _ hseen⟩

/-! ## A node that is left behind -/

/-- The nodes that are named in the receipts among some answers. -/
def received (made : List (Exchange τ)) : List Node :=
  made.flatMap fun
    | ⟨.placeOrder _, .ok (some receipt)⟩ => receipt.nodes
    | _ => []

/-- Orders are accepted without a receipt, and one node is listed. Its transactions cannot be told
at first. -/
def unreliable : World Rat where
  remote := .scripted
    { listNodes := .always [webNode]
      getActiveTransaction := ⟨.error (.provider { provider := "test", text := "down" }),
        [.ok (some { name := .text "Setup" }), .ok none]⟩
      getNode := .always (some webNode) }
  clock := 0
  patience := 20

/-- The first run finds the node and fails, and the second one returns with this node, which no
receipt names. -/
theorem leftover_reused :
    let first := servers.provision webHost "19,123" none unreliable
    let retry := servers.provision webHost "19,123" none first.2
    first.1.isOk = false ∧ first.2.progress.nodeId = some 1001
    ∧ retry.1.toOption.map (fun done => (done.node.id, done.progress.nodeId))
      = some (1001, some 1001)
    ∧ (received retry.2.exchanges).isEmpty = true := by
  decide +kernel

end Machine

end Provision
