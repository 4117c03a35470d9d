import Provision.Proofs.Indifference

/-!
# Refused cancellations

A cancellation is answered with yes or no. To destroy a node the answer has to
be there, but it makes no difference which one it is: with a remote side that
is the same but for this answer everything else goes the same way
(`destroy_heedless`). So a node whose cancellation was refused counts as
destroyed if some other transaction happens to run against it and to end
(`destroy_refused`).
-/

namespace Provision

variable {τ : Type}

/-! ## One answer to all cancellations -/

/-- The reply to a call with the answer to a cancellation put in place of the given one. -/
def Call.cancelling (answer : Bool) :
    (c : Call) → Except (Failure τ) c.Reply → Except (Failure τ) c.Reply
  | .cancelBillingItem _, .ok _ => .ok answer
  | _, reply => reply

def Exchange.cancelling (answer : Bool) (x : Exchange τ) : Exchange τ :=
  ⟨x.call, x.call.cancelling answer x.reply⟩

/-- The same remote side, but with one answer to all cancellations that do not fail. -/
def Remote.cancelling (answer : Bool) (r : Remote τ) : Remote τ :=
  { r with respond := fun s c => (c.cancelling answer (r.respond s c).1, (r.respond s c).2) }

/-- The first remote side as it is, the other one with the given answer to cancellations, and since
some time before the same calls made to both. -/
def Pairing.cancelling (answer : Bool) (before : List (Exchange τ)) : Pairing τ :=
  fun r made r' made' => r' = r.cancelling answer ∧ ∃ since, made = since ++ before
    ∧ made' = since.map (Exchange.cancelling answer) ++ before

section Pairing

variable (answer : Bool) (before : List (Exchange τ))

theorem Pairing.cancelling_keeps {c : Call} (hc : c.cancelled? = none) :
    (Pairing.cancelling answer before).Keeps c := by
  rintro r _ _ _ ⟨rfl, since, rfl, rfl⟩
  refine ⟨?_, rfl, ⟨c, (r.answer c).1⟩ :: since, rfl, rfl⟩
  show c.cancelling answer (r.answer c).1 = (r.answer c).1
  cases c with
  | cancelBillingItem item => cases hc
  | _ => rfl

theorem Pairing.cancelling_tolerates (c : Call) :
    (Pairing.cancelling answer before).Tolerates c := by
  rintro r _ _ _ ⟨rfl, since, rfl, rfl⟩
  refine ⟨?_, rfl, ⟨c, (r.answer c).1⟩ :: since, rfl, rfl⟩
  show (c.cancelling answer (r.answer c).1).map (fun _ => ()) = (r.answer c).1.map fun _ => ()
  cases c with
  | cancelBillingItem item => cases (r.answer (.cancelBillingItem item)).1 <;> rfl
  | _ => rfl

end Pairing

namespace Machine

/-! ## Whatever the answer -/

/-- Without an answer to the cancellation a billed node does not count as destroyed. -/
theorem destroy_answered [Duration τ] {m : Machine τ} {id : Int} {w : World τ}
    {made : List (Exchange τ)} (hmade : (m.destroy id w).2.exchanges = made.reverse ++ w.exchanges)
    {node : Node} (hnode : (Run.call (.getNode m.kind id) w).1 = .ok (some node))
    (hbilled : node.billingItem ≠ .null) {gone : Bool} (hgone : (m.destroy id w).1 = .ok gone) :
    ∃ given, ⟨.cancelBillingItem node.billingItem, .ok given⟩ ∈ made := by
  obtain ⟨reply, remote, hlooked⟩ := Run.call_eq (.getNode m.kind id) w
  rw [hlooked] at hnode
  rcases destroy_cases hlooked with
    ⟨e, rfl, -⟩ | ⟨found, records, rfl, hall, -⟩ | ⟨found, rfl, -, hrun⟩
  · cases hnode
  · cases hnode
    exact absurd (hall node rfl) hbilled
  cases hnode
  obtain ⟨later, htrace, hdisposal⟩ := m.dispose_satisfies id node
    { w with remote, exchanges := ⟨.getNode m.kind id, .ok (some node)⟩ :: w.exchanges }
  rw [← hrun] at htrace hdisposal
  have hlater : made = ⟨.getNode m.kind id, .ok (some node)⟩ :: later := by
    have hsame : made.reverse ++ w.exchanges
        = (⟨.getNode m.kind id, .ok (some node)⟩ :: later).reverse ++ w.exchanges := by
      rw [← hmade, htrace, List.reverse_cons, List.append_assoc]
      rfl
    exact List.reverse_inj.mp (List.append_cancel_right hsame)
  rcases hdisposal.cancels_once with ⟨e, -, -, he, -⟩ | ⟨guard, answer, rest, rfl, -, -, -, hend⟩
  · rw [hgone] at he
    cases he
  · obtain ⟨-, ⟨given, rfl⟩, -⟩ := hend gone hgone
    refine ⟨given, ?_⟩
    rw [hlater]
    exact List.mem_cons_of_mem _ (List.mem_append_right guard (List.mem_cons_self ..))

/-- **Refusals go unheeded.** A billed node counts as destroyed only if its cancellation was
answered, but with any other answer the result is the same, and so are the calls, the sleeps and the
progress record. -/
theorem destroy_heedless [Duration τ] (m : Machine τ) (id : Int) (w : World τ) (answer : Bool) :
    let out := m.destroy id w
    let out' := m.destroy id { w with remote := w.remote.cancelling answer }
    ∃ made : List (Exchange τ), out.2.exchanges = made.reverse ++ w.exchanges
      ∧ (∀ node, (Run.call (.getNode m.kind id) w).1 = .ok (some node) →
        node.billingItem ≠ .null → ∀ gone, out.1 = .ok gone →
          ∃ given, ⟨.cancelBillingItem node.billingItem, .ok given⟩ ∈ made)
      ∧ out'.1 = out.1
      ∧ out'.2.exchanges = (made.map (Exchange.cancelling answer)).reverse ++ w.exchanges
      ∧ out'.2.sleeps = out.2.sleeps
      ∧ out'.2.progress = out.2.progress := by
  obtain ⟨hresult, halike⟩ := m.destroy_indifferent
    (fun _ hc => Pairing.cancelling_keeps answer w.exchanges hc)
    (fun _ => Pairing.cancelling_tolerates answer w.exchanges _) id w
    { w with remote := w.remote.cancelling answer }
    ⟨⟨rfl, [], rfl, rfl⟩, rfl, rfl, rfl, rfl, rfl⟩
  obtain ⟨-, since, hmade, hmade'⟩ := halike.remote
  rw [← since.reverse_reverse] at hmade hmade'
  rw [List.map_reverse] at hmade'
  exact ⟨since.reverse, hmade, fun _ hnode hbilled _ hgone =>
    destroy_answered hmade hnode hbilled hgone, hresult, hmade', halike.sleeps, halike.progress⟩

/-! ## A refusal that goes unnoticed -/

/-- A billed node. -/
def keptNode : Node := { id := 1001, hostname := .text "web-1", billingItem := .int 5001 }

def rebooting : Transaction := { name := .text "Reboot" }

/-- The node is there whenever it is looked at. Its cancellation is refused, and meanwhile it is
being rebooted. -/
def refusing : Remote Rat := .scripted
  { getNode := .always (some keptNode)
    cancelBillingItem := .always false
    getActiveTransaction := ⟨.ok (some rebooting), [.ok none]⟩ }

/-- A machine for virtual guests that waits ten seconds for anything. -/
def guests : Machine Rat :=
  let policy : StagePolicy Rat := { timeout := 10, interval := 1, backoff := 1 }
  { defaults := { family := 46, kind := .virtualGuest }
    policies := ⟨policy, policy, policy, policy, policy⟩ }

/-- The only cancellation is refused, the node counts as destroyed, and there it still is. -/
theorem destroy_refused :
    let w : World Rat := { remote := refusing, clock := 0, patience := 20 }
    let out := guests.destroy 1001 w
    keptNode.billingItem ≠ .null
    ∧ out.1 = .ok true
    ∧ out.2.exchanges.reverse
      = [⟨.getNode .virtualGuest 1001, .ok (some keptNode)⟩,
        ⟨.cancelBillingItem keptNode.billingItem, .ok false⟩,
        ⟨.getActiveTransaction .virtualGuest 1001, .ok (some rebooting)⟩,
        ⟨.getActiveTransaction .virtualGuest 1001, .ok none⟩]
    ∧ (Run.call (.getNode .virtualGuest 1001) out.2).1 = .ok (some keptNode) :=
  ⟨nofun, rfl, rfl, rfl⟩

end Machine

end Provision
