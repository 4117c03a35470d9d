import Provision.Failure
import Provision.Order

/-!
# The remote side

Everything the program needs from the infrastructure provider is one of twelve
operations. A `Call` is an operation with its arguments, and the kind of its
answer depends on the operation. A `Remote` is anything that answers calls: it
has a state of its own, about which nothing is known, and every answer may
change it. So a statement about all remotes is one about any sequence of
answers and failures whatsoever.

`Remote.scripted` answers from prepared lists, one per operation.
-/

namespace Provision

inductive Call where
  | listCatalogItems (family : Int)
  | verifyOrder (order : Order)
  | placeOrder (order : Order)
  | listNodes (kind : NodeKind)
  | getNode (kind : NodeKind) (node : Int)
  | getActiveTransaction (kind : NodeKind) (node : Int)
  | cancelBillingItem (item : Value)
  | getBillingOrderStatus (order : Value)
  | rebootNode (kind : NodeKind) (node : Int)
  | powerOffNode (kind : NodeKind) (node : Int)
  | pauseNode (node : Int)
  | resumeNode (node : Int)

/-- What a call is answered with. -/
@[reducible] def Call.Reply : Call → Type
  | listCatalogItems _ => Option (List Item)
  | verifyOrder _ => Unit
  | placeOrder _ => Option Receipt
  | listNodes _ => List Node
  | getNode _ _ => Option Node
  | getActiveTransaction _ _ => Option Transaction
  | cancelBillingItem _ => Bool
  | getBillingOrderStatus _ => Value
  | rebootNode _ _ => Bool
  | powerOffNode _ _ => Bool
  | pauseNode _ => Bool
  | resumeNode _ => Bool

/-- A service that answers calls. -/
structure Remote (τ : Type) where
  State : Type
  state : State
  respond : State → (call : Call) → Except (Failure τ) call.Reply × State

/-- The answer to a call, and the service as it is afterwards. -/
def Remote.answer {τ : Type} (r : Remote τ) (call : Call) :
    Except (Failure τ) call.Reply × Remote τ :=
  let (reply, state) := r.respond r.state call
  (reply, { r with state })

/-- A call that was made, and how it was answered. -/
structure Exchange (τ : Type) where
  call : Call
  reply : Except (Failure τ) call.Reply

/-! ## Scripted answers -/

/-- Answers in order, the last one again and again. -/
structure Script (τ α : Type) where
  next : Except (Failure τ) α
  later : List (Except (Failure τ) α) := []

def Script.always {τ α : Type} (a : α) : Script τ α := ⟨.ok a, []⟩

def Script.advance {τ α : Type} (s : Script τ α) : Script τ α :=
  match s.later with
  | [] => s
  | a :: rest => ⟨a, rest⟩

/-- The script of a list of answers, or another one if the list is empty. -/
def Script.ofList {τ α : Type} (fallback : Script τ α) : List (Except (Failure τ) α) → Script τ α
  | [] => fallback
  | a :: rest => ⟨a, rest⟩

/-- One script per operation. By default catalogs and listings are empty, nothing is found, and
everything asked for is done. -/
structure Scripts (τ : Type) where
  listCatalogItems : Script τ (Option (List Item)) := .always (some [])
  verifyOrder : Script τ Unit := .always ()
  placeOrder : Script τ (Option Receipt) := .always none
  listNodes : Script τ (List Node) := .always []
  getNode : Script τ (Option Node) := .always none
  getActiveTransaction : Script τ (Option Transaction) := .always none
  cancelBillingItem : Script τ Bool := .always true
  getBillingOrderStatus : Script τ Value := .always .null
  rebootNode : Script τ Bool := .always true
  powerOffNode : Script τ Bool := .always true
  pauseNode : Script τ Bool := .always true
  resumeNode : Script τ Bool := .always true

def Scripts.respond {τ : Type} (s : Scripts τ) :
    (call : Call) → Except (Failure τ) call.Reply × Scripts τ
  | .listCatalogItems _ => (s.listCatalogItems.next, { s with listCatalogItems := s.listCatalogItems.advance })
  | .verifyOrder _ => (s.verifyOrder.next, { s with verifyOrder := s.verifyOrder.advance })
  | .placeOrder _ => (s.placeOrder.next, { s with placeOrder := s.placeOrder.advance })
  | .listNodes _ => (s.listNodes.next, { s with listNodes := s.listNodes.advance })
  | .getNode _ _ => (s.getNode.next, { s with getNode := s.getNode.advance })
  | .getActiveTransaction _ _ =>
    (s.getActiveTransaction.next, { s with getActiveTransaction := s.getActiveTransaction.advance })
  | .cancelBillingItem _ => (s.cancelBillingItem.next, { s with cancelBillingItem := s.cancelBillingItem.advance })
  | .getBillingOrderStatus _ =>
    (s.getBillingOrderStatus.next, { s with getBillingOrderStatus := s.getBillingOrderStatus.advance })
  | .rebootNode _ _ => (s.rebootNode.next, { s with rebootNode := s.rebootNode.advance })
  | .powerOffNode _ _ => (s.powerOffNode.next, { s with powerOffNode := s.powerOffNode.advance })
  | .pauseNode _ => (s.pauseNode.next, { s with pauseNode := s.pauseNode.advance })
  | .resumeNode _ => (s.resumeNode.next, { s with resumeNode := s.resumeNode.advance })

def Remote.scripted {τ : Type} (s : Scripts τ) : Remote τ := ⟨Scripts τ, s, Scripts.respond⟩

end Provision
