import Provision.Failure
import Provision.Log.Record

/-!
# Progress of a run

A provisioning run passes six stages in a fixed order, or fails on the way.
The progress record says where it is, how it got there, and why it failed.
Stages are only ever entered one after the other; a failed run enters no
stage any more.
-/

namespace Provision

inductive Stage where
  | orderPlaced
  | orderApproved
  | transactionsStarted
  | transactionsEnded
  | loginReady
  | complete
  deriving DecidableEq

namespace Stage

/-- The stages in the order in which a run passes them. -/
def all : List Stage :=
  [orderPlaced, orderApproved, transactionsStarted, transactionsEnded, loginReady, complete]

def name : Stage → String
  | orderPlaced => "ORDER_PLACED"
  | orderApproved => "ORDER_APPROVED"
  | transactionsStarted => "TRANSACTIONS_STARTED"
  | transactionsEnded => "TRANSACTIONS_ENDED"
  | loginReady => "LOGIN_READY"
  | complete => "COMPLETE"

/-- The position of a stage in the order. -/
def position : Stage → Nat
  | orderPlaced => 0
  | orderApproved => 1
  | transactionsStarted => 2
  | transactionsEnded => 3
  | loginReady => 4
  | complete => 5

end Stage

inductive RunState where
  | reached (stage : Stage)
  | failed
  deriving DecidableEq

namespace RunState

def name : RunState → String
  | reached stage => stage.name
  | failed => "FAILED"

def ofName? (name : String) : Option RunState :=
  if name == "FAILED" then some .failed
  else (Stage.all.find? (·.name == name)).map .reached

end RunState

structure Progress where
  hostname : String
  state : Option RunState := none
  history : List RunState := []
  orderId : Value := .null
  nodeId : Option Int := none
  failedStage : Option String := none
  failureReason : Option String := none

namespace Progress

/-- The record of a run that has not begun. -/
def fresh (hostname : String) : Progress := { hostname }

def isFailed (p : Progress) : Bool := p.state == some .failed

/-- Whether a state may follow the present one: the next stage in order. -/
def mayEnter (p : Progress) : RunState → Bool
  | .failed => false
  | .reached stage =>
    match p.state with
    | none => stage.position == 0
    | some (.reached current) => stage.position == current.position + 1
    | some .failed => false

/-- Enters the next stage. -/
def advance (p : Progress) (next : RunState) : Except ProgressFault Progress :=
  if p.isFailed then .error (.alreadyFailed p.hostname next.name)
  else if p.mayEnter next then .ok { p with state := some next, history := p.history ++ [next] }
  else .error (.illegalStep p.hostname (p.state.map RunState.name) next.name)

/-- Marks the run as failed, whatever its state. -/
def fail (p : Progress) (stage reason : String) : Progress :=
  { p with
    failedStage := some stage
    failureReason := some reason
    state := some .failed
    history := p.history ++ [.failed] }

/-- What the log says about the run: where it failed and why, or else its state. -/
def fields (p : Progress) : Log.Fields :=
  let order : Log.Fields := if p.orderId.isNull then [] else [(.order, p.orderId)]
  let node : Log.Fields := match p.nodeId with
    | some n => [(.node, .int n)]
    | none => []
  let stage : Log.Fields := match p.failedStage.filter (· != ""), p.state with
    | some stage, _ => [(.stage, .text stage), (.reason, .ofText? p.failureReason)]
    | none, some state => [(.stage, .text state.name)]
    | none, none => []
  (.hostname, .text p.hostname) :: order ++ node ++ stage

end Progress

end Provision
