import Provision.Fault
import Provision.Seconds

/-!
# Failures

How a run can fail. Faults of catalogs, configuration and orders are one part;
the others arise while a run is under way: a stage that takes too long, a
provider that reports an error, candidates that are all rejected.

`Failure.isOwn` tells the failures of this program and of its providers from
foreign ones. Only its own failures are recorded in the progress of a run.
-/

namespace Provision

/-! ## Providers -/

inductive ProviderTrouble where
  | general
  | authorization
  | quota
  | resource
  /-- The remote service refused an order. -/
  | rejection
  deriving DecidableEq

structure ProviderFailure where
  trouble : ProviderTrouble := .general
  provider : String
  text : String
  details : List (String × Value) := []

def ProviderFailure.message (f : ProviderFailure) : String := "[" ++ f.provider ++ "] " ++ f.text

/-! ## Selection -/

/-- Candidates none of which was accepted, with the reason given for each rejection. -/
structure Exhaustion where
  candidates : List String
  rejections : List (String × String)

namespace Exhaustion

def lastReason (e : Exhaustion) : Option String := e.rejections.getLast?.map (·.2)

def message (e : Exhaustion) : String :=
  if e.candidates.isEmpty then "No price combinations to verify"
  else
    "Failed validating prices combinations for: " ++ ";".intercalate e.candidates
      ++ ". Last rejection: " ++ e.lastReason.getD "None"

end Exhaustion

/-! ## Stages -/

/-- A stage that did not reach its goal in time. A wording of its own replaces the usual one. -/
structure StageTimeout (τ : Type) where
  stage : String
  timeout : τ
  subject : Value := .text ""
  wording : String := ""

def StageTimeout.message {τ : Type} [Duration τ] (t : StageTimeout τ) : String :=
  if t.wording != "" then t.wording
  else
    let plain := "stage " ++ t.stage ++ " did not complete within " ++ Duration.text t.timeout ++ "s"
    if t.subject.truthy then t.subject.display ++ ": " ++ plain else plain

/-- What is wrong with the timing of a stage. -/
inductive PolicyFault (τ : Type) where
  | notPositive (timeout interval : τ)
  | capBelowInterval (cap interval : τ)

def PolicyFault.message {τ : Type} [Duration τ] : PolicyFault τ → String
  | notPositive timeout interval =>
    "Stage timeout and interval must be positive: " ++ Duration.text timeout ++ "/"
      ++ Duration.text interval
  | capBelowInterval cap interval =>
    "max_interval " ++ Duration.text cap ++ " is below interval " ++ Duration.text interval

inductive ProgressFault where
  | alreadyFailed (hostname next : String)
  | illegalStep (hostname : String) (current : Option String) (next : String)
  | loginLost (node : Int)
  /-- A failure of the program's own kind that is known by its text only. -/
  | reported (text : String)

def ProgressFault.message : ProgressFault → String
  | alreadyFailed hostname next => s!"{hostname}: cannot advance a failed run to {next}"
  | illegalStep hostname current next =>
    s!"{hostname}: illegal transition " ++ current.getD "START" ++ s!" -> {next}"
  | loginLost node => s!"Node {node} lost its login details before completion"
  | reported text => text

/-- An operation that a family does not offer. -/
inductive Unsupported where
  | suspend
  | resume
  deriving DecidableEq

def Unsupported.message : Unsupported → String
  | suspend => "suspending is not supported for bare metal instances"
  | resume => "resuming is not supported for bare metal instances"

/-! ## All failures -/

inductive Failure (τ : Type) where
  | fault (cause : Fault)
  | policy (cause : PolicyFault τ)
  | unsupported (cause : Unsupported)
  | exhausted (cause : Exhaustion)
  | timeout (cause : StageTimeout τ)
  | progress (cause : ProgressFault)
  | provider (cause : ProviderFailure)
  /-- A failure that is not of this program and that nothing here handles. -/
  | foreign (text : String)
  /-- A wait that used up the checks allowed for it before it came to an end. -/
  | unfinished

namespace Failure

variable {τ : Type}

/-- Failures of this program and of its providers, as against conversions that fail and foreign ones. -/
def isOwn : Failure τ → Bool
  | fault (.data _) => false
  | foreign _ => false
  | unfinished => false
  | _ => true

def message [Duration τ] : Failure τ → String
  | fault (.configuration cause) => cause.message
  | fault (.resolution cause) => cause.message
  | fault (.data .noItems) => "catalog items are required to build an index"
  | fault (.data _) => ""
  | policy cause => cause.message
  | unsupported cause => cause.message
  | exhausted cause => cause.message
  | timeout cause => cause.message
  | progress cause => cause.message
  | provider cause => cause.message
  | foreign text => text
  | unfinished => ""

end Failure

end Provision
