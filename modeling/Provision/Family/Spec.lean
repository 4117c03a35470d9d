import Provision.Catalog.Rules
import Provision.Config
import Provision.Machine

/-!
# Server families

A family is a package of the provider together with everything that tells it
apart from other families: the rules of its profiles, what is added to its
orders, the timing of its stages, and what can be done with its nodes.

`FamilySpec.configured` applies the operator's settings to a family. A stage
without a setting keeps its policy; one with a setting gets a policy that is
checked again, its cap raised to the interval where it would be below.
-/

namespace Provision

structure FamilySpec (τ : Type) where
  family : Int
  name : String
  kind : NodeKind
  rules : Rules
  policies : StagePolicies τ
  extraPrices : List Int := []
  extraItems : List Int := []
  hourly : Bool := true
  requiresApproval : Bool := true
  supportsSuspend : Bool := false
  supportsPowerOff : Bool := false

namespace StagePolicies

variable {τ : Type}

/-- The policy of a stage whose timing can be set. -/
def get? (p : StagePolicies τ) : Stage → Option (StagePolicy τ)
  | .orderApproved => some p.orderApproved
  | .transactionsStarted => some p.transactionsStarted
  | .transactionsEnded => some p.transactionsEnded
  | .loginReady => some p.loginReady
  | _ => none

end StagePolicies

namespace FamilySpec

variable {τ : Type}

def orderDefaults (s : FamilySpec τ) : OrderDefaults :=
  { family := s.family, kind := s.kind, extraPrices := s.extraPrices, extraItems := s.extraItems
    hourly := s.hourly }

variable [Duration τ]

/-- A policy with a timeout and an interval of its own, where they are set. -/
def overridden (p : StagePolicy τ) (timeout interval : Option τ) :
    Except (PolicyFault τ) (StagePolicy τ) :=
  if timeout.isNone && interval.isNone then .ok p
  else
    let next := interval.getD p.interval
    let cap := p.cap.map fun c => if Duration.below c next then next else c
    StagePolicy.make (timeout.getD p.timeout) next cap p.backoff

/-- The policies with the settings of a configuration. -/
def configuredPolicies (p : StagePolicies τ) (c : Config τ) :
    Except (PolicyFault τ) (StagePolicies τ) := do
  let change (stage : Stage) (policy : StagePolicy τ) :=
    overridden policy (c.timeoutOf stage) (c.intervalOf stage)
  let orderApproved ← change .orderApproved p.orderApproved
  let transactionsStarted ← change .transactionsStarted p.transactionsStarted
  let transactionsEnded ← change .transactionsEnded p.transactionsEnded
  let loginReady ← change .loginReady p.loginReady
  pure { p with orderApproved, transactionsStarted, transactionsEnded, loginReady }

/-- The family with the settings of a configuration. -/
def configured (s : FamilySpec τ) (c : Config τ) : Except (PolicyFault τ) (FamilySpec τ) := do
  let policies ← configuredPolicies s.policies c
  pure { s with policies, hourly := c.hourly.getD s.hourly }

end FamilySpec

end Provision
