import Provision.Family.Registry
import Provision.Rest.Client

/-!
# The provisioning service

What callers see: the families, their profiles, and operations on nodes. Each
operation finds the strategy of the family and leaves the work to it.
Provisioning first selects a combination that the remote side accepts, then
orders with that combination and follows the order to a usable node.
-/

namespace Provision

structure Service (τ : Type) where
  registry : Registry τ

/-- A family as callers see it. -/
structure FamilySummary where
  id : Int
  name : String
  kind : NodeKind
  supportsSuspend : Bool

def Registry.summaries {τ : Type} (r : Registry τ) : List FamilySummary :=
  r.strategies.map fun s =>
    { id := s.spec.family, name := s.spec.name, kind := s.spec.kind
      supportsSuspend := s.spec.supportsSuspend }

namespace Service

variable {τ : Type}

/-- The cache of a registry that is built without naming one. -/
def ownCache : CacheName := "catalogs"

/-- A service over a registry, which is built if none is given. A cache given beside a registry must
be the registry's own. -/
def make [Duration τ] (config : Config τ) (registry : Option (Registry τ) := none)
    (cache : Option CacheName := none) : Run τ (Service τ) := do
  match registry with
  | none => pure ⟨← Registry.build config (cache.getD ownCache)⟩
  | some r =>
    if cache.isSome && r.cache != cache then Run.fail (.fault (.configuration .cacheMismatch))
    else pure ⟨r⟩

/-- A service that talks to the REST service of the configured account. -/
def ofConfig [Duration τ] (config : Config τ) : Run τ (Rest.Client × Service τ) := do
  if !config.account.isConfigured then Run.fail (.fault (.configuration .credentialsMissing))
  let client : Rest.Client :=
    { username := config.account.username, apiKey := config.account.apiKey
      endpoint := Rest.Endpoint.ofText config.account.endpoint }
  let service ← make config
  pure (client, service)

def strategy (s : Service τ) (family : Int) : Run τ (Strategy τ) :=
  Run.ofFault (s.registry.get family)

/-! ## Catalog -/

def families (s : Service τ) : List FamilySummary := s.registry.summaries

def hasCache (s : Service τ) : Bool := s.registry.cache.isSome

def inform (message : String) (family : Int) : Run τ Unit :=
  Run.log { level := .info, source := .service, message, fields := [(.family, .int family)] }

/-- Every profile that the family's catalog allows. -/
def profiles (s : Service τ) (family : Int) : Run τ (List Profile) := do
  let e ← (← s.strategy family).profiles
  match e.failure with
  | some fault => Run.fail (.fault fault)
  | none =>
    inform s!"Family {family} offers {e.profiles.length} hardware profile(s)" family
    pure e.profiles

/-- All candidates for the items of a profile. -/
def combinations (profile : Profile) : Except Fault String := Price.allCombinations profile.items

/-- The first of the candidates that the remote side accepts. -/
def select [Duration τ] (s : Service τ) (family : Int) (candidates : String) (template : Template) :
    Run τ String := do
  (← s.strategy family).selector.select candidates template

/-- Drops the cached catalogs of a family, or all. -/
def refresh (s : Service τ) (family : Option Int) : Run τ Nat := do
  if let some f := family then
    let _ ← s.strategy f
  if s.hasCache then Run.dropCatalogs family else pure 0

/-! ## Nodes -/

variable [Duration τ]

/-- Orders a node and waits until it is usable. -/
def provision (s : Service τ) (family : Int) (template : Template) : Run τ Provisioned := do
  let strategy ← s.strategy family
  inform s!"Provisioning {template.hostname} in family {family}" family
  let combination ← strategy.selector.select template.hardwareId template
  strategy.machine.provision template combination

def destroy (s : Service τ) (family node : Int) : Run τ Bool := do
  (← s.strategy family).machine.destroy node

def reboot (s : Service τ) (family node : Int) : Run τ Bool := do
  (← s.strategy family).machine.reboot node

def suspend (s : Service τ) (family node : Int) : Run τ Bool := do
  (← s.strategy family).machine.suspend node

def resume (s : Service τ) (family node : Int) : Run τ Bool := do
  (← s.strategy family).machine.resume node

/-- The nodes of the family's kind that are still billed. -/
def nodes (s : Service τ) (family : Int) : Run τ (List Node) := do
  let strategy ← s.strategy family
  let nodes ← Run.call (.listNodes strategy.spec.kind)
  pure (nodes.filter Node.isBilled)

def node? (s : Service τ) (family node : Int) : Run τ (Option Node) := do
  let strategy ← s.strategy family
  Run.call (.getNode strategy.spec.kind node)

end Service

end Provision
