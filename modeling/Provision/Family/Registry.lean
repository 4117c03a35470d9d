import Provision.Catalog.Enumeration
import Provision.Family.Builtin

/-!
# The family registry

The registry knows which strategy serves a family. All its strategies cache
their catalogs in one and the same cache; a registry without a cache takes
that of the first strategy. A strategy is refused if its family is taken or
its cache is a different one, and then nothing changes.
-/

namespace Provision

/-- Which cache a strategy keeps its catalogs in. -/
abbrev CacheName := String

/-- What serves one family. -/
structure Strategy (τ : Type) where
  spec : FamilySpec τ
  catalog : CatalogSource
  selector : Selector
  machine : Machine τ
  cache : Option CacheName := none

namespace Strategy

variable {τ : Type}

def family (s : Strategy τ) : Int := s.spec.family

/-- Wires the parts of a family around one cache. -/
def build (spec : FamilySpec τ) (cache : CacheName) (session : String := "")
    (powerOffFirst : Bool := false) : Strategy τ :=
  let catalog := CatalogSource.cached spec.family session
  { spec
    catalog
    selector := { defaults := spec.orderDefaults, catalog := some catalog }
    machine :=
      { defaults := spec.orderDefaults
        policies := spec.policies
        requiresApproval := spec.requiresApproval
        supportsSuspend := spec.supportsSuspend
        powerOffFirst := powerOffFirst && spec.supportsPowerOff
        catalog := some catalog }
    cache := some cache }

/-- The profiles that the family's catalog allows, and why there are no more. -/
def profiles (s : Strategy τ) : Run τ Enumeration := do
  let catalog ← s.catalog.fetch
  let e := s.spec.rules.enumerate s.family catalog
  Run.logAll e.log
  pure e

end Strategy

structure Registry (τ : Type) where
  strategies : List (Strategy τ) := []
  cache : Option CacheName := none

namespace Registry

variable {τ : Type}

def size (r : Registry τ) : Nat := r.strategies.length

def find? (r : Registry τ) (family : Int) : Option (Strategy τ) :=
  r.strategies.find? (·.family == family)

def contains (r : Registry τ) (family : Int) : Bool := (r.find? family).isSome

/-- The registered families in the order of their registration. -/
def families (r : Registry τ) : List Int := r.strategies.map Strategy.family

def get (r : Registry τ) (family : Int) : Except Fault (Strategy τ) :=
  match r.find? family with
  | some s => .ok s
  | none =>
    .error (.configuration (.unknownFamily family (r.families.mergeSort fun a b => decide (a ≤ b))))

def register (r : Registry τ) (s : Strategy τ) : Except Fault (Registry τ) :=
  if r.contains s.family then .error (.configuration (.familyTaken s.family))
  else if r.cache.isSome && s.cache != r.cache then .error (.configuration (.foreignCache s.family))
  else .ok { strategies := r.strategies ++ [s], cache := if r.cache.isNone then s.cache else r.cache }

/-- Registers strategies one after the other. -/
def registerAll (r : Registry τ) : List (Strategy τ) → Except Fault (Registry τ)
  | [] => .ok r
  | s :: rest => do (← r.register s).registerAll rest

def builtRecord (r : Registry τ) : Log.Record :=
  { level := .debug, source := .registry
    message := "Registered server families: " ++ Text.bracketed (r.families.map toString) }

/-- The registry of all supported families. -/
def build [Duration τ] (config : Config τ) (cache : CacheName) : Run τ (Registry τ) := do
  let specs ← Run.ofExcept (FamilySpec.supported config)
  let strategies := specs.map fun spec =>
    Strategy.build spec cache config.session config.powerOffFirst
  let registry ← Run.ofFault (Registry.registerAll { cache := some cache } strategies)
  Run.log registry.builtRecord
  pure registry

end Registry

end Provision
