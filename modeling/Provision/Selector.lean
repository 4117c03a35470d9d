import Provision.World

/-!
# Selection of a price combination

Candidates are verified with the remote side in order, and the first one it
accepts is taken. Only a rejection leads on to the next candidate; any other
failure ends the selection.
-/

namespace Provision

structure Selector where
  defaults : OrderDefaults
  catalog : Option CatalogSource := none

namespace Selector

variable {τ : Type} [Duration τ]

/-- The catalog, where extras are given as items and it can be had. -/
def catalogFor (defaults : OrderDefaults) (source : Option CatalogSource) : Run τ (Option Catalog) :=
  match source with
  | some source => if defaults.extraItems.isEmpty then pure none else do pure (some (← source.fetch))
  | none => pure none

def rejectedRecord (family : Int) (candidate reason : String) : Log.Record :=
  { level := .info, source := .selector
    message := s!"Failed verifying hardware price ID {candidate}: {reason}. "
      ++ "Retrying with alternative price id."
    fields := [(.family, .int family)] }

def verifiedRecord (family : Int) (candidate hostname : String) : Log.Record :=
  { level := .info, source := .selector
    message := s!"Verified price combination {candidate} for {hostname}"
    fields := [(.family, .int family)] }

/-- Verifies the candidates that remain. `all` are the candidates from the start, `rejections` the
rejections so far, the latest in front. -/
def verifyFrom (s : Selector) (template : Template) (catalog : Option Catalog)
    (all : List String) : List (String × String) → List String → Run τ (String × Order)
  | rejections, [] => Run.fail (.exhausted ⟨all, rejections.reverse⟩)
  | rejections, candidate :: rest => do
    let order ← Run.ofFault (template.order s.defaults candidate catalog)
    Run.attempt (Run.call (.verifyOrder order)) fun
      | .ok _ => do
        Run.log (verifiedRecord s.defaults.family candidate template.hostname)
        pure (candidate, order)
      | .error (.provider f) =>
        if f.trouble = .rejection then do
          Run.log (rejectedRecord s.defaults.family candidate f.text)
          s.verifyFrom template catalog all ((candidate, f.text) :: rejections) rest
        else Run.fail (.provider f)
      | .error e => Run.fail e

/-- The first candidate that the remote side accepts, with the order it accepted. -/
def selectOrder (s : Selector) (combinations : String) (template : Template) :
    Run τ (String × Order) := do
  let candidates := Price.split combinations
  let catalog ← catalogFor s.defaults s.catalog
  s.verifyFrom template catalog candidates [] candidates

def select (s : Selector) (combinations : String) (template : Template) : Run τ String := do
  let (candidate, _) ← s.selectOrder combinations template
  pure candidate

end Selector

end Provision
