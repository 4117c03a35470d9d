import Provision.Catalog.Profile
import Provision.Log.Record

/-!
# Enumeration of profiles

All profiles that a catalog allows under a family's rules: the product of the
slots' candidates, the first slot varying slowest, each combination completed
by the extra disks and the controller. An optional slot without candidates
stays empty; a required one ends the enumeration before it begins.

A combination that the catalog cannot describe is skipped with a warning. Any
other fault ends the enumeration; what was found before it stays.
-/

namespace Provision

structure Enumeration where
  profiles : List Profile := []
  log : List Log.Record := []
  failure : Option Fault := none

namespace Rules

/-- What may stand in a slot: one of its candidates, or nothing if an optional slot has none. -/
def slotChoices? (catalog : Catalog) (slot : Slot) : Option (List (Option Item)) :=
  match slot.candidates catalog with
  | [] => if slot.optional then some [none] else none
  | items => some (items.map some)

/-- The choices of all slots, or the first required slot that has none. -/
def choices (catalog : Catalog) : List Slot → Except Slot (List (List (Option Item)))
  | [] => .ok []
  | slot :: rest =>
    match slotChoices? catalog slot with
    | none => .error slot
    | some items => (choices catalog rest).map (items :: ·)

/-- The items of a combination in slot order. -/
def chosenItems (combination : List (Option Item)) : List Item := combination.filterMap id

/-- The roles that the slots give to a combination. -/
def chosenRoles (slots : List Slot) (combination : List (Option Item)) : Roles :=
  (slots.zip combination).filterMap fun (slot, item) => item.map (slot.role, ·)

def emptySlotRecord (family : Int) (slot : Slot) : Log.Record :=
  { level := .info, source := .profiles
    message := s!"No items for required {slot.role} slot in family {family}"
    fields := [(.family, .int family)] }

def skipRecord (family : Int) (items : List Item) (cause : ResolutionFault) : Log.Record :=
  { level := .warning, source := .profiles
    message := "Skipping hardware profile " ++ Price.itemIds items ++ ": " ++ cause.message
    fields := [(.family, .int family)] }

/-- The profiles of the combinations, each completed by `extras`. -/
def profilesOf (rules : Rules) (family : Int) (extras : List Item) :
    List (List (Option Item)) → Enumeration
  | [] => {}
  | combination :: rest =>
    let items := chosenItems combination ++ extras
    match rules.buildProfile family items (chosenRoles rules.slots combination) with
    | .ok profile =>
      let e := profilesOf rules family extras rest
      { e with profiles := profile :: e.profiles }
    | .error (.resolution cause) =>
      let e := profilesOf rules family extras rest
      { e with log := skipRecord family items cause :: e.log }
    | .error fault => { failure := some fault }

/-- Extra disks and controller, which complete every combination. -/
def extras (rules : Rules) (family : Int) (catalog : Catalog) : Except Fault (List Item) := do
  let disks ← rules.extraDiskItems family catalog
  let controller ← rules.controllerItems family catalog
  pure (disks ++ controller)

/-- Every profile of a family that the catalog allows. -/
def enumerate (rules : Rules) (family : Int) (catalog : Catalog) : Enumeration :=
  match choices catalog rules.slots with
  | .error slot => { log := [emptySlotRecord family slot] }
  | .ok lists =>
    match rules.extras family catalog with
    | .error fault => { failure := some fault }
    | .ok extras => rules.profilesOf family extras (product lists)

end Rules

end Provision
