import Provision.Catalog.Rules

/-!
# Hardware profiles

A profile is one complete choice of catalog items for a family, with the
facts a caller chooses by: processor, memory, disks and the hardware id.

The disks of a profile are its items with a disk category, in profile order.
All of them are volumes. The additional disks are what is left after the
first occurrence of the primary disk is taken away, each entry once.
-/

namespace Provision

/-- Whether a disk is attached over the storage network. -/
inductive VolumeKind where
  | san
  | attached
  deriving DecidableEq

def VolumeKind.name : VolumeKind → String
  | san => "SAN"
  | attached => "LOCAL"

structure Volume where
  item : Int
  size : Option Float
  kind : VolumeKind
  bootable : Bool

structure Profile where
  family : Int
  items : List Item
  /-- The hardware id offered to callers. -/
  id : String
  itemIds : String
  /-- The first price of every item. -/
  template : String
  cores : Float
  speed : Float
  ram : Option Float
  volumes : List Volume
  additionalDisks : List Item

/-- Which item fills which role. -/
abbrev Roles := List (String × Item)

/-- The item in a role, the last one if the role is given twice. -/
def Roles.item? (roles : Roles) (role : String) : Option Item :=
  (roles.reverse.find? (·.1 == role)).map (·.2)

namespace Rules

/-! ## Disks -/

def isDisk (rules : Rules) (item : Item) : Bool := item.categories.any rules.disks.accepts

def disksOf (rules : Rules) (items : List Item) : List Item := items.filter rules.isDisk

def volume (rules : Rules) (item : Item) : Volume :=
  { item := item.id
    size := item.capacity
    kind := if Text.holds ['S', 'A', 'N'] item.description.toList then .san else .attached
    bootable := item.hasCategory rules.bootDisk }

/-- Without the first occurrence of an entry. -/
def withoutFirst (entry : Item) : List Item → List Item
  | [] => []
  | item :: rest => if item.isEntry entry then rest else item :: withoutFirst entry rest

/-- Every entry once, at its first occurrence, apart from those seen before. -/
def entriesFrom (seen : List Item) : List Item → List Item
  | [] => []
  | item :: rest =>
    if seen.any item.isEntry then entriesFrom seen rest
    else item :: entriesFrom (item :: seen) rest

/-- The disks other than the first occurrence of the primary one, each entry once. -/
def additionalDisks (rules : Rules) (items : List Item) (primary : Option Item) : List Item :=
  let disks := rules.disksOf items
  entriesFrom [] (match primary with
    | some entry => withoutFirst entry disks
    | none => disks)

/-! ## Building a profile -/

/-- The memory of a profile: the processor's, or the capacity of the memory item. -/
def ramOf (rules : Rules) (cpu : Cpu) (roles : Roles) : Except Fault (Option Float) :=
  if rules.ramFromCpu then .ok cpu.ram
  else match roles.item? "ram" with
    | none => .error (.resolution .noRamItem)
    | some item => .ok (some (match item.capacity with
      | some x => if x == 0 then 0 else x
      | none => 0))

def hardwareId (rules : Rules) (items : List Item) : Except Fault String :=
  match rules.strategy with
  | .multi => Price.allCombinations items
  | .single => Price.template items

/-- Describes items as a profile of a family. -/
def buildProfile (rules : Rules) (family : Int) (items : List Item) (roles : Roles) :
    Except Fault Profile := do
  let cpu ← rules.cpu.describe (roles.item? "cpu")
  let ram ← rules.ramOf cpu roles
  let id ← rules.hardwareId items
  let template ← Price.template items
  pure
    { family, items, id, template, ram
      itemIds := Price.itemIds items
      cores := cpu.cores
      speed := cpu.speed
      volumes := (rules.disksOf items).map rules.volume
      additionalDisks := rules.additionalDisks items (roles.item? "disk0") }

/-! ## Configured disks and controllers -/

/-- Finds a configured id in a pool, first as a price, then as an item. -/
def findConfigured (family : Int) (text : String) (pool : List Item) :
    Except Fault (Option Item) :=
  match Text.readInteger? text with
  | none => .error (.configuration (.malformedId text family))
  | some n =>
    match pool.find? (·.hasPrice n) with
    | some item => .ok (some item)
    | none => .ok (pool.find? (·.id == n))

/-- The configured extra disks, in configured order. -/
def extraDiskItems (rules : Rules) (family : Int) (catalog : Catalog) :
    Except Fault (List Item) :=
  if rules.extraDiskIds.isEmpty then .ok []
  else match rules.extraDisks with
    | none => .error (.configuration (.noExtraDisks family))
    | some e =>
      let pool := catalog.inCategoriesMatching e.pattern
      rules.extraDiskIds.mapM fun text => do
        match ← findConfigured family text pool with
        | some item => pure item
        | none => .error (.resolution (.extraDiskMissing text e.text))

/-- The configured disk controller, if the family needs one. -/
def controllerItems (rules : Rules) (family : Int) (catalog : Catalog) :
    Except Fault (List Item) :=
  match rules.controllerCategory with
  | none => .ok []
  | some code => do
    let found ← match rules.controllerId with
      | some text =>
        if text == "" then pure none else findConfigured family text (catalog.inCategory code)
      | none => pure none
    match found with
    | some item => pure [item]
    | none => .error (.configuration (.controllerMissing rules.controllerId family))

end Rules

end Provision
