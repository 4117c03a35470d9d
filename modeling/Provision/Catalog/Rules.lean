import Provision.Catalog.Price

/-!
# Profile rules

What a family's hardware profiles are made of. A slot is a position to be
filled by one catalog item; a processor rule says how the processor item is
described; the remaining rules concern disks and the external hardware id.

Slots, processor rules and the rules as a whole are built by functions that
check them, so that everything wrong with a family's configuration shows
before the first catalog is looked at.
-/

namespace Provision

/-! ## Slots -/

structure Slot where
  role : String
  category : Option String := none
  description : Option Expression := none
  optional : Bool := false

namespace Slot

/-- A slot needs a category or a description pattern. -/
def make (role : String) (category description : Option String) (optional : Bool) :
    Except Fault Slot :=
  if category.isNone && description.isNone then .error (.configuration (.slotWithoutSource role))
  else do
    let description ← Expression.ofText? description
    pure { role, category, description, optional }

/-- The items that can fill the slot: those of its category, or all if it has none, narrowed by its pattern. -/
def candidates (slot : Slot) (catalog : Catalog) : List Item :=
  let items := match slot.category with
    | some code => if code == "" then catalog.items else catalog.inCategory code
    | none => catalog.items
  match slot.description with
  | some e => items.filter fun item => e.accepts item.description
  | none => items

end Slot

/-! ## Processors -/

/-- What is known of a processor, and of the memory where its item names it. -/
structure Cpu where
  cores : Float
  speed : Float
  ram : Option Float := none

inductive CpuRule where
  /-- Cores from the capacity, speed from the last group of a pattern. -/
  | capacity (speed : Expression) (default : Float)
  /-- Cores, speed and memory from three groups of a pattern. -/
  | bareMetal (line : Expression)
  /-- A processor that the package implies. -/
  | fixed (cores speed : Float)

namespace CpuRule

/-- The speed in descriptions such as 2 x 2.0 GHz Cores. -/
def defaultSpeedPattern : String := "(Private )?[0-9]+ x ([.0-9]+) GHz Core[s]?"

def defaultBareMetalPattern : String :=
  "([0-9]+) x ([.0-9]+) GHz Core Bare Metal Instance - ([.0-9]+) GB Ram"

def makeCapacity (speed : String) (default : Float) : Except Fault CpuRule :=
  (Expression.ofText speed).map fun e => .capacity e default

/-- The pattern needs at least three groups. -/
def makeBareMetal (line : String) : Except Fault CpuRule := do
  let e ← Expression.ofText line
  if e.pattern.groups < 3 then .error (.configuration (.groupsMissing line))
  else .ok (.bareMetal e)

/-- The pattern of a leading number of cores: blanks, perhaps the word Private, digits, a blank and an x. -/
def coreCount : Pattern :=
  let blanks := Pattern.times true 0 none (.char { ranges := [.blank true] })
  let word := Pattern.times true 0 (some 1)
    (Pattern.sequence ("Private ".toList.map fun c => .char (.single c)))
  let digits := Pattern.times true 1 none (.char { ranges := [.between '0' '9'] })
  Pattern.sequence [blanks, word, .group 1 digits, .char (.single ' '), .char (.single 'x')]

/-- The number that a group holds. -/
def groupNumber (held : Option (List Char)) : Except Fault Float :=
  match held with
  | none => .error (.data .wrongKind)
  | some cs =>
    match Decimal.read? (String.ofList cs) with
    | some x => .ok x
    | none => .error (.data .notNumeric)

/-- The capacity, else the number of cores that the description begins with, else zero. -/
def cores (item : Item) : Except Fault Float :=
  match item.capacity with
  | some x => .ok x
  | none =>
    match coreCount.matchFront? item.description with
    | some c => groupNumber (c.group? 1)
    | none => .ok 0

/-- The speed in the group that closed last; the default without match, group or text. -/
def speedOf (e : Expression) (default : Float) (description : String) : Except Fault Float :=
  match (e.pattern.matchWhole? description).bind Cursor.lastGroup? with
  | none | some [] => .ok default
  | some cs => groupNumber (some cs)

/-- The processor that an item is described as. -/
def describe (rule : CpuRule) (item : Option Item) : Except Fault Cpu :=
  match rule, item with
  | .fixed cores speed, _ => .ok { cores, speed }
  | _, none => .error (.resolution .noCpuItem)
  | .capacity e default, some item => do
    let speed ← speedOf e default (Text.trim item.description)
    let cores ← cores item
    pure { cores, speed }
  | .bareMetal e, some item =>
    let description := Text.trim item.description
    match e.pattern.matchWhole? description with
    | none => .error (.resolution (.undescribedCpu description e.text))
    | some c => do
      let cores ← match item.capacity with
        | some x => .ok x
        | none => groupNumber (c.group? 1)
      let speed ← groupNumber (c.group? 2)
      let ram ← groupNumber (c.group? 3)
      pure { cores, speed, ram := some ram }

end CpuRule

/-! ## Rules -/

/-- Whether a profile offers one candidate as its hardware id or all of them. -/
inductive HardwareIdStrategy where
  | single
  | multi
  deriving DecidableEq

def HardwareIdStrategy.name : HardwareIdStrategy → String
  | single => "single"
  | multi => "multi"

structure Rules where
  slots : List Slot
  cpu : CpuRule
  bootDisk : String
  disks : Expression
  ramFromCpu : Bool := false
  strategy : HardwareIdStrategy := .single
  extraDisks : Option Expression := none
  extraDiskIds : List String := []
  controllerCategory : Option String := none
  controllerId : Option String := none

namespace Rules

/-- What rules are made of beside slots and processor rule, patterns still as texts. -/
structure Settings where
  bootDisk : String
  disks : String
  ramFromCpu : Bool := false
  strategy : HardwareIdStrategy := .single
  extraDisks : Option String := none
  extraDiskIds : List String := []
  controllerCategory : Option String := none
  controllerId : Option String := none

/-- The roles of the slots must differ. -/
def make (slots : List Slot) (cpu : CpuRule) (s : Settings) : Except Fault Rules :=
  let roles := slots.map Slot.role
  if (distinct roles).length != roles.length then .error (.configuration (.duplicateRoles roles))
  else do
    let disks ← Expression.ofText s.disks
    let extraDisks ← Expression.ofText? s.extraDisks
    pure { slots, cpu, disks, extraDisks, bootDisk := s.bootDisk, ramFromCpu := s.ramFromCpu,
           strategy := s.strategy, extraDiskIds := s.extraDiskIds,
           controllerCategory := s.controllerCategory, controllerId := s.controllerId }

end Rules

end Provision
