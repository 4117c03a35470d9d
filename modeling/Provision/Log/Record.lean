import Provision.Value.Basic

/-!
# Log records

What a run leaves in the log: a level, the part of the program that speaks, a
message, and the fields that say which run it is about. `Record.context` is the
view that every output shows: the fields in a fixed order, empty ones left out.
-/

namespace Provision.Log

inductive Level where
  | debug
  | info
  | warning
  | error
  deriving DecidableEq

/-- The rank of a level among all levels, which are numbers. -/
def Level.rank : Level → Int
  | debug => 10
  | info => 20
  | warning => 30
  | error => 40

/-- The part of the program that writes a record. -/
inductive Source where
  | cache
  | profiles
  | selector
  | polling
  | transactions
  | machine
  | registry
  | service
  deriving DecidableEq

def Source.path : Source → String
  | cache => "catalog.cache"
  | profiles => "catalog.profiles"
  | selector => "provisioning.selector"
  | polling => "provisioning.polling"
  | transactions => "provisioning.transactions"
  | machine => "provisioning.state_machine"
  | registry => "families.registry"
  | service => "service"

/-! ## Fields -/

/-- What a record may say about the run it belongs to. -/
inductive Field where
  | family
  | hostname
  | order
  | node
  | stage
  | reason
  deriving DecidableEq

/-- The fields in the order in which they are shown. -/
def Field.all : List Field := [family, hostname, order, node, stage, reason]

def Field.name : Field → String
  | family => "family_id"
  | hostname => "hostname"
  | order => "order_id"
  | node => "node_id"
  | stage => "stage"
  | reason => "reason"

def Field.ofName? (name : String) : Option Field := Field.all.find? (·.name == name)

abbrev Fields := List (Field × Value)

/-- The value of a field; a later entry counts before an earlier one. -/
def Fields.get (fields : Fields) (f : Field) : Value :=
  match fields.reverse.find? (·.1 == f) with
  | some (_, v) => v
  | none => .null

/-- Neither null nor the empty text. -/
def isShown : Value → Bool
  | .null => false
  | .text s => s != ""
  | _ => true

/-- The fields that have something to show, in order. -/
def Fields.shown (fields : Fields) : List (String × Value) :=
  Field.all.filterMap fun f =>
    let v := fields.get f
    if isShown v then some (f.name, v) else none

/-! ## Records -/

structure Record where
  level : Level
  source : Source
  message : String
  fields : Fields := []

def Record.context (r : Record) : List (String × Value) := r.fields.shown

end Provision.Log
