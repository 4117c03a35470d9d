import Provision.Order

/-!
# Reading the remote side's records

Items, nodes, transactions and receipts as the REST service writes them. Its
answers are JSON of no guaranteed shape: an absent or empty field is taken as
missing where that makes sense, and everything else that does not fit is a
data fault, the first one in reading order.

A reported item keeps its texts as values. It becomes a catalog item only if
they are texts indeed (`ReportedItem.item`).
-/

namespace Provision.Rest

/-! ## Access to fields -/

/-- A field of an object, null if absent. Only objects have fields. -/
def field (key : String) : Value → Except DataFault Value
  | .object fields => .ok (Value.ofOption (Value.lookup? key fields))
  | _ => .error .fieldless

/-- A field of an object, `fallback` if absent. -/
def fieldOr (key : String) (fallback : Value) : Value → Except DataFault Value
  | .object fields => .ok ((Value.lookup? key fields).getD fallback)
  | _ => .error .fieldless

/-- A field that must be there. -/
def required (key : String) : Value → Except DataFault Value
  | .object fields =>
    match Value.lookup? key fields with
    | some v => .ok v
    | none => .error .fieldMissing
  | _ => .error .wrongKind

/-- A value, or an empty object in place of an empty value. -/
def orObject (v : Value) : Value := if v.truthy then v else .object []

/-- What a value consists of: entries, keys or characters. An empty value has no parts. -/
def parts (v : Value) : Except DataFault (List Value) :=
  if v.truthy then
    match v with
    | .list entries => .ok entries
    | .object fields => .ok (fields.map fun f => .text f.1)
    | .text s => .ok (s.toList.map fun c => .text (String.ofList [c]))
    | _ => .error .wrongKind
  else .ok []

/-- A field that consists of parts. -/
def fieldParts (key : String) (v : Value) : Except DataFault (List Value) := do
  parts (← field key v)

/-! ## Numbers -/

def toInteger : Value → Except DataFault Int
  | .bool b => .ok (if b then 1 else 0)
  | .int n => .ok n
  | .real x =>
    match Decimal.anatomy x, Decimal.truncate? x with
    | .notANumber, _ => .error .notNumeric
    | _, some n => .ok n
    | _, none => .error .tooLarge
  | .text s =>
    match Text.readInteger? s with
    | some n => .ok n
    | none => .error .notNumeric
  | _ => .error .wrongKind

def toDouble : Value → Except DataFault Float
  | .bool b => .ok (if b then 1 else 0)
  | .int n =>
    match Decimal.ofInt? n with
    | some x => .ok x
    | none => .error .tooLarge
  | .real x => .ok x
  | .text s =>
    match Decimal.read? s with
    | some x => .ok x
    | none => .error .notNumeric
  | _ => .error .wrongKind

/-! ## Items -/

/-- An item as the remote side reports it. -/
structure ReportedItem where
  id : Int
  description : Value
  capacity : Option Float
  units : Value
  categories : List Value
  prices : List Int

/-- The codes that categories carry, without empty ones. -/
def ownCodes (categories : List Value) : Except DataFault (List Value) :=
  (categories.mapM (field "categoryCode")).map fun codes => codes.filter Value.truthy

/-- The codes of the categories of a price, added to those found so far unless they are among them. -/
def priceCodes (found : List Value) (price : Value) : Except DataFault (List Value) := do
  (← fieldParts "categories" price).foldlM
    (fun found category => do
      let code ← field "categoryCode" category
      pure (if code.truthy && !found.any (·.same code) then found ++ [code] else found))
    found

/-- The codes of an item: its own, or if it has none those of its prices. -/
def itemCodes (data prices : Value) : Except DataFault (List Value) := do
  let own ← ownCodes (← fieldParts "categories" data)
  if own.isEmpty then (← parts prices).foldlM priceCodes [] else pure own

/-- The capacity, unless it is null or the empty text. -/
def capacityOf : Value → Except DataFault (Option Float)
  | .null => .ok none
  | .text s => if s == "" then .ok none else (toDouble (.text s)).map some
  | v => (toDouble v).map some

def priceId (price : Value) : Except DataFault Int := do toInteger (← required "id" price)

def readItem (data : Value) : Except DataFault ReportedItem := do
  let prices ← field "prices" data
  let categories ← itemCodes data prices
  let capacity ← field "capacity" data
  let id ← toInteger (← required "id" data)
  let description ← field "description" data
  let capacity ← capacityOf capacity
  let units ← field "units" data
  let prices ← (← parts prices).mapM priceId
  pure
    { id, capacity, units, categories, prices
      description := if description.truthy then description else .text "" }

def textOf : Value → Except DataFault String
  | .text s => .ok s
  | _ => .error .wrongKind

/-- The catalog item of a reported item whose description and codes are texts. -/
def ReportedItem.item (r : ReportedItem) : Except DataFault Item := do
  let description ← textOf r.description
  let categories ← r.categories.mapM textOf
  pure { id := r.id, description, capacity := r.capacity, units := r.units, categories, prices := r.prices }

def readItems (answer : Value) : Except DataFault (List ReportedItem) := do
  (← parts answer).mapM readItem

/-! ## Nodes and transactions -/

def readCredentials (data : Value) : Except DataFault Credentials := do
  let username ← fieldOr "username" (.text "") data
  let password ← fieldOr "password" (.text "") data
  pure { username, password }

def readNode (data : Value) : Except DataFault Node := do
  let system ← field "operatingSystem" data
  let passwords ← (← fieldParts "passwords" (orObject system)).mapM readCredentials
  let billing ← field "billingItem" data
  let datacenter ← field "datacenter" data
  let power ← field "powerState" data
  let id ← toInteger (← required "id" data)
  let hostname ← fieldOr "hostname" (.text "") data
  let domain ← fieldOr "domain" (.text "") data
  let publicAddress ← field "primaryIpAddress" data
  let privateAddress ← field "primaryBackendIpAddress" data
  let billingItem ← field "id" (orObject billing)
  let datacenter ← field "name" (orObject datacenter)
  let privateOnly ← field "privateNetworkOnlyFlag" data
  let powerState ← field "keyName" (orObject power)
  pure
    { id, hostname, domain, publicAddress, privateAddress, billingItem, passwords, datacenter
      privateOnly := privateOnly.truthy, powerState }

def readNodes (answer : Value) : Except DataFault (List Node) := do
  (← parts answer).mapM readNode

def readTransaction (data : Value) : Except DataFault Transaction := do
  let status ← field "transactionStatus" data
  let statusName ← field "name" (orObject status)
  let ownName ← field "name" data
  let elapsedSeconds ← field "elapsedSeconds" data
  let averageDuration ← field "averageDuration" (orObject status)
  let name :=
    if statusName.truthy then statusName
    else if ownName.truthy then ownName
    else .text ""
  pure { name, elapsedSeconds, averageDuration }

/-! ## Answers -/

/-- The key under which orders and receipts list nodes of a kind. -/
def nodesKey : NodeKind → String
  | .virtualGuest => "virtualGuests"
  | .hardwareServer => "hardware"

/-- The node in an entry of a receipt; an entry without id stands for none. -/
def readReceiptNode (entry : Value) : Except DataFault (Option Node) := do
  let id ← field "id" entry
  if id.isNull then pure none else (readNode entry).map some

def readReceipt (kind : NodeKind) (answer : Value) : Except DataFault (Option Receipt) :=
  if answer.truthy then do
    let details ← field "orderDetails" answer
    let nodes ← (← fieldParts (nodesKey kind) (orObject details)).mapM readReceiptNode
    let orderId ← field "orderId" answer
    pure (some { orderId, nodes := nodes.filterMap id })
  else pure none

end Provision.Rest
