import Provision.Value.Basic

/-!
# Nodes

What the remote inventory says about a node, and about the work that runs
against it. Ids are integers; all other fields are passed on as reported and
stay values.
-/

namespace Provision

/-- The kind of remote resource behind a family. -/
inductive NodeKind where
  | virtualGuest
  | hardwareServer
  deriving DecidableEq

def NodeKind.name : NodeKind → String
  | virtualGuest => "virtual_guest"
  | hardwareServer => "hardware_server"

structure Credentials where
  username : Value
  password : Value

structure Node where
  id : Int
  hostname : Value
  domain : Value := .text ""
  publicAddress : Value := .null
  privateAddress : Value := .null
  billingItem : Value := .null
  passwords : List Credentials := []
  datacenter : Value := .null
  privateOnly : Bool := false
  powerState : Value := .null

namespace Node

/-- The hostname with the domain, if there is one. -/
def fullName (node : Node) : Value :=
  if node.domain.truthy then .text (node.hostname.display ++ "." ++ node.domain.display)
  else node.hostname

/-- A node without billing item has been cancelled. -/
def isBilled (node : Node) : Bool := !node.billingItem.isNull

/-- Whether the node goes by a hostname in a domain; a domain left empty on either side fits any. -/
def goesBy (node : Node) (hostname domain : String) : Bool :=
  node.hostname.same (.text hostname)
    && (domain == "" || !node.domain.truthy || node.domain.same (.text domain))

/-- A credential and the addresses needed to reach the node; on a private network the private address is enough. -/
def isReachable (node : Node) (privateOnly : Bool) : Bool :=
  !node.passwords.isEmpty && node.privateAddress.truthy
    && (privateOnly || node.privateOnly || node.publicAddress.truthy)

def isHalted (node : Node) : Bool := node.powerState.same (.text "HALTED")

end Node

/-- A unit of work that runs against a node. -/
structure Transaction where
  name : Value
  elapsedSeconds : Value := .null
  /-- In minutes. -/
  averageDuration : Value := .null

end Provision
