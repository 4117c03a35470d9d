import Provision.Catalog.Price
import Provision.Node

/-!
# Orders

A caller asks for a node with a template; the family adds its defaults. With a
price combination chosen, both become an order. Its prices are the price of
the operating system (unless an image template brings one), the hardware
prices of the combination, and the family's standard extras.
-/

namespace Provision

structure Template where
  hostname : String
  domain : String
  hardwareId : String
  location : Option String := none
  imagePrice : Option Int := none
  imageTemplate : Option Int := none
  imageTemplateGlobal : Option String := none
  quantity : Int := 1
  hourly : Option Bool := none
  privateOnly : Bool := false
  postInstallScript : Option String := none
  existingNode : Option Int := none

def Template.usesImageTemplate (t : Template) : Bool :=
  t.imageTemplate.isSome || t.imageTemplateGlobal.any (· != "")

/-- Standard extras are price ids, or item ids that are ordered at their first price. -/
structure OrderDefaults where
  family : Int
  kind : NodeKind
  extraPrices : List Int := []
  extraItems : List Int := []
  hourly : Bool := false

/-- What an order is for: a new host, or an existing node. -/
structure OrderTarget where
  hostname : String := ""
  domain : String := ""
  id : Option Int := none
  deriving DecidableEq

structure Order where
  family : Int
  location : Option String
  prices : List Int
  targets : List OrderTarget
  kind : NodeKind := .virtualGuest
  quantity : Int := 1
  hourly : Bool := false
  imageTemplate : Option Int := none
  imageTemplateGlobal : Option String := none
  scripts : List String := []
  deriving DecidableEq

/-- The node that an order brought about, and the order's own id. -/
structure Receipt where
  orderId : Value := .null
  nodes : List Node := []

namespace OrderDefaults

/-- The first price of a standard item. -/
def itemPrice (defaults : OrderDefaults) (catalog : Catalog) (item : Int) : Except Fault Int :=
  match catalog.withId? item with
  | none => .error (.resolution (.standardItemMissing item defaults.family))
  | some found => found.firstPrice

/-- The prices of the standard extras; the catalog is needed for extras given as items. -/
def allExtraPrices (defaults : OrderDefaults) (catalog : Option Catalog) : Except Fault (List Int) :=
  if defaults.extraItems.isEmpty then .ok defaults.extraPrices
  else match catalog with
    | none => .error (.configuration (.catalogMissing defaults.family))
    | some catalog => do
      let prices ← defaults.extraItems.mapM (defaults.itemPrice catalog)
      pure (defaults.extraPrices ++ prices)

end OrderDefaults

namespace Template

/-- The operating system's price, unless an image template is used. -/
def imagePrices (t : Template) : List Int :=
  if t.usesImageTemplate then [] else t.imagePrice.toList

def target (t : Template) : OrderTarget :=
  match t.existingNode with
  | some id => { id := some id }
  | none => { hostname := t.hostname, domain := t.domain }

/-- The order for one price combination. -/
def order (t : Template) (defaults : OrderDefaults) (combination : String)
    (catalog : Option Catalog) : Except Fault Order := do
  let hardware ← Price.readIds combination
  let extras ← defaults.allExtraPrices catalog
  pure
    { family := defaults.family
      location := t.location
      prices := t.imagePrices ++ hardware ++ extras
      targets := [t.target]
      kind := defaults.kind
      quantity := t.quantity
      hourly := t.hourly.getD defaults.hourly
      imageTemplate := t.imageTemplate
      imageTemplateGlobal := t.imageTemplateGlobal
      scripts := (t.postInstallScript.filter (· != "")).toList }

end Template

end Provision
