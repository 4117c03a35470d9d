import Provision.Fault

/-!
# Catalog items

An item is something a package sells: it is tagged with category codes and
sold under one or more interchangeable price ids. Two items are equal for
every lookup when their ids are. Whether two are the very same entry of one
listing is a different question, which `place` answers: it is the position at
which the catalog lists the item.
-/

namespace Provision

structure Item where
  id : Int
  description : String := ""
  capacity : Option Float := none
  units : Value := .null
  categories : List String := []
  prices : List Int := []
  place : Nat := 0

namespace Item

def hasCategory (item : Item) (code : String) : Bool := item.categories.contains code

def hasPrice (item : Item) (price : Int) : Bool := item.prices.contains price

/-- The first listed price. -/
def firstPrice (item : Item) : Except Fault Int :=
  match item.prices with
  | [] => .error (.resolution (.noPrice item.id item.description))
  | price :: _ => .ok price

/-- Whether two items are one entry of their listing. -/
def isEntry (a b : Item) : Bool := a.place == b.place

/-- The items with the places of a listing, the first at `n`. -/
def numberedFrom (n : Nat) : List Item → List Item
  | [] => []
  | item :: rest => { item with place := n } :: numberedFrom (n + 1) rest

theorem firstPrice_eq_ok_iff {item : Item} {price : Int} :
    item.firstPrice = .ok price ↔ item.prices.head? = some price := by
  unfold firstPrice
  cases item.prices <;> simp

end Item

end Provision
