import Provision.Catalog.Index
import Provision.Text.Pieces

/-!
# Price combinations

A hardware id is a text of price ids: one per item, in item order, joined
with commas. The long form lists several such candidates, joined with
semicolons, one for every way to choose a price for each item. An item that
occurs more than once takes the same price everywhere, and the prices are
those of its first occurrence.

`combinations` goes through the prices of each distinct item in turn, the
first item varying slowest, and writes every choice into a template that holds
the ids of the items. A place of the template is written once, so that a price
id is never mistaken for the id of another item. `split` and `readIds` are the
way back.
-/

namespace Provision

/-- All ways to take one element of each list, the first list varying slowest. -/
def product {α : Type} : List (List α) → List (List α)
  | [] => [[]]
  | xs :: rest =>
    let tails := product rest
    xs.flatMap fun x => tails.map (x :: ·)

namespace Price

/-! ## Writing -/

/-- Ids joined with commas. -/
def writeIds (ids : List Int) : String := Text.joinWith ',' (ids.map Text.writeInteger)

/-- The first price of every item. -/
def template (items : List Item) : Except Fault String :=
  (items.mapM Item.firstPrice).map writeIds

/-- The ids of the items. -/
def itemIds (items : List Item) : String := writeIds (items.map Item.id)

/-- Every way to take one text of each set in turn, written behind `chosen` and added to what was
found so far. What was found before is not added again. -/
def expand : List (List String) → List String → List (List String) → List (List String)
  | [], chosen, found => keep chosen found
  | set :: rest, chosen, found =>
    set.foldl (fun found price => expand rest (chosen ++ [price]) found) found

/-- A place in a candidate: the item that it stands for, and the text that stands there. -/
structure Cell where
  item : Int
  text : String
  /-- Whether a price has been written here. -/
  priced : Bool := false

/-- Writes the price of an item, unless the place is another item's or has its price already. -/
def Cell.write (item : Int) (price : String) (cell : Cell) : Cell :=
  if !cell.priced && cell.item == item then { cell with text := price, priced := true } else cell

/-- The places of a candidate before any price is written: the ids of the items stand there. -/
def blank (items : List Item) : List Cell :=
  List.zipWith (fun item text => { item := item.id, text })
    items (if items.isEmpty then [] else Text.splitOn ',' (itemIds items))

/-- The candidate in which each of the items in `firsts` has the price at its position. -/
def candidate (items firsts : List Item) (prices : List String) : String :=
  let cells := (firsts.zip prices).foldl
    (fun cells (item, price) => cells.map (Cell.write item.id price)) (blank items)
  Text.joinWith ',' (cells.map Cell.text)

/-- Every candidate for the items; each item must have a price. -/
def combinations (items : List Item) : Except Fault (List String) :=
  if items.isEmpty then .ok []
  else
    let firsts := Item.firsts items
    match firsts.find? (·.prices.isEmpty) with
    | some item => .error (.resolution (.noPrice item.id item.description))
    | none =>
      let sets := firsts.map fun item => item.prices.map Text.writeInteger
      .ok (distinct ((expand sets [] []).map (candidate items firsts)))

/-- All candidates, joined with semicolons. -/
def allCombinations (items : List Item) : Except Fault String :=
  (combinations items).map (Text.joinWith ';')

/-! ## Reading -/

/-- The candidates in a text; empty pieces are dropped. -/
def split (text : String) : List String := (Text.splitOn ';' text).filter (· != "")

/-- The price ids of a candidate; blank pieces are dropped. -/
def readIds (candidate : String) : Except Fault (List Int) :=
  ((Text.splitOn ',' candidate).filter fun piece => Text.trim piece != "").mapM fun piece =>
    match Text.readInteger? piece with
    | some n => .ok n
    | none => .error (.data .notNumeric)

/-- The entries of a list of ids, trimmed; blank entries are dropped. -/
def idTexts (text : String) : List String :=
  ((Text.splitOn ',' text).map Text.trim).filter (· != "")

end Price

end Provision
