import Provision.Catalog.Item
import Provision.Pattern.Expression

/-!
# The catalog index

An index holds the items of one package, each id once and in catalog order,
together with a bucket of items for every category code. Lookup by code reads
the bucket; all other lookups scan the items.
-/

namespace Provision

/-- The elements without repetition, each at its first occurrence, apart from those seen before. -/
def distinctFrom {α : Type} [BEq α] (seen : List α) : List α → List α
  | [] => []
  | x :: xs => if seen.contains x then distinctFrom seen xs else x :: distinctFrom (x :: seen) xs

def distinct {α : Type} [BEq α] (xs : List α) : List α := distinctFrom [] xs

/-- Adds an element at the end unless it is there already. -/
def keep {α : Type} [BEq α] (x : α) (xs : List α) : List α :=
  if xs.contains x then xs else xs ++ [x]

namespace Item

/-- The first item of every id, apart from ids seen before. -/
def firstsFrom (seen : List Int) : List Item → List Item
  | [] => []
  | item :: rest =>
    if seen.contains item.id then firstsFrom seen rest
    else item :: firstsFrom (item.id :: seen) rest

/-- The items with each id at its first occurrence only. -/
def firsts (items : List Item) : List Item := firstsFrom [] items

end Item

/-- A category code and the items tagged with it. -/
structure Bucket where
  code : String
  items : List Item

/-- Adds an item at the end of the bucket for a code, which is made if need be. -/
def Bucket.add (code : String) (item : Item) : List Bucket → List Bucket
  | [] => [⟨code, [item]⟩]
  | b :: rest =>
    if b.code == code then ⟨b.code, b.items ++ [item]⟩ :: rest else b :: Bucket.add code item rest

structure Catalog where
  items : List Item
  buckets : List Bucket

namespace Catalog

/-- Files an item under each of its codes. -/
def file (buckets : List Bucket) (item : Item) : List Bucket :=
  (distinct item.categories).foldl (fun bs code => Bucket.add code item bs) buckets

/-- The index of a listing. -/
def ofItems (listing : List Item) : Catalog :=
  let items := Item.firsts (Item.numberedFrom 0 listing)
  { items, buckets := items.foldl file [] }

/-- The index of a listing that may be missing. -/
def ofItems? : Option (List Item) → Except Fault Catalog
  | some listing => .ok (ofItems listing)
  | none => .error (.data .noItems)

def size (catalog : Catalog) : Nat := catalog.items.length

/-! ## Lookup -/

/-- The items tagged with a code. -/
def inCategory (catalog : Catalog) (code : String) : List Item :=
  match catalog.buckets.find? (·.code == code) with
  | some bucket => bucket.items
  | none => []

/-- The items whose whole description matches. -/
def describedBy (catalog : Catalog) (pattern : Pattern) : List Item :=
  catalog.items.filter fun item => pattern.matchesWhole item.description

/-- The items with a code that is accepted. -/
def inCategoriesWhere (catalog : Catalog) (accepts : String → Bool) : List Item :=
  catalog.items.filter fun item => item.categories.any accepts

/-- The items with a code that matches. -/
def inCategoriesMatching (catalog : Catalog) (pattern : Pattern) : List Item :=
  catalog.inCategoriesWhere pattern.matchesWhole

def withPrice (catalog : Catalog) (price : Int) : List Item :=
  catalog.items.filter (·.hasPrice price)

def withId? (catalog : Catalog) (id : Int) : Option Item :=
  catalog.items.find? (·.id == id)

end Catalog

end Provision
