import Provision.Text.Quoted
import Provision.Decimal.Reading

/-!
# Values

What the remote service says in its answers is JSON whose shape nobody
promises: a field may be absent, null, or of another kind than expected. A
`Value` is such an answer as it came. Fields that the program only passes on
stay values; the fields it computes with are converted where they are read.

Three views are fixed here: which values count as empty (`truthy`), which
count as equal (`same`, where the logical values are the numbers 0 and 1),
and the two texts of a value, one for messages (`display`) and one that
shows its kind (`quotedText`).
-/

namespace Provision

inductive Value where
  | null
  | bool (b : Bool)
  | int (n : Int)
  | real (x : Float)
  | text (s : String)
  | list (entries : List Value)
  | object (fields : List (String × Value))
  deriving Inhabited

namespace Value

instance : Coe String Value := ⟨.text⟩
instance : Coe Int Value := ⟨.int⟩

/-! ## Reading fields -/

def isNull : Value → Bool
  | .null => true
  | _ => false

/-- Null for an absent value. -/
def ofOption : Option Value → Value
  | some v => v
  | none => .null

def ofText? : Option String → Value
  | some s => .text s
  | none => .null

def ofInt? : Option Int → Value
  | some n => .int n
  | none => .null

/-- The value stored under a key. -/
def lookup? (key : String) : List (String × Value) → Option Value
  | [] => none
  | (k, v) :: rest => if k == key then some v else lookup? key rest

/-- Stores a value under a key, in place if the key is there and at the end otherwise. -/
def store (key : String) (v : Value) : List (String × Value) → List (String × Value)
  | [] => [(key, v)]
  | (k, old) :: rest => if k == key then (k, v) :: rest else (k, old) :: store key v rest

/-! ## Emptiness and equality -/

/-- Null, false, zero and everything of length zero are empty; all else is not. -/
def truthy : Value → Bool
  | .null => false
  | .bool b => b
  | .int n => n != 0
  | .real x => x != 0
  | .text s => s != ""
  | .list entries => !entries.isEmpty
  | .object fields => !fields.isEmpty

/-- Equality of numbers, the logical values being 0 and 1; none if one is no number. -/
def sameNumber? : Value → Value → Option Bool
  | .bool a, .bool b => some (a == b)
  | .bool a, .int n | .int n, .bool a => some (n == if a then 1 else 0)
  | .bool a, .real x | .real x, .bool a =>
    some (Decimal.compareInt (if a then 1 else 0) x == some .eq)
  | .int m, .int n => some (m == n)
  | .int n, .real x | .real x, .int n => some (Decimal.compareInt n x == some .eq)
  | .real x, .real y => some (x == y)
  | _, _ => none

mutual

/-- Equality of values: numbers by what they count, objects whatever the order of their keys. -/
def same : Value → Value → Bool
  | .null, .null => true
  | .text s, .text t => s == t
  | .list xs, .list ys => sameEntries xs ys
  | .object fs, .object gs => fs.length == gs.length && sameFields fs gs
  | v, w => (sameNumber? v w).getD false

def sameEntries : List Value → List Value → Bool
  | [], [] => true
  | x :: xs, y :: ys => same x y && sameEntries xs ys
  | _, _ => false

/-- Every field of the first list stands in the second. -/
def sameFields : List (String × Value) → List (String × Value) → Bool
  | [], _ => true
  | (k, v) :: rest, gs =>
    (match lookup? k gs with
      | some w => same v w
      | none => false) && sameFields rest gs

end

/-! ## Texts -/

mutual

/-- The text that shows the kind of a value: texts are quoted, containers bracketed. -/
def quotedText : Value → String
  | .null => "None"
  | .bool true => "True"
  | .bool false => "False"
  | .int n => toString n
  | .real x => Decimal.write x
  | .text s => Text.quoted s
  | .list entries => Text.bracketed (quotedEntries entries)
  | .object fields => "\x7b" ++ ", ".intercalate (quotedFields fields) ++ "\x7d"

def quotedEntries : List Value → List String
  | [] => []
  | v :: rest => quotedText v :: quotedEntries rest

def quotedFields : List (String × Value) → List String
  | [] => []
  | (k, v) :: rest => (Text.quoted k ++ ": " ++ quotedText v) :: quotedFields rest

end

/-- The text of a value in a message: a text stands for itself. -/
def display : Value → String
  | .text s => s
  | v => quotedText v

@[simp] theorem display_text (s : String) : display (.text s) = s := rfl

@[simp] theorem same_text (s t : String) : same (.text s) (.text t) = (s == t) := by
  simp [same]

end Value

end Provision
