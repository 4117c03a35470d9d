import Provision.Text.Blank
import Provision.Text.Digit

/-!
# Integers as text

Writing is plain decimal notation. Reading is lenient: spaces around the
number, a sign, decimal digits of any script, and single underscores between
digits are all accepted; nothing else is.
-/

namespace Provision.Text

/-- The digits of a non-empty run in which single underscores may stand between digits. -/
def readDigits? : List Char → Option (List Nat)
  | [] => none
  | [c] => (digitValue? c).map ([·])
  | c :: '_' :: rest => do
    let d ← digitValue? c
    let ds ← readDigits? rest
    pure (d :: ds)
  | c :: rest => do
    let d ← digitValue? c
    let ds ← readDigits? rest
    pure (d :: ds)

/-- The number that digits write in base ten, the first digit the highest. -/
def digitsValue (ds : List Nat) : Nat := ds.foldl (fun n d => 10 * n + d) 0

/-- A sign in front, if any: whether it is a minus, and what follows. -/
def splitSign : List Char → Bool × List Char
  | '-' :: rest => (true, rest)
  | '+' :: rest => (false, rest)
  | cs => (false, cs)

/-- The integer that a text writes. -/
def readInteger? (s : String) : Option Int :=
  let (minus, cs) := splitSign (trimBy isSpace s.toList)
  (readDigits? cs).map fun ds => if minus then -(digitsValue ds : Int) else digitsValue ds

def writeInteger (n : Int) : String := toString n

end Provision.Text
