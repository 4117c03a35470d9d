import Provision.Text.Integer
import Provision.Decimal.Shortest

/-!
# Decimals as text

Reading is as lenient as for integers (spaces around, a sign, digits of any
script, single underscores between digits), and takes a point, an exponent,
and the words for infinity and for no number in any case. `Decimal.parse?` gives
the number written, exactly; `Decimal.toFloat` rounds it to the nearest
double, and a number out of range becomes an infinity.
-/

namespace Provision

/-- A number as a decimal text writes it. -/
inductive Decimal where
  | notANumber
  | infinite (minus : Bool)
  /-- The number ± digits · 10^exponent. -/
  | finite (minus : Bool) (digits : Nat) (exponent : Int)
  deriving DecidableEq

namespace Decimal

/-! ## Reading -/

/-- The longest run of digits and underscores in front. -/
def digitRun (cs : List Char) : List Char × List Char :=
  cs.span fun c => Text.isDigit c || c == '_'

/-- The digits of a run that may be empty. -/
def runDigits? (cs : List Char) : Option (List Nat) :=
  if cs.isEmpty then some [] else Text.readDigits? cs

/-- The digits before and after the point, as one number and a power of ten. -/
def mantissa? (whole fraction : List Char) : Option (Nat × Int) := do
  let ws ← runDigits? whole
  let fs ← runDigits? fraction
  if ws.isEmpty && fs.isEmpty then none
  else some (Text.digitsValue (ws ++ fs), -(fs.length : Int))

/-- The exponent in what follows the mantissa: nothing, or a mark and an integer. -/
def exponent? : List Char → Option Int
  | [] => some 0
  | c :: rest =>
    if c == 'e' || c == 'E' then
      let (minus, cs) := Text.splitSign rest
      (Text.readDigits? cs).map fun ds =>
        if minus then -(Text.digitsValue ds : Int) else Text.digitsValue ds
    else none

/-- A number without sign. -/
def unsigned? (minus : Bool) (cs : List Char) : Option Decimal :=
  let word := String.ofList (cs.map Char.toLower)
  if word == "inf" || word == "infinity" then some (.infinite minus)
  else if word == "nan" then some .notANumber
  else
    let (whole, rest) := digitRun cs
    let (fraction, tail) := match rest with
      | '.' :: more => digitRun more
      | _ => ([], rest)
    do
      let (n, scale) ← mantissa? whole fraction
      let power ← exponent? tail
      some (.finite minus n (scale + power))

/-- The number that a text writes. -/
def parse? (s : String) : Option Decimal :=
  let (minus, cs) := Text.splitSign (Text.trimBy Text.isSpace s.toList)
  unsigned? minus cs

/-! ## As a double -/

/-- Beyond 10^310 every number rounds to infinity and below 10^-330 to zero. -/
def nearest (digits : Nat) (exponent : Int) : Float :=
  let size := (Nat.toDigits 10 digits).length + exponent
  if digits == 0 || size < -330 then 0
  else if size > 310 then Float.ofScientific 1 false 400
  else Float.ofScientific digits (exponent < 0) exponent.natAbs

def toFloat : Decimal → Float
  | .notANumber => Float.ofBits 0x7ff8000000000000
  | .infinite minus => if minus then -(Float.ofScientific 1 false 400) else Float.ofScientific 1 false 400
  | .finite minus digits exponent => if minus then -(nearest digits exponent) else nearest digits exponent

/-- The double nearest to the number that a text writes. -/
def read? (s : String) : Option Float := (parse? s).map toFloat

/-! ## Integers and doubles -/

/-- The double nearest to an integer, none beyond the range of doubles. -/
def ofInt? (n : Int) : Option Float :=
  let x := nearest n.natAbs 0
  match anatomy x with
  | .infinite _ => none
  | _ => some (if n < 0 then -x else x)

/-- The integer part of a finite double. -/
def truncate? (x : Float) : Option Int :=
  match anatomy x with
  | .finite minus m q _ =>
    let n : Nat := if q < 0 then m / Nat.pow 2 q.natAbs else m * Nat.pow 2 q.natAbs
    some (if minus then -(n : Int) else n)
  | _ => none

/-- The order of an integer and a double as exact numbers; no number compares with nothing. -/
def compareInt (n : Int) (x : Float) : Option Ordering :=
  match anatomy x with
  | .notANumber => none
  | .infinite minus => some (if minus then .gt else .lt)
  | .finite minus m q _ =>
    let m : Int := if minus then -m else m
    let scale : Nat := Nat.pow 2 q.natAbs
    some (if q < 0 then compare (n * scale) m else compare n (m * scale))

end Decimal

end Provision
