/-!
# The shortest decimal of a double

A finite double is m · 2^q. The reals that round to it form an interval
around it, half a unit wide on either side (a quarter below a power of two),
with its ends inside exactly when m is even. Among the decimals
d · 10^g the shortest is the first one met when g goes down from above the
value: on each grid only the two neighbours of the value can lie in the
interval, and of two that do the nearer one is taken.

All arithmetic is on natural numbers. The value and the ends of the interval
are counted in quarters of the double's last place, and a comparison with a
grid point multiplies both sides free of fractions.
-/

namespace Provision.Decimal

/-- What the bits of a double say. -/
inductive Anatomy where
  | notANumber
  | infinite (minus : Bool)
  /-- The number ± significand · 2^exponent; `halved` when the next smaller double is at half the distance. -/
  | finite (minus : Bool) (significand : Nat) (exponent : Int) (halved : Bool)

def anatomy (x : Float) : Anatomy :=
  let bits := x.toBits.toNat
  let hidden := Nat.pow 2 52
  let minus := bits / Nat.pow 2 63 == 1
  let biased : Nat := bits / hidden % 2048
  let fraction := bits % hidden
  if biased == 2047 then
    if fraction == 0 then .infinite minus else .notANumber
  else if biased == 0 then .finite minus fraction (-1074) false
  else .finite minus (fraction + hidden) ((biased : Int) - 1075) (fraction == 0 && biased != 1)

/-- The reals that round to one double, in quarters of its last place, which are 2^`unit`. -/
structure Interval where
  low : Nat
  value : Nat
  high : Nat
  closed : Bool
  unit : Int

def Interval.around (significand : Nat) (exponent : Int) (halved : Bool) : Interval :=
  { low := 4 * significand - (if halved then 1 else 2)
    value := 4 * significand
    high := 4 * significand + 2
    closed := significand % 2 == 0
    unit := exponent - 2 }

/-- The point of the grid of multiples of 10^`g` that lies in the interval, the nearer of two. -/
def Interval.onGrid? (i : Interval) (g : Int) : Option Nat :=
  let point := Nat.pow 10 g.toNat * Nat.pow 2 (-i.unit).toNat
  let quarter := Nat.pow 2 i.unit.toNat * Nat.pow 10 (-g).toNat
  let inside (n : Nat) : Bool :=
    if i.closed then i.low * quarter ≤ n * point && n * point ≤ i.high * quarter
    else i.low * quarter < n * point && n * point < i.high * quarter
  let below := i.value * quarter / point
  let gapBelow := i.value * quarter - below * point
  let gapAbove := (below + 1) * point - i.value * quarter
  match inside below, inside (below + 1) with
  | true, true =>
    if gapBelow < gapAbove || (gapBelow == gapAbove && below % 2 == 0) then some below
    else some (below + 1)
  | true, false => some below
  | false, true => some (below + 1)
  | false, false => none

/-- The first grid with a point in the interval, from 10^`g` down. -/
def Interval.search (i : Interval) : Nat → Int → Nat × Int
  | 0, g => (0, g)
  | steps + 1, g =>
    match i.onGrid? g with
    | some n => (n, g)
    | none => i.search steps (g - 1)

/-- A grid coarser than a positive value below 2^`n`. -/
def coarseGrid (n : Int) : Int := Int.fdiv (n * 30103) 100000 + 1

/-- The decimal digits of a number without the zeros at its end, and how many those were. -/
def strippedDigits (n : Nat) : List Char × Nat :=
  let ds := Nat.toDigits 10 n
  let kept := (ds.reverse.dropWhile (· == '0')).reverse
  (kept, ds.length - kept.length)

/-- The digits d₁d₂… and the exponent e for which the shortest decimal is d₁.d₂… · 10^e. -/
def shortest (significand : Nat) (exponent : Int) (halved : Bool) : List Char × Int :=
  let i := Interval.around significand exponent halved
  let (n, g) := i.search 40 (coarseGrid (Nat.log2 significand + 1 + exponent))
  let (ds, zeros) := strippedDigits n
  (ds, g + zeros + ds.length - 1)

/-! ## As text -/

/-- How decimals are laid out: positional for exponents in a range, scientific outside it. -/
structure Layout where
  leastPositional : Int
  firstScientific : Int
  exponentDigits : Nat

/-- Numbers from 0.0001 up to 10^16 are positional; exponents have two digits at least. -/
def layout : Layout := ⟨-4, 16, 2⟩

def zeros (n : Nat) : List Char := List.replicate n '0'

def Layout.positional (ds : List Char) (e : Int) : List Char :=
  if e < 0 then '0' :: '.' :: zeros (-e - 1).toNat ++ ds
  else
    let whole := ds.take (e + 1).toNat
    let rest := ds.drop (e + 1).toNat
    whole ++ zeros ((e + 1).toNat - ds.length) ++ '.' :: (if rest.isEmpty then ['0'] else rest)

def Layout.scientific (l : Layout) (ds : List Char) (e : Int) : List Char :=
  let power := Nat.toDigits 10 e.natAbs
  ds.take 1 ++ (if ds.length ≤ 1 then [] else '.' :: ds.drop 1)
    ++ 'e' :: (if e < 0 then '-' else '+') :: zeros (l.exponentDigits - power.length) ++ power

def Layout.lay (l : Layout) (ds : List Char) (e : Int) : List Char :=
  if l.leastPositional ≤ e && e < l.firstScientific then Layout.positional ds e
  else l.scientific ds e

/-- The text of a double: its shortest decimal, which always shows a point or an exponent. -/
def write (x : Float) : String :=
  match anatomy x with
  | .notANumber => "nan"
  | .infinite minus => if minus then "-inf" else "inf"
  | .finite minus significand exponent halved =>
    let body :=
      if significand == 0 then ['0', '.', '0']
      else
        let (ds, e) := shortest significand exponent halved
        layout.lay ds e
    String.ofList (if minus then '-' :: body else body)

end Provision.Decimal
