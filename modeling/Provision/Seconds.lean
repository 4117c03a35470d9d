import Provision.Decimal.Reading

/-!
# Durations

Timeouts, intervals and the clock only need to be compared, added, subtracted
and multiplied; `Duration` is that interface. Two kinds of number implement
it. `Seconds` are the numbers of a configuration, integers and doubles side by
side: integers stay exact among themselves, and an integer that meets a
double becomes one. Rationals are exact throughout.
-/

namespace Provision

class Duration (τ : Type) where
  ofInt : Int → τ
  /-- So many tenths. -/
  ofTenths : Nat → τ
  add : τ → τ → τ
  sub : τ → τ → τ
  mul : τ → τ → τ
  /-- Strictly less. -/
  below : τ → τ → Bool
  /-- Less or equal. -/
  atMost : τ → τ → Bool
  text : τ → String

namespace Duration

variable {τ : Type} [Duration τ]

/-- The smaller of two, the first if they are equal. -/
def least (a b : τ) : τ := if below b a then b else a

end Duration

/-! ## Exact durations -/

instance : Duration Rat where
  ofInt n := n
  ofTenths n := mkRat n 10
  add := (· + ·)
  sub := (· - ·)
  mul := (· * ·)
  below a b := decide (a < b)
  atMost a b := decide (a ≤ b)
  text q := toString q

/-! ## Integers and doubles -/

inductive Seconds where
  | whole (n : Int)
  | real (x : Float)

namespace Seconds

/-- The double of an integer; beyond all doubles an infinity. -/
def ofWhole (n : Int) : Float :=
  if n < 0 then -(Decimal.nearest n.natAbs 0) else Decimal.nearest n.natAbs 0

def toFloat : Seconds → Float
  | whole n => ofWhole n
  | real x => x

/-- An operation on integers among integers, on doubles otherwise. -/
def combine (exact : Int → Int → Int) (rounded : Float → Float → Float) : Seconds → Seconds → Seconds
  | whole m, whole n => whole (exact m n)
  | a, b => real (rounded a.toFloat b.toFloat)

def below : Seconds → Seconds → Bool
  | whole m, whole n => m < n
  | whole n, real x => Decimal.compareInt n x == some .lt
  | real x, whole n => Decimal.compareInt n x == some .gt
  | real x, real y => x < y

def atMost : Seconds → Seconds → Bool
  | whole m, whole n => m ≤ n
  | whole n, real x => (Decimal.compareInt n x).any (· != .gt)
  | real x, whole n => (Decimal.compareInt n x).any (· != .lt)
  | real x, real y => x ≤ y

def text : Seconds → String
  | whole n => toString n
  | real x => Decimal.write x

instance : Duration Seconds where
  ofInt := whole
  ofTenths n := real (Decimal.nearest n (-1))
  add := combine (· + ·) (· + ·)
  sub := combine (· - ·) (· - ·)
  mul := combine (· * ·) (· * ·)
  below := below
  atMost := atMost
  text := text

end Seconds

end Provision
