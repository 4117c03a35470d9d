import Provision.Text.Blank
import Provision.Text.Case
import Provision.Text.Digit
import Provision.Text.Word

/-!
# Patterns

The abstract form of the patterns that catalog descriptions and category
codes are compared with, and the sets of characters they are made of.

A pattern consumes text from left to right. `group n p` remembers what `p`
consumed under the number n. `times` repeats a pattern, taking as many turns
as it can when `greedy` and as few as it can otherwise. `once` settles for
the first way its pattern matches.
-/

namespace Provision

/-! ## Sets of characters -/

/-- One entry of a set of characters. -/
inductive CharRange where
  | single (c : Char)
  | between (low high : Char)
  | digit (inside : Bool)
  | word (inside : Bool)
  | blank (inside : Bool)
  deriving DecidableEq

def CharRange.contains : CharRange → Char → Bool
  | .single d, c => c == d
  | .between low high, c => low.toNat ≤ c.toNat && c.toNat ≤ high.toNat
  | .digit inside, c => Text.isDigit c == inside
  | .word inside, c => Text.isWord c == inside
  | .blank inside, c => Text.isBlank c == inside

/-- The characters in one of the ranges, or in none of them if `complement`. -/
structure CharSet where
  ranges : List CharRange
  complement : Bool := false
  anyCase : Bool := false
  deriving DecidableEq

namespace CharSet

def covers (s : CharSet) (c : Char) : Bool := s.ranges.any (·.contains c)

def contains (s : CharSet) (c : Char) : Bool :=
  (if s.anyCase then (Text.caseVariants c).any s.covers else s.covers c) != s.complement

def single (c : Char) : CharSet := { ranges := [.single c] }

/-- Every character that does not end a line. -/
def notNewline : CharSet := { ranges := [.single '\n'], complement := true }

@[simp] theorem contains_single (d c : Char) : (single d).contains c = (c == d) := by
  simp [contains, single, covers, CharRange.contains]

@[simp] theorem contains_notNewline (c : Char) : notNewline.contains c = (c != '\n') := by
  by_cases h : c = '\n' <;> simp [contains, notNewline, covers, CharRange.contains, bne, h]

end CharSet

/-! ## Patterns -/

/-- A place in the text, as a pattern may ask for it. -/
inductive Anchor where
  | start
  /-- The end, or just before a line feed that ends the text. -/
  | lineEnd
  | textEnd
  | wordEdge (inside : Bool)
  deriving DecidableEq

inductive Pattern where
  | empty
  | char (set : CharSet)
  | anchor (place : Anchor)
  | follow (first second : Pattern)
  | either (first second : Pattern)
  | group (number : Nat) (body : Pattern)
  | once (body : Pattern)
  | times (greedy : Bool) (least : Nat) (most : Option Nat) (body : Pattern)
  deriving DecidableEq

namespace Pattern

/-- Patterns one after the other. -/
def sequence : List Pattern → Pattern
  | [] => .empty
  | [p] => p
  | p :: ps => .follow p (sequence ps)

/-- The number of groups. -/
def groups : Pattern → Nat
  | .empty | .char _ | .anchor _ => 0
  | .follow p q | .either p q => p.groups + q.groups
  | .group _ p => p.groups + 1
  | .once p | .times _ _ _ p => p.groups

end Pattern

end Provision
