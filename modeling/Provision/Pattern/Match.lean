import Provision.Pattern.Basic

/-!
# Matching

A pattern is matched by trying its ways in order of preference and going back
when what follows fails. `Pattern.run` takes what follows as a function: it
hands every cursor that the pattern can reach to this function, the preferred
cursors first, and answers with the first success.

A repetition counts its turns down. Turns beyond the least number are only
taken where the turn before has consumed something, so a repetition makes at
most one empty turn, and the length of the text bounds the turns.
-/

namespace Provision

/-- A place in a text: what stands before it, what follows, and what the groups hold. -/
structure Cursor where
  before : Option Char := none
  position : Nat := 0
  rest : List Char
  /-- What the groups consumed, the one that closed last in front. -/
  held : List (Nat × List Char) := []
  deriving DecidableEq

namespace Cursor

def start (s : String) : Cursor := { rest := s.toList }

/-- Past the next character, if the set has it. -/
def step? (set : CharSet) (c : Cursor) : Option Cursor :=
  match c.rest with
  | [] => none
  | x :: xs =>
    if set.contains x then
      some { c with before := some x, position := c.position + 1, rest := xs }
    else none

/-- Whether exactly one of the neighbours is a word character. -/
def atEdge (c : Cursor) : Bool :=
  let left := c.before.any Text.isWord
  let right := c.rest.head?.any Text.isWord
  left != right

/-- Whether an anchor fits here. An empty text has no word edges and no places beside them. -/
def isAt (c : Cursor) : Anchor → Bool
  | .start => c.position == 0
  | .lineEnd => c.rest == [] || c.rest == ['\n']
  | .textEnd => c.rest == []
  | .wordEdge inside => (c.position != 0 || c.rest != []) && c.atEdge == inside

/-- Closes a group that began at `opened`. -/
def close (c : Cursor) (number : Nat) (opened : Cursor) : Cursor :=
  { c with held := (number, opened.rest.take (c.position - opened.position)) :: c.held }

/-- What a group holds. -/
def group? (c : Cursor) (number : Nat) : Option (List Char) :=
  (c.held.find? (·.1 == number)).map (·.2)

/-- What the group that closed last holds. -/
def lastGroup? (c : Cursor) : Option (List Char) := c.held.head?.map (·.2)

end Cursor

namespace Pattern

/-- The turns of a repetition, `turn` being one of them. `last` is where the
last optional turn began. -/
def repeatTurns {α : Type} (greedy : Bool) (turn : Cursor → (Cursor → Option α) → Option α)
    (k : Cursor → Option α) : Nat → Nat → Option Nat → Option Nat → Cursor → Option α
  | 0, _, _, _, c => k c
  | fuel + 1, least + 1, most, last, c =>
    turn c (repeatTurns greedy turn k fuel least (most.map (· - 1)) last)
  | fuel + 1, 0, most, last, c =>
    if most == some 0 || last == some c.position then k c
    else
      let more := fun (_ : Unit) =>
        turn c (repeatTurns greedy turn k fuel 0 (most.map (· - 1)) (some c.position))
      if greedy then (more ()).orElse fun _ => k c
      else (k c).orElse more

/-- The first success of `k` on a cursor that the pattern can reach. -/
def run {α : Type} : Pattern → Cursor → (Cursor → Option α) → Option α
  | .empty, c, k => k c
  | .char set, c, k => (c.step? set).bind k
  | .anchor place, c, k => if c.isAt place then k c else none
  | .follow p q, c, k => p.run c fun d => q.run d k
  | .either p q, c, k => (p.run c k).orElse fun _ => q.run c k
  | .group number p, c, k => p.run c fun d => k (d.close number c)
  | .once p, c, k => (p.run c some).bind k
  | .times greedy least most p, c, k =>
    repeatTurns greedy (fun d turn => p.run d turn) k (least + c.rest.length + 2) least most none c

/-- How the pattern matches the whole text, if it does. -/
def matchWhole? (p : Pattern) (s : String) : Option Cursor :=
  p.run (.start s) fun c => if c.rest.isEmpty then some c else none

/-- How the pattern matches the beginning of the text, if it does. -/
def matchFront? (p : Pattern) (s : String) : Option Cursor := p.run (.start s) some

/-- Whether the pattern matches the whole text. -/
def matchesWhole (p : Pattern) (s : String) : Bool := (p.matchWhole? s).isSome

end Pattern

end Provision
