import Provision.Fault
import Provision.Pattern.Match
import Provision.Pattern.Reading

/-!
# Pattern expressions

A pattern together with the text it was written as. An expression can only be
had by reading a text, so the two always agree, and whoever holds one need
not expect a malformed pattern any more.
-/

namespace Provision

structure Expression where
  text : String
  pattern : Pattern
  parses : Pattern.parse? text = some pattern

namespace Expression

def ofText (text : String) : Except Fault Expression :=
  match h : Pattern.parse? text with
  | some pattern => .ok ⟨text, pattern, h⟩
  | none => .error (.configuration (.malformedPattern (.text text)))

/-- Reads an expression from a value; only a text can be one. -/
def ofValue : Value → Except Fault Expression
  | .text s => ofText s
  | v => .error (.configuration (.malformedPattern v))

/-- Reads an expression if there is one to read. -/
def ofText? : Option String → Except Fault (Option Expression)
  | some text => (ofText text).map some
  | none => .ok none

/-- Whether a whole text matches. -/
def accepts (e : Expression) (s : String) : Bool := e.pattern.matchesWhole s

end Expression

end Provision
