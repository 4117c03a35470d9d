/-!
# Blank characters and trimming

Two classes of blanks. `isSpace` is the white space of the Unicode standard;
numbers may be surrounded by it. `isBlank` adds the four information
separators U+001C to U+001F; trimming a text removes these as well, and so
do patterns that ask for a blank. Every space is a blank (`isBlank_of_isSpace`).
-/

namespace Provision.Text

def isSpace (c : Char) : Bool :=
  (9 ≤ c.toNat && c.toNat ≤ 13) || c.toNat == 32 || c.toNat == 0x85 || c.toNat == 0xA0
    || c.toNat == 0x1680 || (0x2000 ≤ c.toNat && c.toNat ≤ 0x200A) || c.toNat == 0x2028
    || c.toNat == 0x2029 || c.toNat == 0x202F || c.toNat == 0x205F || c.toNat == 0x3000

def isBlank (c : Char) : Bool := isSpace c || (0x1C ≤ c.toNat && c.toNat ≤ 0x1F)

theorem isBlank_of_isSpace {c : Char} (h : isSpace c = true) : isBlank c = true := by
  simp [isBlank, h]

/-- Removes the characters of a class from both ends. -/
def trimBy (skip : Char → Bool) (cs : List Char) : List Char :=
  ((cs.dropWhile skip).reverse.dropWhile skip).reverse

/-- Removes blanks from both ends. -/
def trim (s : String) : String := String.ofList (trimBy isBlank s.toList)

end Provision.Text
