import Provision.Pattern.Basic
import Provision.Text.Integer

/-!
# Patterns as text

The written form: characters stand for themselves, `.` for any character but
a line feed, `[a-z]` and `[^a-z]` for sets, `\d \w \s` for digits, word
characters and blanks and their capitals for all others, `^` and `$` for the
two ends, `(p)` for a group and `(?:p)` for a pattern without one, `p|q` for a
choice, and `* + ? {m,n}` for repetition, with a `?` behind to prefer few
turns and a `+` to settle for the first way. `(?i)` in front disregards case.

A brace that does not begin a repetition and a bracket that is the first entry
of a set stand for themselves. Everything else that is not well formed is
refused, and so is the escape of a letter that has no meaning.

Refused are also these forms, which are not modelled: groups with a name,
references back to a group and choices that depend on one, looking ahead and
behind, comments, flags other than `(?i)` in front (those for a part of the
pattern among them), octal escapes that do not begin with a zero, and
characters that are given by their name.
-/

namespace Provision.Pattern

/-! ## Escapes -/

def octalValue? (c : Char) : Option Nat :=
  if 48 ≤ c.toNat && c.toNat ≤ 55 then some (c.toNat - 48) else none

def hexValue? (c : Char) : Option Nat :=
  if Text.isAsciiDigit c then some (c.toNat - 48)
  else if 97 ≤ c.toNat && c.toNat ≤ 102 then some (c.toNat - 87)
  else if 65 ≤ c.toNat && c.toNat ≤ 70 then some (c.toNat - 55)
  else none

/-- Exactly `width` hexadecimal digits in front, after the value so far. -/
def readHex? : Nat → Nat → List Char → Option (Char × List Char)
  | 0, n, cs => some (Char.ofNat n, cs)
  | width + 1, n, c :: rest => do
    let d ← hexValue? c
    readHex? width (16 * n + d) rest
  | _, _, [] => none

/-- At most `width` octal digits in front, after the value so far. -/
def readOctal : Nat → Nat → List Char → Char × List Char
  | width + 1, n, c :: rest =>
    match octalValue? c with
    | some d => readOctal width (8 * n + d) rest
    | none => (Char.ofNat n, c :: rest)
  | _, n, cs => (Char.ofNat n, cs)

/-- The classes of characters that have a letter. -/
def classLetter? : Char → Option CharRange
  | 'd' => some (.digit true)
  | 'D' => some (.digit false)
  | 's' => some (.blank true)
  | 'S' => some (.blank false)
  | 'w' => some (.word true)
  | 'W' => some (.word false)
  | _ => none

/-- The control characters that have a letter. -/
def controlLetter? : Char → Option Char
  | 'a' => some (Char.ofNat 7)
  | 'f' => some (Char.ofNat 12)
  | 'n' => some '\n'
  | 'r' => some '\r'
  | 't' => some '\t'
  | 'v' => some (Char.ofNat 11)
  | _ => none

/-- The single character that an escape stands for, after the backslash. -/
def readEscapedChar? : List Char → Option (Char × List Char)
  | [] => none
  | 'x' :: rest => readHex? 2 0 rest
  | 'u' :: rest => readHex? 4 0 rest
  | 'U' :: rest => readHex? 8 0 rest
  | '0' :: rest => some (readOctal 2 0 rest)
  | c :: rest =>
    match controlLetter? c with
    | some d => some (d, rest)
    | none => if c.isAlphanum then none else some (c, rest)

/-- The places that have a letter. -/
def anchorLetter? : Char → Option Anchor
  | 'A' => some .start
  | 'Z' => some .textEnd
  | 'b' => some (.wordEdge true)
  | 'B' => some (.wordEdge false)
  | _ => none

/-! ## Sets -/

/-- One entry of a set: a class or a character. -/
def readEntry? : List Char → Option (CharRange × List Char)
  | [] => none
  | '\\' :: 'b' :: rest => some (.single (Char.ofNat 8), rest)
  | '\\' :: c :: rest =>
    match classLetter? c with
    | some r => some (r, rest)
    | none => (readEscapedChar? (c :: rest)).map fun (d, after) => (.single d, after)
  | ['\\'] => none
  | c :: rest => some (.single c, rest)

/-- The range between two entries, which must be characters in order. -/
def rangeBetween? : CharRange → CharRange → Option CharRange
  | .single low, .single high => if high.toNat < low.toNat then none else some (.between low high)
  | _, _ => none

/-- The entries of a set up to its closing bracket, which does not close an empty set. -/
def readSet? : Nat → List CharRange → List Char → Option (List CharRange × List Char)
  | 0, _, _ => none
  | fuel + 1, before, cs =>
    match before, cs with
    | _ :: _, ']' :: rest => some (before.reverse, rest)
    | _, _ =>
      match readEntry? cs with
      | none => none
      | some (entry, '-' :: ']' :: rest) => some ((.single '-' :: entry :: before).reverse, rest)
      | some (entry, '-' :: more) =>
        match readEntry? more with
        | none => none
        | some (high, rest) =>
          match rangeBetween? entry high with
          | none => none
          | some range => readSet? fuel (range :: before) rest
      | some (entry, rest) => readSet? fuel (entry :: before) rest

/-- A set after its opening bracket. -/
def readBracket? (cs : List Char) : Option (CharSet × List Char) :=
  let (complement, cs) := match cs with
    | '^' :: rest => (true, rest)
    | _ => (false, cs)
  (readSet? (cs.length + 1) [] cs).map fun (ranges, rest) => ({ ranges, complement }, rest)

/-! ## Repetitions -/

/-- A number in front, if there is one. -/
def readCount (cs : List Char) : Option Nat × List Char :=
  let (ds, rest) := cs.span Text.isAsciiDigit
  if ds.isEmpty then (none, rest)
  else (some (Text.digitsValue (ds.map fun d => d.toNat - 48)), rest)

/-- The bounds of a repetition. -/
structure Bounds where
  least : Nat
  most : Option Nat

/-- What a sign of repetition in front asks for. An opening brace may turn out to be none. -/
inductive Repetition where
  | bounds (b : Bounds) (rest : List Char)
  | reversed
  | absent

/-- The bounds in braces, after the opening brace. -/
def readBraces (cs : List Char) : Repetition :=
  let (low, rest) := readCount cs
  match rest with
  | ',' :: more =>
    match readCount more with
    | (high, '\x7d' :: after) =>
      if high.any (· < low.getD 0) then .reversed else .bounds ⟨low.getD 0, high⟩ after
    | _ => .absent
  | '\x7d' :: after =>
    match low with
    | some n => .bounds ⟨n, some n⟩ after
    | none => .absent
  | _ => .absent

def readRepetition : List Char → Repetition
  | '*' :: rest => .bounds ⟨0, none⟩ rest
  | '+' :: rest => .bounds ⟨1, none⟩ rest
  | '?' :: rest => .bounds ⟨0, some 1⟩ rest
  | '\x7b' :: rest => readBraces rest
  | _ => .absent

/-- A repetition of a pattern, with the sign for its preference if one follows. -/
def repeated (b : Bounds) (p : Pattern) : List Char → Pattern × List Char
  | '?' :: rest => (.times false b.least b.most p, rest)
  | '+' :: rest => (.once (.times true b.least b.most p), rest)
  | rest => (.times true b.least b.most p, rest)

/-! ## The reader -/

/-- What an item read allows to follow: only a plain item may be repeated. -/
inductive Standing where
  | plain
  | place
  | repetition
  deriving DecidableEq

structure Item where
  pattern : Pattern
  standing : Standing

/-- The number of groups opened so far, and whether case counts. -/
structure Reader where
  opened : Nat := 0
  anyCase : Bool := false

def Reader.char (r : Reader) (set : CharSet) : Item :=
  ⟨.char { set with anyCase := r.anyCase }, .plain⟩

/-- An item that needs no closing bracket: an escape, a set, a place or a character. -/
def Reader.simple? (r : Reader) : List Char → Option (Item × List Char)
  | '\\' :: c :: rest =>
    match classLetter? c, anchorLetter? c with
    | some range, _ => some (r.char { ranges := [range] }, rest)
    | none, some place => some (⟨.anchor place, .place⟩, rest)
    | none, none => (readEscapedChar? (c :: rest)).map fun (d, after) => (r.char (.single d), after)
  | ['\\'] => none
  | '[' :: rest => (readBracket? rest).map fun (set, after) => (r.char set, after)
  | '.' :: rest => some (⟨.char .notNewline, .plain⟩, rest)
  | '^' :: rest => some (⟨.anchor .start, .place⟩, rest)
  | '$' :: rest => some (⟨.anchor .lineEnd, .place⟩, rest)
  | c :: rest => some (r.char (.single c), rest)
  | [] => none

/-- The items of a sequence, which were collected in reverse, as one pattern. -/
def assemble (items : List Item) : Pattern := sequence (items.reverse.map (·.pattern))

mutual

/-- A choice, up to a closing bracket or the end. -/
def readChoice? : Nat → Reader → List Char → Option (Pattern × Reader × List Char)
  | 0, _, _ => none
  | fuel + 1, r, cs =>
    match readItems? fuel r [] cs with
    | none => none
    | some (p, r, '|' :: rest) =>
      (readChoice? fuel r rest).map fun (q, r, after) => (.either p q, r, after)
    | some (p, r, rest) => some (p, r, rest)

/-- The items of a sequence after those in `before`. -/
def readItems? : Nat → Reader → List Item → List Char → Option (Pattern × Reader × List Char)
  | 0, _, _, _ => none
  | fuel + 1, r, before, cs =>
    match cs with
    | [] => some (assemble before, r, [])
    | '|' :: _ | ')' :: _ => some (assemble before, r, cs)
    | '(' :: '?' :: ':' :: rest => readBody? fuel r before none rest
    | '(' :: '?' :: '>' :: rest =>
      match readChoice? fuel r rest with
      | some (p, r, ')' :: after) => readItems? fuel r (⟨.once p, .plain⟩ :: before) after
      | _ => none
    | '(' :: '?' :: _ => none
    | '(' :: rest =>
      readBody? fuel { r with opened := r.opened + 1 } before (some (r.opened + 1)) rest
    | _ =>
      match readRepetition cs, before with
      | .reversed, _ => none
      | .bounds b rest, ⟨p, .plain⟩ :: earlier =>
        let (q, after) := repeated b p rest
        readItems? fuel r (⟨q, .repetition⟩ :: earlier) after
      | .bounds _ _, _ => none
      | .absent, _ =>
        match r.simple? cs with
        | some (item, rest) => readItems? fuel r (item :: before) rest
        | none => none

/-- A pattern in brackets, after the opening one; `number` if it is a group. -/
def readBody? : Nat → Reader → List Item → Option Nat → List Char → Option (Pattern × Reader × List Char)
  | 0, _, _, _, _ => none
  | fuel + 1, r, before, number, cs =>
    match readChoice? fuel r cs with
    | some (p, r, ')' :: rest) =>
      let q := match number with
        | some n => .group n p
        | none => p
      readItems? fuel r (⟨q, .plain⟩ :: before) rest
    | _ => none

end

/-- The signs in front that disregard case. -/
def splitCaseSigns : List Char → Bool × List Char
  | '(' :: '?' :: 'i' :: ')' :: rest => (true, (splitCaseSigns rest).2)
  | cs => (false, cs)

/-- The pattern that a text writes, none if it is not well formed. -/
def parse? (s : String) : Option Pattern :=
  let (anyCase, cs) := splitCaseSigns s.toList
  match readChoice? (3 * cs.length + 3) { anyCase } cs with
  | some (p, _, []) => some p
  | _ => none

end Provision.Pattern
