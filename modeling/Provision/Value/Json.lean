import Provision.Value.Basic

/-!
# JSON

The text form of values. The reader accepts the JSON grammar with two
liberties: the words `NaN`, `Infinity` and `-Infinity` are numbers, and a
byte order mark may stand in front. A number without point and exponent is
an integer of any size, any other a double. Of several fields with one key
the last value counts, at the place of the first. Values may be nested to any
depth, and one half of a surrogate pair without the other is read as U+FFFD,
since no text holds it. The writer keeps to ASCII and puts a blank after commas
and colons.
-/

namespace Provision.Json

/-! ## Reading -/

def skipBlanks (cs : List Char) : List Char :=
  cs.dropWhile fun c => c == ' ' || c == '\t' || c == '\n' || c == '\r'

/-- Drops a word that must stand in front. -/
def expect? (word : List Char) (cs : List Char) : Option (List Char) :=
  if word.isPrefixOf cs then some (cs.drop word.length) else none

def hexValue? (c : Char) : Option Nat :=
  if Text.isAsciiDigit c then some (c.toNat - 48)
  else if 97 ≤ c.toNat && c.toNat ≤ 102 then some (c.toNat - 87)
  else if 65 ≤ c.toNat && c.toNat ≤ 70 then some (c.toNat - 55)
  else none

/-- Four hexadecimal digits in front. -/
def readUnit? : List Char → Option (Nat × List Char)
  | a :: b :: c :: d :: rest => do
    let a ← hexValue? a
    let b ← hexValue? b
    let c ← hexValue? c
    let d ← hexValue? d
    some (((a * 16 + b) * 16 + c) * 16 + d, rest)
  | _ => none

/-- The character of a code unit, joined with the second half of a pair if one follows. -/
def joinUnits (u : Nat) (rest : List Char) : Char × List Char :=
  if 0xD800 ≤ u && u < 0xDC00 then
    match rest with
    | '\\' :: 'u' :: more =>
      match readUnit? more with
      | some (v, after) =>
        if 0xDC00 ≤ v && v < 0xE000 then
          (Char.ofNat (0x10000 + (u - 0xD800) * 1024 + (v - 0xDC00)), after)
        else (Char.ofNat 0xFFFD, rest)
      | none => (Char.ofNat 0xFFFD, rest)
    | _ => (Char.ofNat 0xFFFD, rest)
  else if 0xDC00 ≤ u && u < 0xE000 then (Char.ofNat 0xFFFD, rest)
  else (Char.ofNat u, rest)

/-- The character that an escape stands for, after the backslash. -/
def readEscape? : List Char → Option (Char × List Char)
  | '"' :: rest => some ('"', rest)
  | '\\' :: rest => some ('\\', rest)
  | '/' :: rest => some ('/', rest)
  | 'b' :: rest => some (Char.ofNat 8, rest)
  | 'f' :: rest => some (Char.ofNat 12, rest)
  | 'n' :: rest => some ('\n', rest)
  | 'r' :: rest => some ('\r', rest)
  | 't' :: rest => some ('\t', rest)
  | 'u' :: rest => (readUnit? rest).map fun (u, after) => joinUnits u after
  | _ => none

/-- A text after its opening quote, `read` holding the characters so far in reverse. -/
def readText? : Nat → List Char → List Char → Option (String × List Char)
  | 0, _, _ => none
  | _, _, [] => none
  | _, read, '"' :: rest => some (String.ofList read.reverse, rest)
  | fuel + 1, read, '\\' :: rest =>
    match readEscape? rest with
    | some (c, after) => readText? fuel (c :: read) after
    | none => none
  | fuel + 1, read, c :: rest =>
    if c.toNat < 32 then none else readText? fuel (c :: read) rest

def asciiDigits (cs : List Char) : List Char × List Char := cs.span Text.isAsciiDigit

/-- The digits before the point: a single zero, or a run that does not begin with one. -/
def wholeDigits? : List Char → Option (List Char × List Char)
  | '0' :: rest => some (['0'], rest)
  | cs =>
    let (ds, rest) := asciiDigits cs
    if ds.isEmpty then none else some (ds, rest)

/-- A point with digits, if one follows. -/
def fractionDigits : List Char → List Char × List Char
  | '.' :: rest =>
    let (ds, after) := asciiDigits rest
    if ds.isEmpty then ([], '.' :: rest) else (ds, after)
  | cs => ([], cs)

/-- An exponent, if one follows. -/
def powerOf? : List Char → Option (Int × List Char)
  | c :: rest =>
    if c == 'e' || c == 'E' then
      let (minus, cs) := Text.splitSign rest
      let (ds, after) := asciiDigits cs
      if ds.isEmpty then none
      else
        let n : Int := Text.digitsValue (ds.map fun d => d.toNat - 48)
        some (if minus then -n else n, after)
    else none
  | [] => none

def readNumber? (minus : Bool) (cs : List Char) : Option (Value × List Char) := do
  let (whole, rest) ← wholeDigits? cs
  let (fraction, rest) := fractionDigits rest
  let n := Text.digitsValue ((whole ++ fraction).map fun d => d.toNat - 48)
  match powerOf? rest with
  | some (power, after) =>
    some (.real (Decimal.toFloat (.finite minus n (power - fraction.length))), after)
  | none =>
    if fraction.isEmpty then some (.int (if minus then -(n : Int) else n), rest)
    else some (.real (Decimal.toFloat (.finite minus n (-(fraction.length : Int)))), rest)

mutual

/-- A value with no blank in front. -/
def readValue? : Nat → List Char → Option (Value × List Char)
  | 0, _ => none
  | fuel + 1, cs =>
    match cs with
    | '"' :: rest => (readText? (rest.length + 1) [] rest).map fun (s, after) => (.text s, after)
    | '[' :: rest =>
      match skipBlanks rest with
      | ']' :: after => some (.list [], after)
      | inner => (readEntries? fuel inner).map fun (xs, after) => (.list xs, after)
    | '\x7b' :: rest =>
      match skipBlanks rest with
      | '\x7d' :: after => some (.object [], after)
      | inner => (readFields? fuel [] inner).map fun (fs, after) => (.object fs, after)
    | 'n' :: _ => (expect? ['n', 'u', 'l', 'l'] cs).map (.null, ·)
    | 't' :: _ => (expect? ['t', 'r', 'u', 'e'] cs).map (.bool true, ·)
    | 'f' :: _ => (expect? ['f', 'a', 'l', 's', 'e'] cs).map (.bool false, ·)
    | 'N' :: _ => (expect? ['N', 'a', 'N'] cs).map (.real Decimal.notANumber.toFloat, ·)
    | 'I' :: _ =>
      (expect? "Infinity".toList cs).map (.real (Decimal.infinite false).toFloat, ·)
    | '-' :: 'I' :: _ =>
      (expect? "-Infinity".toList cs).map (.real (Decimal.infinite true).toFloat, ·)
    | '-' :: rest => readNumber? true rest
    | _ => readNumber? false cs

/-- The entries of a list up to its closing bracket. -/
def readEntries? : Nat → List Char → Option (List Value × List Char)
  | 0, _ => none
  | fuel + 1, cs =>
    match readValue? fuel cs with
    | none => none
    | some (v, rest) =>
      match skipBlanks rest with
      | ',' :: more => (readEntries? fuel (skipBlanks more)).map fun (vs, after) => (v :: vs, after)
      | ']' :: after => some ([v], after)
      | _ => none

/-- The fields of an object up to its closing bracket, after those in `before`. -/
def readFields? : Nat → List (String × Value) → List Char → Option (List (String × Value) × List Char)
  | 0, _, _ => none
  | fuel + 1, before, cs =>
    match cs with
    | '"' :: rest =>
      match readText? (rest.length + 1) [] rest with
      | none => none
      | some (key, rest) =>
        match skipBlanks rest with
        | ':' :: rest =>
          match readValue? fuel (skipBlanks rest) with
          | none => none
          | some (v, rest) =>
            let fields := Value.store key v before
            match skipBlanks rest with
            | ',' :: more => readFields? fuel fields (skipBlanks more)
            | '\x7d' :: after => some (fields, after)
            | _ => none
        | _ => none
    | _ => none

end

/-- The value that a whole text writes. -/
def read? (s : String) : Option Value :=
  let cs := match s.toList with
    | '\ufeff' :: rest => rest
    | cs => cs
  match readValue? (cs.length + 1) (skipBlanks cs) with
  | some (v, rest) => if (skipBlanks rest).isEmpty then some v else none
  | none => none

/-! ## Writing -/

def escapeUnit (n : Nat) : List Char := '\\' :: 'u' :: Text.hexDigits 4 n

def escapeChar (c : Char) : List Char :=
  if c == '"' || c == '\\' then ['\\', c]
  else if c == '\n' then ['\\', 'n']
  else if c == '\r' then ['\\', 'r']
  else if c == '\t' then ['\\', 't']
  else if c.toNat == 8 then ['\\', 'b']
  else if c.toNat == 12 then ['\\', 'f']
  else if 32 ≤ c.toNat && c.toNat < 127 then [c]
  else if c.toNat < 0x10000 then escapeUnit c.toNat
  else
    let n := c.toNat - 0x10000
    escapeUnit (0xD800 + n / 1024) ++ escapeUnit (0xDC00 + n % 1024)

def writeText (s : String) : String :=
  String.ofList ('"' :: s.toList.flatMap escapeChar ++ ['"'])

def writeReal (x : Float) : String :=
  match Decimal.anatomy x with
  | .notANumber => "NaN"
  | .infinite minus => if minus then "-Infinity" else "Infinity"
  | .finite .. => Decimal.write x

mutual

def write : Value → String
  | .null => "null"
  | .bool true => "true"
  | .bool false => "false"
  | .int n => toString n
  | .real x => writeReal x
  | .text s => writeText s
  | .list entries => "[" ++ ", ".intercalate (writeEntries entries) ++ "]"
  | .object fields => "\x7b" ++ ", ".intercalate (writeFields fields) ++ "\x7d"

def writeEntries : List Value → List String
  | [] => []
  | v :: rest => write v :: writeEntries rest

def writeFields : List (String × Value) → List String
  | [] => []
  | (k, v) :: rest => (writeText k ++ ": " ++ write v) :: writeFields rest

end

end Provision.Json
