import Provision.Fault
import Provision.Log.Record
import Provision.Value.Json

/-!
# Formatted log lines

An entry of the log is written in one of two forms: as a JSON object that holds
the shown fields beside the message, or as a line of text that ends with the
shown fields in brackets. Both show the same fields in the same order.

The message of an entry may have places for arguments, marked `%s`. They are
filled only if there are arguments, and then every place needs exactly one.
-/

namespace Provision.Log

/-- The name of a level by its number. -/
def levelName (rank : Int) : String :=
  if rank == 10 then "DEBUG"
  else if rank == 20 then "INFO"
  else if rank == 30 then "WARNING"
  else if rank == 40 then "ERROR"
  else if rank == 50 then "CRITICAL"
  else if rank == 0 then "NOTSET"
  else s!"Level {rank}"

/-! ## Messages -/

/-- Fills the places of a message with arguments in order. With `spare` arguments may be left over. -/
def fill (spare : Bool) : List Char → List Value → Except DataFault (List Char)
  | '%' :: '%' :: rest, args => (fill spare rest args).map ('%' :: ·)
  | '%' :: 's' :: rest, v :: args => (fill spare rest args).map (v.display.toList ++ ·)
  | '%' :: 'r' :: rest, v :: args => (fill spare rest args).map (v.quotedText.toList ++ ·)
  | ['%'], _ => .error .notNumeric
  | '%' :: _, _ => .error .wrongKind
  | c :: rest, args => (fill spare rest args).map (c :: ·)
  | [], args => if args.isEmpty || spare then .ok [] else .error .wrongKind

/-- A message with its arguments. A single object among the arguments may stay unused. -/
def formatMessage (message : String) (args : List Value) : Except DataFault String :=
  match args with
  | [] => .ok message
  | [.object fields] => (fill (!fields.isEmpty) message.toList args).map String.ofList
  | _ => (fill false message.toList args).map String.ofList

/-! ## Time -/

/-- Year, month and day of the day with a number, counted from the first of January 1970. -/
def civilDate (day : Int) : Int × Int × Int :=
  let z := day + 719468
  let era := z.fdiv 146097
  let dayOfEra := z - era * 146097
  let yearOfEra := (dayOfEra - dayOfEra / 1460 + dayOfEra / 36524 - dayOfEra / 146096) / 365
  let dayOfYear := dayOfEra - (365 * yearOfEra + yearOfEra / 4 - yearOfEra / 100)
  let shifted := (5 * dayOfYear + 2) / 153
  let dayOfMonth := dayOfYear - (153 * shifted + 2) / 5 + 1
  let month := if shifted < 10 then shifted + 3 else shifted - 9
  (yearOfEra + era * 400 + (if month ≤ 2 then 1 else 0), month, dayOfMonth)

/-- A number with at least `width` digits. -/
def padded (width : Nat) (n : Int) : String :=
  let ds := (toString n).toList
  String.ofList (List.replicate (width - ds.length) '0' ++ ds)

/-- Date and time of a second, counted from the beginning of 1970. -/
def timeText (second : Int) : String :=
  let day := second.fdiv 86400
  let rest := second - day * 86400
  let (year, month, dayOfMonth) := civilDate day
  padded 4 year ++ "-" ++ padded 2 month ++ "-" ++ padded 2 dayOfMonth ++ " "
    ++ padded 2 (rest / 3600) ++ ":" ++ padded 2 (rest % 3600 / 60) ++ ":" ++ padded 2 (rest % 60)

/-! ## Entries -/

/-- An error that an entry reports: what it is called and what it says. -/
structure Reported where
  name : String
  text : String

def Reported.line (r : Reported) : String :=
  if r.text == "" then r.name else r.name ++ ": " ++ r.text

structure Entry where
  rank : Int
  logger : String
  message : String
  fields : Fields := []
  error : Option Reported := none

namespace Entry

/-- The entry as a line of JSON. -/
def jsonLine (e : Entry) (timestamp : String) : String :=
  Json.write (.object
    ([("timestamp", .text timestamp), ("level", .text (levelName e.rank)),
      ("logger", .text e.logger), ("message", .text e.message)]
      ++ e.fields.shown
      ++ (match e.error with
        | some r => [("exception", .text r.line)]
        | none => [])))

/-- The shown fields in brackets, nothing if there are none. -/
def fieldText (e : Entry) : String :=
  match e.fields.shown with
  | [] => ""
  | shown => " [" ++ " ".intercalate (shown.map fun (name, v) => name ++ "=" ++ v.display) ++ "]"

/-- The name of a level, filled up to eight characters. -/
def paddedLevel (rank : Int) : String :=
  let name := levelName rank
  name ++ String.ofList (List.replicate (8 - name.length) ' ')

/-- The entry as a line of text, an error on a line of its own. -/
def textLine (e : Entry) (second : Int) : String :=
  let line := timeText second ++ " " ++ paddedLevel e.rank ++ " " ++ e.logger ++ ": " ++ e.message
    ++ e.fieldText
  match e.error with
  | some r => (if line.toList.getLast? == some '\n' then line else line ++ "\n") ++ r.line
  | none => line

end Entry

end Provision.Log
