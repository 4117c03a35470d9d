import Provision.Fault
import Provision.Text.Case

/-!
# Setting up the log

The log has a threshold, given by the name of a level in any case, and a
form. A name that is no level stands for the usual threshold, but two names
are taken by settings of another kind and cannot be thresholds. The loggers of
the network library stay quiet below warnings.
-/

namespace Provision.Log

inductive Form where
  | json
  | text
  deriving DecidableEq

structure Setup where
  threshold : Int
  form : Form
  /-- The threshold of the network library's loggers. -/
  networkThreshold : Int := 30

/-- The numbers of the named levels. -/
def thresholds : List (String × Int) :=
  [("CRITICAL", 50), ("FATAL", 50), ("ERROR", 40), ("WARNING", 30), ("WARN", 30), ("INFO", 20),
    ("DEBUG", 10), ("NOTSET", 0)]

def usualThreshold : Int := 20

/-- The threshold that a name stands for. -/
def threshold (name : String) : Except Fault Int :=
  let name := String.ofList (name.toList.flatMap Text.asciiCapitals)
  if name == "BASIC_FORMAT" then .error (.data .notNumeric)
  else if name == "_STYLES" then .error (.data .wrongKind)
  else .ok (((thresholds.find? (·.1 == name)).map (·.2)).getD usualThreshold)

/-- The set-up for the name of a level and the name of a form; only one form has a name. -/
def setUp (level form : String) : Except Fault Setup := do
  let threshold ← threshold level
  pure { threshold, form := if form == "json" then .json else .text }

end Provision.Log
