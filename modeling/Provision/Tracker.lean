import Provision.Log.Record
import Provision.Node

/-!
# Transaction tracking

The tracker remembers the last transaction seen for each node, so that the log
can tell when one ends and the next begins. It decides nothing: whether a node
is idle is plain from the observation itself.
-/

namespace Provision

/-- The last transaction of each node that has one. -/
structure Tracker where
  entries : List (Int × Transaction) := []

namespace Tracker

def size (t : Tracker) : Nat := t.entries.length

def last? (t : Tracker) (node : Int) : Option Transaction :=
  (t.entries.find? (·.1 == node)).map (·.2)

def forget (t : Tracker) (node : Int) : Tracker :=
  ⟨t.entries.filter (·.1 != node)⟩

def remember (t : Tracker) (node : Int) (transaction : Transaction) : Tracker :=
  ⟨(t.forget node).entries ++ [(node, transaction)]⟩

/-! ## What an observation says in the log -/

def record (node : Int) (message : String) : Log.Record :=
  { level := .info, source := .transactions, message, fields := [(.node, .int node)] }

def idleRecord (node : Int) (hostname : Value) : Log.Record :=
  record node ("Successfully completed all transactions for host " ++ hostname.display)

def endRecord (node : Int) (t : Transaction) : Log.Record :=
  record node ("Successfully completed transaction " ++ t.name.display ++ " in "
    ++ t.elapsedSeconds.display ++ " seconds.")

def beginRecord (node : Int) (t : Transaction) : Log.Record :=
  record node ("Current transaction is " ++ t.name.display ++ ". Average completion time is "
    ++ t.averageDuration.display ++ " minutes.")

/-- The records of a transaction seen after `previous`: none while its name stays. -/
def changeRecords (node : Int) (previous : Option Transaction) (t : Transaction) :
    List Log.Record :=
  match previous with
  | none => [beginRecord node t]
  | some p => if p.name.same t.name then [] else [endRecord node p, beginRecord node t]

/-- The tracker after an observation, and the records it gives rise to. -/
def observe (t : Tracker) (node : Int) (hostname : Value) :
    Option Transaction → Tracker × List Log.Record
  | none => (t.forget node, [idleRecord node hostname])
  | some seen => (t.remember node seen, changeRecords node (t.last? node) seen)

end Tracker

end Provision
