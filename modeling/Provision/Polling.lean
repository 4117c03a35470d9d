import Provision.World

/-!
# Bounded polling

A stage waits for its condition by checking it again and again. Between two
checks it sleeps for the current interval, but never beyond its timeout, and
the interval may grow by a factor up to a cap. The first check that finds
something ends the wait; a check that finds nothing once the timeout has
elapsed ends the stage.
-/

namespace Provision

structure StagePolicy (τ : Type) where
  timeout : τ
  interval : τ
  cap : Option τ := none
  backoff : τ

namespace StagePolicy

variable {τ : Type} [Duration τ]

/-- The factor by which intervals grow if nothing else is said. -/
def usualBackoff : τ := Duration.ofTenths 15

/-- A policy needs a positive timeout and interval, and a cap not below the interval. -/
def make (timeout interval : τ) (cap : Option τ) (backoff : τ) :
    Except (PolicyFault τ) (StagePolicy τ) :=
  if Duration.atMost timeout (Duration.ofInt 0) || Duration.atMost interval (Duration.ofInt 0) then
    .error (.notPositive timeout interval)
  else match cap with
    | some c =>
      if Duration.below c interval then .error (.capBelowInterval c interval)
      else .ok { timeout, interval, cap, backoff }
    | none => .ok { timeout, interval, cap, backoff }

/-- The interval after one more check that found nothing. -/
def grow (p : StagePolicy τ) (interval : τ) : τ :=
  match p.cap with
  | some c => Duration.least (Duration.mul interval p.backoff) c
  | none => interval

end StagePolicy

namespace Run

variable {τ α : Type} [Duration τ]

def satisfiedRecord (stage : String) (subject : Value) (checks : Nat) : Log.Record :=
  { level := .debug, source := .polling
    message := stage ++ " satisfied for " ++ subject.display ++ s!" after {checks} check(s)" }

/-- The checks of a wait after the first `done`; the wait began at `started`. -/
def pollFrom (check : Run τ (Option α)) (stage : String) (policy : StagePolicy τ)
    (subject : Value) (started : τ) : Nat → Nat → τ → Run τ α
  | 0, _, _ => fail .unfinished
  | patience + 1, done, interval => do
    match ← check with
    | some a =>
      log (satisfiedRecord stage subject (done + 1))
      pure a
    | none =>
      let elapsed := Duration.sub (← read (·.clock)) started
      if Duration.atMost policy.timeout elapsed then
        fail (.timeout { stage, timeout := policy.timeout, subject })
      else
        sleep (Duration.least interval (Duration.sub policy.timeout elapsed))
        pollFrom check stage policy subject started patience (done + 1) (policy.grow interval)

/-- Checks until something is found or the policy's timeout has elapsed. -/
def pollUntil (check : Run τ (Option α)) (stage : String) (policy : StagePolicy τ)
    (subject : Value) : Run τ α := do
  let started ← read (·.clock)
  let patience ← read (·.patience)
  pollFrom check stage policy subject started patience 0 policy.interval

end Run

end Provision
