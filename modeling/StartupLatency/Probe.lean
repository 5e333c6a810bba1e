import StartupLatency.Instant
import StartupLatency.Word
/-!
The probe loop: attempts at regular intervals until one succeeds or the time is up. The time is
looked at before an attempt only, so an attempt under way is never cut off, and one that succeeds
late still counts. The clock of the loop does not go on for ever: a loop whose end it cannot tell
comes down before the first attempt, and a pause whose end it cannot tell is cut to thirty years.
-/

namespace StartupLatency

inductive ProbeAnswer where
  | up
  | down
  -- The attempt takes the whole loop down with it.
  | crash
deriving DecidableEq, Inhabited

/-- Attempts by their number, counted from zero, and the time at which they start, with the clock
that they are timed by. -/
structure Prober where
  takes : Nat → Nat → Nat
  answer : Nat → Nat → ProbeAnswer
  -- Milliseconds that the clock has before it when the loop begins.
  room : Nat

namespace Prober

/-- The room of a clock at its zero that counts seconds in signed words of 64 bits. -/
def widestRoom : Nat := Word.half64 * 1000 - 1

/-- Answers in order, the last one repeated, each after the same time. -/
def ofScript (answers : List ProbeAnswer) (takes : Nat) : Prober where
  takes _ _ := takes
  answer attempt _ := (answers[min attempt (answers.length - 1)]?).getD .down
  room := widestRoom

def farAhead : Nat := 30 * 365 * 86400 * 1000

-- Only an interval whose end the clock can tell is slept as it is.
def pause (prober : Prober) (now interval : Nat) : Nat :=
  if now + interval ≤ prober.room then interval else farAhead

end Prober

inductive ProbeEnd where
  | ready (time : Nat)
  | timedOut (time : Nat)
  | crashed (time : Nat)
  -- The attempts did not end within the bound.
  | endless
deriving DecidableEq

structure ProbeRun where
  starts : List Nat
  outcome : ProbeEnd
deriving DecidableEq

/-- Milliseconds during which attempts start, and between the end of one and the next. -/
structure ProbePlan where
  timeout : Nat
  interval : Nat
deriving DecidableEq

namespace ProbePlan

/-- More attempts than any run makes that waits between attempts. Without an interval a run may
have no end; it is then given up after many attempts. -/
def attemptBound (plan : ProbePlan) : Nat :=
  let pause := min plan.interval Prober.farAhead
  if pause = 0 then plan.timeout + 100000 else (plan.timeout + pause - 1) / pause + 1

def runFrom (plan : ProbePlan) (prober : Prober) (attempt now bound : Nat) : ProbeRun :=
  if plan.timeout ≤ now then ⟨[], .timedOut now⟩
  else
    match bound with
    | 0 => ⟨[], .endless⟩
    | bound + 1 =>
      let finish := now + prober.takes attempt now
      match prober.answer attempt now with
      | .up => ⟨[now], .ready finish⟩
      | .crash => ⟨[now], .crashed finish⟩
      | .down =>
        let rest :=
          plan.runFrom prober (attempt + 1) (finish + prober.pause finish plan.interval) bound
        { rest with starts := now :: rest.starts }

/-- The clock can tell when the time is up. -/
def Timed (plan : ProbePlan) (prober : Prober) : Prop := plan.timeout ≤ prober.room

instance (plan : ProbePlan) (prober : Prober) : Decidable (plan.Timed prober) :=
  inferInstanceAs (Decidable (_ ≤ _))

def run (plan : ProbePlan) (prober : Prober) : ProbeRun :=
  if plan.Timed prober then plan.runFrom prober 0 0 plan.attemptBound else ⟨[], .crashed 0⟩

end ProbePlan

namespace ProbeEnd

def time : ProbeEnd → Nat
  | .ready time => time
  | .timedOut time => time
  | .crashed time => time
  | .endless => 0

def ready? (clock : Nat → Instant) : ProbeEnd → Option Instant
  | .ready time => some (clock time)
  | _ => none

end ProbeEnd
end StartupLatency
