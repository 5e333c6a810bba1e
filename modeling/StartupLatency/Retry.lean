import StartupLatency.Duration
import StartupLatency.Word
/-!
Retries of remote operations with doubling delays. Time is counted in milliseconds; an operation
says how long each call takes and what it answers, and the loop sleeps between failed calls only.
-/

namespace StartupLatency

/-- One call: how long it takes, what it answers, and the world after it. -/
structure Reply (σ α : Type) where
  takes : Nat
  answer : Except String α
  world : σ

structure RetryPolicy where
  initialDelay : Duration
  maxAttempts : Nat
deriving DecidableEq

structure Attempt where
  start : Nat
  fault : Option String
deriving DecidableEq

inductive RetryResult (α : Type) where
  | succeeded (value : α)
  | exhausted (lastFault : String)
  -- A delay left the range of durations.
  | overflow
deriving DecidableEq

structure Retried (σ α : Type) where
  result : RetryResult α
  attempts : List Attempt
  finish : Nat
  world : σ

namespace RetryPolicy

def default : RetryPolicy := ⟨.ofMillis 100, 10⟩

def maxFactor : Nat := Word.limit32 - 1

def delayAfter? (policy : RetryPolicy) (attempt : Nat) : Option Duration :=
  policy.initialDelay.times? (if attempt < 32 then Nat.pow 2 attempt else maxFactor)

def overflowText : String := "overflow when multiplying duration by scalar"

-- The loop from an attempt on; `left` attempts may still be made.
def runFrom (policy : RetryPolicy) (call : σ → Reply σ α) (attempt left : Nat) (lastFault : String)
    (now : Nat) (world : σ) : Retried σ α :=
  match left with
  | 0 => ⟨.exhausted lastFault, [], now, world⟩
  | left + 1 =>
    let reply := call world
    let finish := now + reply.takes
    match reply.answer with
    | .ok value => ⟨.succeeded value, [⟨now, none⟩], finish, reply.world⟩
    | .error fault =>
      let made : Attempt := ⟨now, some fault⟩
      if left = 0 then ⟨.exhausted fault, [made], finish, reply.world⟩
      else
        match policy.delayAfter? attempt with
        | none => ⟨.overflow, [made], finish, reply.world⟩
        | some delay =>
          let rest :=
            policy.runFrom call (attempt + 1) left fault (finish + delay.ticks) reply.world
          { rest with attempts := made :: rest.attempts }

/-- Call until a success, at most as often as the policy allows. -/
def run (policy : RetryPolicy) (call : σ → Reply σ α) (now : Nat) (world : σ) : Retried σ α :=
  policy.runFrom call 0 policy.maxAttempts "" now world

def exhaustedText (operation : String) (attempts : Nat) (lastFault : String) : String :=
  operation ++ " failed after " ++ Text.Decimal.text attempts ++ " attempts: " ++ lastFault

end RetryPolicy
end StartupLatency
