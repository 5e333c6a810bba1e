import StartupLatency.Http.Status
import StartupLatency.Client.Address
/-!
Asking a server for a page: answers that redirect are followed, answers that report no success are
refused with their text.
-/

namespace StartupLatency

structure ServerAnswer where
  status : Nat
  body : String
  location? : Option String
deriving DecidableEq

namespace ServerAnswer

def isSuccess (answer : ServerAnswer) : Bool := 200 ≤ answer.status && answer.status < 300

-- Answers of some statuses come without a text.
def text (answer : ServerAnswer) : String :=
  if answer.status < 200 || answer.status == 204 || answer.status == 304 then "" else answer.body

def redirect? (url : Url) (answer : ServerAnswer) : Option Url := do
  let location ← answer.location?
  if [301, 302, 303, 307, 308].contains answer.status then (url.join location).toOption else none

end ServerAnswer

inductive PageFault where
  | address (fault : AddressFault)
  | unsent
  | refused (status : Nat) (text : String)
  | unreadable
deriving DecidableEq

def PageFault.message : PageFault → String
  | .address fault => fault.headline
  | .unsent => "Failed to send request"
  | .refused status text => "API error (" ++ Http.statusText status ++ "): " ++ text
  | .unreadable => "Failed to parse response"

abbrev Transport (m : Type → Type) := Url → m (Option ServerAnswer)

namespace Transport

def follow [Monad m] (transport : Transport m) (url : Url) : Nat → ExceptT PageFault m ServerAnswer
  | 0 => throw .unsent
  | more + 1 => do
    match ← transport url with
    | none => throw .unsent
    | some answer =>
      match answer.redirect? url with
      | some next => transport.follow next more
      | none => pure answer

-- The page itself, and ten redirections.
def mostAsked : Nat := 11

def fetch [Monad m] (transport : Transport m) (url : Url) : ExceptT PageFault m String := do
  let answer ← transport.follow url mostAsked
  if answer.isSuccess then pure answer.text else throw (.refused answer.status answer.text)

end Transport

def requestLine (url : Url) : String := "GET " ++ url.target ++ " HTTP/1.1"

/-- A server on the loopback address, reached by plain requests to its port. -/
def Transport.loopback (port : Nat) (answer? : Option ServerAnswer) : Transport Id := fun url =>
  answer?.filter fun _ => url.reachesLoopback port

end StartupLatency
