import StartupLatency.Probe
import StartupLatency.Url.Parser
/-!
What a probe checks: an HTTP URL, or the address of a TCP listener, given as a `tcp` URL or bare.
-/

namespace StartupLatency

inductive ProbeTarget where
  | http (url : Url)
  | tcp (address : String)
deriving DecidableEq

namespace ProbeTarget

def isHttp (url : Url) : Bool := url.scheme == "http".toList || url.scheme == "https".toList

def isTcp (url : Url) : Bool := url.scheme == "tcp".toList

def address? (url : Url) : Option String := do
  let host ← url.host?
  let port ← url.port?
  pure (String.ofList (host.text ++ ':' :: Text.Decimal.write port))

/-- A text that is no URL of these schemes is taken as a bare address. -/
def parse? (raw : String) : Option ProbeTarget :=
  let trimmed := Text.trimText raw
  if trimmed = "" then none
  else
    match Url.parse trimmed with
    | .ok url =>
      if isHttp url then some (.http url)
      else if isTcp url then (address? url).map .tcp
      else some (.tcp trimmed)
    | .error _ => some (.tcp trimmed)

structure Listener where
  port : Nat
  status : Nat

-- Whether a probe of a local listener succeeds. Only the loopback address leads anywhere.
def reaches (listener? : Option Listener) : ProbeTarget → Bool
  | .http url =>
    match listener? with
    | some listener =>
      url.reachesLoopback listener.port && 200 ≤ listener.status && listener.status < 400
    | none => false
  | .tcp address =>
    match listener? with
    | some listener =>
      address == "127.0.0.1:" ++ Text.Decimal.text listener.port
    | none => false

/-- A prober of the local host: the same answer for every attempt, without delay. -/
def prober (listener? : Option Listener) (target : String) : Prober :=
  .ofScript [if (parse? target).any (reaches listener?) then .up else .down] 0

end ProbeTarget
end StartupLatency
