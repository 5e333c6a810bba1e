import StartupLatency.Client.Show
import StartupLatency.CommandLine.Help
import StartupLatency.Http.Wire
import Std.Async.DNS
import Std.Async.TCP
/-!
The command line: arguments in, a page of the query server out.
-/

namespace StartupLatency.CommandLine

open Std.Net

partial def receiveAll (socket : Std.Async.TCP.Socket.Client) (received : ByteArray) :
    IO ByteArray := do
  match ← (socket.recv? 65536).block with
  | some bytes => receiveAll socket (received ++ bytes)
  | none => pure received

def socketAddress (port : Nat) : IPAddr → SocketAddress
  | .v4 address => .v4 ⟨address, port.toUInt16⟩
  | .v6 address => .v6 ⟨address, port.toUInt16⟩

def lookupName (host : Url.Host) : String :=
  String.ofList (host.text.filter fun c => c != '[' && c != ']')

def connectAndAsk (url : Url) (host : Url.Host) : IO (Option ServerAnswer) := do
  let port := url.port?.getD 80
  let addresses ←
    (Std.Async.DNS.getAddrInfo (lookupName host) (Text.Decimal.text port)).block
  match addresses[0]? with
  | none => pure none
  | some address =>
    let socket ← Std.Async.TCP.Socket.Client.mk
    (socket.connect (socketAddress port address)).block
    (socket.send (Http.requestText url).toUTF8).block
    let bytes ← receiveAll socket .empty
    pure (Http.answerOf? (bytes.toList.map UInt8.toNat))

-- Plain requests over the network. Whatever goes wrong, nothing comes back.
def network : Transport IO := fun url => do
  match url.host? with
  | none => pure none
  | some host =>
    if url.scheme == "http".toList then
      try connectAndAsk url host catch _ => pure none
    else pure none

-- Colours are for people: not for pipes, and not for those who do not want them.
def terminal : IO Terminal := do
  let shown ← (← IO.getStdout).isTty
  pure ⟨shown && (← IO.getEnv "NO_COLOR").isNone⟩

end StartupLatency.CommandLine

open StartupLatency in
def main (arguments : List String) : IO UInt32 := do
  let environment? ← IO.getEnv CommandLine.serverVariable
  match Invocation.parse environment? arguments with
  | .error refusal =>
    IO.print (refusal.outputText environment?)
    IO.eprint (refusal.errorText environment?)
    pure refusal.exitCode.toUInt32
  | .ok invocation =>
    match ← (invocation.run CommandLine.network (← CommandLine.terminal)).run with
    | .ok text =>
      IO.print text
      pure 0
    | .error fault =>
      IO.eprintln ("Error: " ++ fault.message)
      pure 1
