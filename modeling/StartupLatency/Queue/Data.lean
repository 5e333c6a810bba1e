import StartupLatency.Json.Decode
import StartupLatency.Queue.Timed
/-!
Data forms of the calls to a queue and of their answers. A key is a pair of texts.
-/

namespace StartupLatency

def ObjectName.ofPair : Json.Decoder ObjectName
  | .arr [.str ns, .str name] => .ok ⟨ns, name⟩
  | other => .error (.wrongType other "a namespace and a name")

def ObjectName.pair (key : ObjectName) : Json := .arr [.str key.ns, .str key.name]

namespace QueueCall

def shape : Json.Shape (String × ObjectName × Nat) :=
  ⟨"QueueCall", default,
    [Json.field "call" .always Json.Decode.string fun parts name => (name, parts.2),
      Json.field "key" .never ObjectName.ofPair fun parts key => (parts.1, key, parts.2.2),
      Json.field "delay_ms" .never Json.Decode.count fun parts ms => (parts.1, parts.2.1, ms),
      Json.field "ms" .never Json.Decode.count fun parts ms => (parts.1, parts.2.1, ms)]⟩

def decode (json : Json) : Except Json.DecodeFault QueueCall := do
  let (name, key, ms) ← shape.decode json
  let calls :=
    [("enqueue", QueueCall.enqueue key), ("enqueue_after", .enqueueAfter key ms), ("next", .next),
      ("next_wait", .nextWait), ("advance", .advance ms), ("close_receiver", .closeReceiver),
      ("close_sender", .closeSender)]
  match calls.lookup name with
  | some call => pure call
  | none => throw (.unknownVariant name (calls.map Prod.fst))

end QueueCall

def QueueAnswer.toJson : QueueAnswer → Json
  | .nothing => .null
  | .returned => .str "returned"
  | .blocked => .str "blocked"
  | .key taken => .str taken.text
  | .waiting => .str "<waiting>"
  | .finished => .str "<end>"

end StartupLatency
