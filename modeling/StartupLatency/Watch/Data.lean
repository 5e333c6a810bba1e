import StartupLatency.Pod.Data
import StartupLatency.Watch.Event
/-!
Data forms of lifecycle events and of the updates that they are made from.
-/

namespace StartupLatency

namespace PodEvent

def toJson : PodEvent → Json
  | .created pod => .obj [("created", pod.toJson)]
  | .updated old new => .obj [("updated", .obj [("old", old.toJson), ("new", new.toJson)])]
  | .deleted pod => .obj [("deleted", pod.toJson)]

def changeShape : Json.Shape (Pod × Pod) :=
  ⟨"Change", default,
    [Json.field "old" .always Pod.decode fun change pod => (pod, change.2),
      Json.field "new" .always Pod.decode fun change pod => (change.1, pod)]⟩

def decode : Json.Decoder PodEvent :=
  Json.Decode.tagged
    [("created", fun json => (Pod.decode json).map created),
      ("updated", fun json => (changeShape.decode json).map fun change => updated change.1 change.2),
      ("deleted", fun json => (Pod.decode json).map deleted)]

-- Put an event in front, a deletion behind adjacent deletions of lesser keys.
def place (event : PodEvent) : List PodEvent → List PodEvent
  | [] => [event]
  | next :: rest =>
    match event, next with
    | .deleted pod, .deleted other =>
      if (compare pod.key other.key).isLE then event :: next :: rest else next :: place event rest
    | _, _ => event :: next :: rest

/-- Events with adjacent deletions by key: their order says nothing. -/
def shownOrder (events : List PodEvent) : List PodEvent := events.foldr place []

end PodEvent

def WatchUpdate.decode : Json.Decoder WatchUpdate :=
  Json.Decode.tagged
    [("applied", fun json => (Pod.decode json).map applied),
      ("deleted", fun json => (Pod.decode json).map deleted),
      ("restarted", fun json => (Json.Decode.list Pod.decode json).map fun pods => restarted pods [])]

end StartupLatency
