import StartupLatency.Json.Decode
import StartupLatency.Store.Error
/-!
Data form of store errors: the kind by its name, and what it is about.
-/

namespace StartupLatency.StoreError

def kind : StoreError → String
  | .notFound _ => "NotFound"
  | .alreadyExists _ => "AlreadyExists"
  | .conflict _ => "Conflict"
  | .backend _ => "Backend"

def kinds (what : String) : List StoreError :=
  [.notFound what, .alreadyExists what, .conflict what, .backend what]

def shape : Json.Shape (String × String) :=
  ⟨"StoreError", default,
    [Json.field "kind" .always Json.Decode.string fun error kind => (kind, error.2),
      Json.field "what" .always Json.Decode.string fun error what => (error.1, what)]⟩

def decode (json : Json) : Except Json.DecodeFault StoreError := do
  let (name, what) ← shape.decode json
  match (kinds what).find? fun error => error.kind == name with
  | some error => pure error
  | none => throw (.unknownVariant name ((kinds what).map kind))

end StartupLatency.StoreError
