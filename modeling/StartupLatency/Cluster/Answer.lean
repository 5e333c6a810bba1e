import StartupLatency.Cluster.Request
import StartupLatency.Http.Status
import StartupLatency.Json.Decode
import StartupLatency.Json.Reader
import StartupLatency.Store.Error
/-!
Answers of an API server, and what can go wrong with a request: it cannot be sent, it is refused,
or the answer cannot be read.
-/

namespace StartupLatency.Cluster

/-- The content of an answer: a value, or raw text that may be anything. -/
inductive Body where
  | json (value : Json)
  | raw (text : String)

namespace Body

def read? : Body → Option Json
  | .json value => some value
  | .raw text => Json.ofText? text

def text : Body → String
  | .json value => value.compactText
  | .raw text => text

end Body

inductive Answer where
  | failed (text : String)
  | replied (status : Nat) (body : Body)

structure StatusReport where
  status : String
  message : String
  reason : String
  code : Nat
deriving DecidableEq, Inhabited

namespace StatusReport

def shape : Json.Shape StatusReport :=
  ⟨"ErrorResponse", default,
    [Json.field "status" .always Json.Decode.string fun report value =>
        { report with status := value },
      Json.field "message" .never Json.Decode.string fun report value =>
        { report with message := value },
      Json.field "reason" .never Json.Decode.string fun report value =>
        { report with reason := value },
      Json.field "code" .always (Json.Decode.integer 0 65535 "u16") fun report value =>
        { report with code := value.toNat }]⟩

/-- The report in an answer; one that holds none is reported by its status and its text. -/
def ofAnswer (status : Nat) (body : Body) : StatusReport :=
  match body.read?.map shape.decode with
  | some (.ok report) => report
  | _ =>
    ⟨Http.statusText status, Text.Quoted.text body.text, "Failed to parse error data", status⟩

def details (report : StatusReport) : String :=
  "ErrorResponse \x7b status: " ++ Text.Quoted.text report.status ++ ", message: " ++
    Text.Quoted.text report.message ++ ", reason: " ++ Text.Quoted.text report.reason ++
    ", code: " ++ Text.Decimal.text report.code ++ " \x7d"

def summary (report : StatusReport) : String := report.message ++ ": " ++ report.reason

end StatusReport

inductive Fault where
  | unsendable (fault : UriFault)
  | failed (text : String)
  | refused (report : StatusReport)
  | unreadable
deriving DecidableEq

namespace Fault

def message : Fault → String
  | .unsendable fault => "Failed to build request: failed to build request: " ++ fault.message
  | .failed text => "ServiceError: " ++ text
  | .refused report => "ApiError: " ++ report.summary ++ " (" ++ report.details ++ ")"
  | .unreadable => "Error deserializing response"

def storeError (what : String) : Fault → StoreError
  | .refused report =>
    if report.code = 404 then .notFound what
    else if report.code = 409 then
      if report.reason = "AlreadyExists" then .alreadyExists what else .conflict what
    else .backend (what ++ ": " ++ (Fault.refused report).message)
  | fault => .backend (what ++ ": " ++ fault.message)

end Fault

namespace Answer

def content : Answer → Except Fault Body
  | .failed text => .error (.failed text)
  | .replied status body =>
    if Http.isError status then .error (.refused (.ofAnswer status body)) else .ok body

def read (decode : Json.Decoder α) (answer : Answer) : Except Fault α :=
  match answer.content with
  | .error fault => .error fault
  | .ok body =>
    match body.read?.map decode with
    | some (.ok value) => .ok value
    | _ => .error .unreadable

end Answer
end StartupLatency.Cluster
