import CodeAtlas.Report.Schema
import CodeAtlas.Url.Basic

/-!
Uploading the flat rows of a scan.  The network is a parameter: it takes a payload to a URL and brings
back a status and a body.  `interpret` says what they mean.
-/

namespace CodeAtlas

/-- Why an upload did not succeed. -/
inductive UploadFault where
  | invalidUrl (url : String) (fault : Url.Fault)
  /-- The request could not be sent or was not answered. -/
  | network
  | timeout
  /-- The endpoint answered with a status that is no success. -/
  | status (code : Nat) (body : String)
  /-- The endpoint did not accept the upload. -/
  | rejected (reason : String)
  /-- The answer is no answer of an endpoint. -/
  | decode
deriving DecidableEq, Repr, Inhabited

def UploadFault.message : UploadFault → String
  | .invalidUrl url fault => "invalid upload url " ++ Text.quoted url ++ ": " ++ fault.reason
  | .network => "network error"
  | .timeout => "request timed out"
  | .status code body => "endpoint returned HTTP " ++ toString code ++ ": " ++ body
  | .rejected reason => "endpoint rejected upload: " ++ reason
  | .decode => "invalid response body"

/-- What an endpoint says about an accepted upload. -/
structure Receipt where
  id : Option String
  message : Option String
deriving DecidableEq, Repr, Inhabited

/-- Takes a payload to a URL and brings back the status and the body of the answer. -/
abbrev Network := Url → Json → Except UploadFault (Nat × String)

namespace Upload

/-- The longest part of a body that a fault shows, in characters. -/
def shownBody : Nat := 200

/-- The answer of an endpoint: whether it accepted the upload, and its words. -/
def answer? (body : String) : Option (Bool × Receipt) := do
  let shape : Json.Decode.Shape := [("success", .refused), ("id", .default), ("message", .default)]
  match (← Json.Decode.given shape (← Json.parse? body)) with
  | [success, id, message] =>
    return (← Json.Decode.required Json.Decode.bool success,
      ⟨← Json.Decode.perhaps Json.Decode.text id, ← Json.Decode.perhaps Json.Decode.text message⟩)
  | _ => none

def interpret (status : Nat) (body : String) : Except UploadFault Receipt :=
  if 200 ≤ status && status < 300 then
    match answer? body with
    | none => .error .decode
    | some (true, receipt) => .ok receipt
    | some (false, receipt) => .error (.rejected (receipt.message.getD "no message"))
  else .error (.status status (String.ofList (body.toList.take shownBody)))

/-- The posted body: the root, the time in seconds when it is known, and the rows. -/
def payload (r : ScanReport) (time : Option Nat) : Json :=
  .object ([("root", .text r.root)] ++ Json.optional "generated_at" (time.map .natural) ++
    [("records", .array (r.flatten.map FlatRecord.toJson))])

/-- Uploads a report.  Nothing is sent to a URL whose scheme is not one of the web. -/
def send (network : Network) (time : Option Nat) (url : String) (r : ScanReport) :
    Except UploadFault Receipt := do
  let target ← (Url.parse url).mapError (.invalidUrl url)
  if target.scheme == "http" || target.scheme == "https" then
    let (status, body) ← network target (payload r time)
    interpret status body
  else throw .network

end Upload

end CodeAtlas
