import WatchCache.Json.Record
import WatchCache.Server.Request

set_option autoImplicit false

/-!
# Responses

What an API server answers, and what may be wrong with it.  An answer of status 400 to 599 is a
failure that the body describes; a body that does not describe one stands for itself.
-/

namespace WatchCache

/-- What a server answers. -/
structure Response where
  status : Nat := 200
  body : String
  deriving DecidableEq, Repr, Inhabited

/-- The customary words for a status. -/
def statusWords : Nat → String
  | 400 => "Bad Request"
  | 401 => "Unauthorized"
  | 402 => "Payment Required"
  | 403 => "Forbidden"
  | 404 => "Not Found"
  | 405 => "Method Not Allowed"
  | 406 => "Not Acceptable"
  | 407 => "Proxy Authentication Required"
  | 408 => "Request Timeout"
  | 409 => "Conflict"
  | 410 => "Gone"
  | 411 => "Length Required"
  | 412 => "Precondition Failed"
  | 413 => "Payload Too Large"
  | 414 => "URI Too Long"
  | 415 => "Unsupported Media Type"
  | 416 => "Range Not Satisfiable"
  | 417 => "Expectation Failed"
  | 418 => "I'm a teapot"
  | 421 => "Misdirected Request"
  | 422 => "Unprocessable Entity"
  | 423 => "Locked"
  | 424 => "Failed Dependency"
  | 425 => "Too Early"
  | 426 => "Upgrade Required"
  | 428 => "Precondition Required"
  | 429 => "Too Many Requests"
  | 431 => "Request Header Fields Too Large"
  | 451 => "Unavailable For Legal Reasons"
  | 500 => "Internal Server Error"
  | 501 => "Not Implemented"
  | 502 => "Bad Gateway"
  | 503 => "Service Unavailable"
  | 504 => "Gateway Timeout"
  | 505 => "HTTP Version Not Supported"
  | 506 => "Variant Also Negotiates"
  | 507 => "Insufficient Storage"
  | 508 => "Loop Detected"
  | 510 => "Not Extended"
  | 511 => "Network Authentication Required"
  | _ => "<unknown status code>"

/-- How a server describes a failure. -/
structure StatusReport where
  status : String
  message : String := ""
  reason : String := ""
  code : Nat
  deriving DecidableEq, Repr, Inhabited

namespace StatusReport

/-- The short wording of a failure. -/
def summary (r : StatusReport) : String := r.message ++ ": " ++ r.reason

/-- The failure with all its parts. -/
def detail (r : StatusReport) : String :=
  "ErrorResponse \x7b status: " ++ Text.quote r.status ++ ", message: " ++ Text.quote r.message ++
  ", reason: " ++ Text.quote r.reason ++ ", code: " ++ toString r.code ++ " \x7d"

/-- Reads the code of a failure, a number of 16 bits. -/
def readCode : Reader Json := do
  let j ← Reader.scalar "u16"
  match j with
  | .number (.integer n) =>
    if 0 ≤ n ∧ n < Decimal.twoPow 16 then return j
    else Reader.refuse (.wrongValue (.ofJson j) "u16")
  | j => Reader.refuse (.wrongType (.ofJson j) "u16")

/-- The members of a failure; its status and its code have to be there. -/
def fields : List (Record.Field Json) :=
  let text := Json.string <$> Reader.text
  [⟨"status", text, false, false⟩, ⟨"message", text, true, true⟩, ⟨"reason", text, true, true⟩,
   ⟨"code", readCode, false, false⟩]

/-- Reads a failure. -/
def read : Reader StatusReport := do
  let found ← Record.read "struct ErrorResponse" fields
  let textOf (name : String) : String :=
    match Record.get? found name with
    | some (.string s) => s
    | _ => ""
  let code := match Record.get? found "code" with
    | some (.number (.integer n)) => n.toNat
    | _ => 0
  return ⟨textOf "status", textOf "message", textOf "reason", code⟩

/-- The failure that a text describes. -/
def ofText? (text : String) : Option StatusReport := (read.run text).toOption

end StatusReport

/-! ## Failures -/

/-- Why a request had no useful answer. -/
inductive RequestFailure where
  | refused (report : StatusReport)
  | undecodable (detail : String)
  /-- The target of a request for discovery. -/
  | badTarget (fault : TargetFault)
  /-- The target of a request for objects. -/
  | badObjectTarget (fault : TargetFault)
  | emptyGroup (name : String)
  | unreachable
  deriving DecidableEq, Repr, Inhabited

namespace RequestFailure

/-- The wording of a failure and of its causes, the outermost first. -/
def chain : RequestFailure → List String
  | .refused r => ["ApiError: " ++ r.summary ++ " (" ++ r.detail ++ ")", r.summary]
  | .undecodable detail => ["Error deserializing response", detail]
  | .badTarget f => ["HttpError: " ++ f.message, f.message]
  | .badObjectTarget f =>
    ["Failed to build request: failed to build request: " ++ f.message,
     "failed to build request: " ++ f.message, f.message]
  | .emptyGroup name =>
    ["Error from discovery: Empty Api Group: " ++ name, "Empty Api Group: " ++ name]
  | .unreachable =>
    ["ServiceError: client error (Connect)", "client error (Connect)", "tcp connect error",
     "Network is unreachable (os error 101)"]

/-- The wording of a failure without its causes. -/
def message (f : RequestFailure) : String := f.chain.headD ""

end RequestFailure

namespace Response

/-- The failure that an answer reports. -/
def failure? (r : Response) : Option StatusReport :=
  if 400 ≤ r.status && r.status < 600 then
    some <| (StatusReport.ofText? r.body).getD
      ⟨toString r.status ++ " " ++ statusWords r.status, Text.quote r.body,
       "Failed to parse error data", r.status⟩
  else none

/-- Reads the body of an answer. -/
def read {α : Type} (answer : Response) (r : Reader α) : Except RequestFailure α :=
  match answer.failure? with
  | some report => .error (.refused report)
  | none => (r.run answer.body).mapError fun e => .undecodable e.message

end Response

end WatchCache
