import ContractReads.Json.Record

/-!
# JSON-RPC envelopes

Requests and responses of JSON-RPC 2.0, with their wire forms.  An id is a number, a text or
null.  A response may carry a result or an error; a null result, or null error data, counts as
absent.
-/

namespace ContractReads.Rpc

/-- What a request and its response are matched by. -/
inductive Id
  | number (value : UInt64)
  | text (value : String)
  | null
deriving DecidableEq, Repr, Inhabited

namespace Id

def render : Id → String
  | number n => toString n.toNat
  | text s => s
  | null => "null"

def toJson : Id → Json
  | number n => .ofUInt64 n
  | text s => .string s
  | null => .null

def ofJson? : Json → Option Id
  | .null => some null
  | .string s => some (text s)
  | j => j.uint64?.map number

end Id

/-- The version that every request names. -/
def version : String := "2.0"

structure Request where
  version : String
  method : String
  params : List Json
  id : Id

namespace Request

/-- A request of the current version. -/
def make (id : Id) (method : String) (params : List Json) : Request :=
  ⟨Rpc.version, method, params, id⟩

def toJson (r : Request) : Json :=
  .object [("jsonrpc", .string r.version), ("method", .string r.method),
    ("params", .array r.params), ("id", r.id.toJson)]

def ofJson? (j : Json) : Option Request := do
  match ← j.record? ["jsonrpc", "method", "params", "id"] with
  | [v, m, p, i] =>
    return ⟨← Json.required? Json.string? v, ← Json.required? Json.string? m,
      ← Json.required? Json.array? p, ← Json.required? Id.ofJson? i⟩
  | _ => none

end Request

/-- The error that a node reports. -/
structure Error where
  code : Int64
  message : String
  /-- What the node adds, such as the data of a revert. -/
  data : Option Json

namespace Error

def render (e : Error) : String := "[" ++ toString e.code.toInt ++ "] " ++ e.message

def toJson (e : Error) : Json :=
  .object ([("code", .whole e.code.toInt), ("message", .string e.message)]
    ++ (e.data.map fun d => ("data", d)).toList)

def ofJson? (j : Json) : Option Error := do
  match ← j.record? ["code", "message", "data"] with
  | [c, m, d] =>
    return ⟨← Json.required? Json.int64? c, ← Json.required? Json.string? m,
      ← Json.nullable? some d⟩
  | _ => none

end Error

structure Response where
  version : String
  id : Id
  result : Option Json
  error : Option Error

namespace Response

/-- Whether the node reports no error. -/
def isOk (r : Response) : Bool := r.error.isNone

/-- The result, null if there is none; or the node's error. -/
def intoResult (r : Response) : Except Error Json :=
  match r.error with
  | some e => .error e
  | none => .ok (r.result.getD .null)

def toJson (r : Response) : Json :=
  .object ([("jsonrpc", .string r.version), ("id", r.id.toJson)]
    ++ (r.result.map fun v => ("result", v)).toList
    ++ (r.error.map fun e => ("error", e.toJson)).toList)

def ofJson? (j : Json) : Option Response := do
  match ← j.record? ["jsonrpc", "id", "result", "error"] with
  | [v, i, r, e] =>
    return ⟨← Json.required? Json.string? v, ← Json.required? Id.ofJson? i,
      ← Json.nullable? some r, ← Json.nullable? Error.ofJson? e⟩
  | _ => none

end Response

end ContractReads.Rpc
