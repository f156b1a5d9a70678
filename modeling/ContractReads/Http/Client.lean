import ContractReads.Http.Config
import ContractReads.Http.Matching
import ContractReads.Json.Reader
import ContractReads.Rpc.Transport
import ContractReads.Text.Utf8

/-!
# An HTTP client

A client posts one request, or an array of requests, and reads the answer.  It counts the posts
that failed in a row; nothing is posted twice.
-/

namespace ContractReads.Http

open Rpc (Request Response)

/-- What became of one post. -/
inductive Exchange
  /-- No answer, or only a part of one. -/
  | unreachable (reason : String)
  | timedOut
  | answered (status : Nat) (body : Bytes)

/-- A client's memory of its posts. -/
structure Record where
  /-- Posts that failed since the last one that did not. -/
  failures : UInt32 := 0
  /-- Whether a post has been completed. -/
  used : Bool := false
deriving DecidableEq, Repr, Inhabited

namespace Record

/-- Takes in whether a post succeeded. -/
def note (r : Record) (success : Bool) : Record :=
  ⟨if success then 0 else r.failures + 1, true⟩

/-- How the node fares. -/
def health (r : Record) (c : Config) : Health :=
  if !r.used then .unknown
  else if 0 < r.failures ∧ c.degradedAfter ≤ r.failures then .degraded
  else .healthy

end Record

/-- The value of the body of an answer. -/
def readAnswer {α : Type} (c : Config) (read : Json → Option α) : Exchange → Except TransportError α
  | .unreachable reason => .error (.http reason)
  | .timedOut => .error (.timeout c.requestTimeoutMs)
  | .answered status body =>
    if status < 200 ∨ 300 ≤ status then
      .error (.http ("HTTP " ++ toString status ++ ": " ++ Utf8.decodeLossy body))
    else
      match ((String.fromUTF8? ⟨body.toArray⟩).bind Json.ofText?).bind read with
      | some a => .ok a
      | none => .error (.malformed "not the expected form")

/-- A client: its settings, where it posts to, and what comes of a post. -/
structure Client (w : Type) where
  url : String
  config : Config
  exchange : Json → StateM w Exchange

namespace Client

variable {w α : Type}

/-- Posts a value, and takes in what came of it. -/
def post (c : Client w) (read : Json → Option α) (body : Json) : TransportM (w × Record) α :=
  fun (world, record) =>
    let (exchange, world) := c.exchange body world
    let result := readAnswer c.config read exchange
    (result, world, record.note result.isOk)

def send (c : Client w) (r : Request) : TransportM (w × Record) Response :=
  c.post Response.ofJson? r.toJson

/-- The responses of an array. -/
def responses? (j : Json) : Option (List Response) := j.array?.bind (List.mapM Response.ofJson?)

/-- Sends several requests in one post; none if there are none. -/
def sendBatch (c : Client w) (rs : List Request) : TransportM (w × Record) (List Response) := do
  if rs.isEmpty then return []
  else
    let responses ← c.post responses? (.ofList Request.toJson rs)
    match matchResponses rs responses with
    | .ok ordered => return ordered
    | .error e => throw e

def transport (c : Client w) : Transport (w × Record) where
  url := c.url
  health s := s.2.health c.config
  send := c.send

end Client

end ContractReads.Http
