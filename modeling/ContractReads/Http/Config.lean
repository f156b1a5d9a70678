import ContractReads.Json.Record

/-!
# Settings of an HTTP client

How long requests may take, and after how many failures in a row a node counts as degraded.
Settings are written as a JSON record, in which every member may be missing.
-/

namespace ContractReads.Http

structure Config where
  /-- Milliseconds for a whole request. -/
  requestTimeoutMs : UInt64 := 30000
  /-- Milliseconds for connecting. -/
  connectTimeoutMs : UInt64 := 10000
  /-- Failures in a row after which the node counts as degraded. -/
  degradedAfter : UInt32 := 3
deriving DecidableEq, Repr, Inhabited

namespace Config

def toJson (c : Config) : Json :=
  .object [("request_timeout_ms", .ofUInt64 c.requestTimeoutMs),
    ("connect_timeout_ms", .ofUInt64 c.connectTimeoutMs),
    ("degraded_after", .ofNat c.degradedAfter.toNat)]

def ofJson? (j : Json) : Option Config := do
  match ← j.record? ["request_timeout_ms", "connect_timeout_ms", "degraded_after"] with
  | [request, connect, degraded] =>
    let c : Config := {}
    return {
      requestTimeoutMs := ← Json.withDefault? c.requestTimeoutMs Json.uint64? request
      connectTimeoutMs := ← Json.withDefault? c.connectTimeoutMs Json.uint64? connect
      degradedAfter := ← Json.withDefault? c.degradedAfter Json.uint32? degraded }
  | _ => none

/-- Sets the time of a request, given in microseconds. -/
def withRequestTimeout (c : Config) (us : Nat) : Config :=
  { c with requestTimeoutMs := UInt64.ofNat (us / 1000) }

/-- Sets the time of connecting, given in microseconds. -/
def withConnectTimeout (c : Config) (us : Nat) : Config :=
  { c with connectTimeoutMs := UInt64.ofNat (us / 1000) }

end Config

end ContractReads.Http
