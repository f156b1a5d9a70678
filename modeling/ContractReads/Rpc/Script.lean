import ContractReads.Rpc.Transport

/-!
# Scripted transports

A `Script` holds the replies to the requests to come, and the requests so far.
-/

namespace ContractReads

/-- Replies that are used one per request. -/
structure Script where
  replies : List (Except TransportError Rpc.Response) := []
  sent : List Rpc.Request := []
  health : Health := .unknown

namespace Script

/-- The failure when there is no reply left. -/
def exhausted : TransportError := .other (.reason "no reply scripted")

/-- The reply that a JSON value spells. -/
def replyOfJson (j : Json) : Except TransportError Rpc.Response :=
  match Rpc.Response.ofJson? j with
  | some r => .ok r
  | none => .error (.malformed "not a response")

/-- The transport that replies as the script says. -/
def transport : Transport Script where
  url := "scripted"
  health := Script.health
  send request := fun s =>
    match s.replies with
    | [] => (.error exhausted, { s with sent := s.sent ++ [request] })
    | reply :: replies => (reply, { s with replies := replies, sent := s.sent ++ [request] })

end Script

end ContractReads
