import ContractReads.Error

/-!
# Matching responses to requests

A node may answer the requests of a batch in any order, but has to answer each of them exactly
once.  `matchResponses` puts the responses into the order of the requests.
-/

namespace ContractReads.Http

open Rpc (Request Response)

/-- The responses so far, by the positions of their requests. -/
abbrev Placed := List (Option Response)

/-- Places a response at the first request of its id. -/
def place (requests : List Request) (placed : Placed) (response : Response) :
    Except TransportError Placed :=
  match requests.findIdx? fun r => r.id = response.id with
  | none => .error (.other (.unknownResponse response.id))
  | some i =>
    match placed[i]?.join with
    | some _ => .error (.other (.duplicateResponse response.id))
    | none => .ok (placed.set i (some response))

/-- The responses of all requests, up to the first that has none. -/
def collect : List Request → Placed → Except TransportError (List Response)
  | r :: _, none :: _ => .error (.other (.missingResponse r.id))
  | _ :: rs, some response :: placed => (collect rs placed).map (response :: ·)
  | _, _ => .ok []

/-- The responses in the order of the requests. -/
def matchResponses (requests : List Request) (responses : List Response) :
    Except TransportError (List Response) := do
  let placed ← responses.foldlM (place requests) (List.replicate requests.length none)
  collect requests placed

end ContractReads.Http
