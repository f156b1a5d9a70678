import ContractReads.Error

/-!
# Transports

A transport sends requests to a node.  It is said to be healthy or not from what came of the
requests before.
-/

namespace ContractReads

/-- A step that may fail to reach the node. -/
abbrev TransportM (w α : Type) := ExceptT TransportError (StateM w) α

/-- What comes after a step starts where the step stopped, unless the step failed. -/
theorem TransportM.bind_apply {w α β : Type} (q : TransportM w α) (k : α → TransportM w β)
    (world : w) : (q >>= k) world =
      match q world with
      | (.ok a, world') => k a world'
      | (.error e, world') => (.error e, world') := by
  show (match q world with | (r, world') => ExceptT.bindCont k r world') = _
  obtain ⟨r, world'⟩ := q world
  cases r <;> rfl

/-- How a node fares. -/
inductive Health
  | healthy
  | degraded
  | unhealthy
  /-- No request has been completed. -/
  | unknown
deriving DecidableEq, Repr, Inhabited

namespace Health

/-- Whether new work may be sent. -/
def acceptsWork (h : Health) : Bool := h != unhealthy

def render : Health → String
  | healthy => "healthy"
  | degraded => "degraded"
  | unhealthy => "unhealthy"
  | unknown => "unknown"

end Health

/-- A way to send requests. -/
structure Transport (w : Type) where
  url : String
  health : w → Health
  send : Rpc.Request → TransportM w Rpc.Response

namespace Transport

variable {w v : Type}

/-- The same transport inside a larger world. -/
def within (get : v → w) (put : w → v → v) (t : Transport w) : Transport v where
  url := t.url
  health s := t.health (get s)
  send request := fun s =>
    let (r, inner) := t.send request (get s)
    (r, put inner s)

/-- Sends a request; gives its result, or the node's error. -/
def call (t : Transport w) (id : UInt64) (method : String) (params : List Json) :
    TransportM w Json := do
  let response ← t.send (.make (.number id) method params)
  match response.intoResult with
  | .ok value => return value
  | .error e => throw (.rpc e)

/-- Sends requests one after the other, up to the first failure. -/
def sendEach (t : Transport w) : List Rpc.Request → TransportM w (List Rpc.Response)
  | [] => return []
  | r :: rs => do
    let response ← t.send r
    let responses ← sendEach t rs
    return response :: responses

end Transport

/-- A node's world, and the id of the next request to it. -/
structure Numbered (w : Type) where
  inner : w
  nextId : UInt64 := 1

namespace Numbered

variable {w : Type}

/-- Sends a request under a new id. -/
def call (t : Transport w) (method : String) (params : List Json) :
    TransportM (Numbered w) Json := fun s =>
  let (r, inner) := t.call s.nextId method params s.inner
  (r, ⟨inner, s.nextId + 1⟩)

end Numbered

end ContractReads
