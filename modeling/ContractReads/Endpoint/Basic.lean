import ContractReads.Batch.Basic
import ContractReads.Rpc.BlockTag

/-!
# Endpoints

An endpoint answers a batch of calls in one round trip, which takes time: `submit` takes the
batch and says after how many milliseconds it is answered, `answer` gives the outcomes and says
how many milliseconds they are still on their way.  What an endpoint knows and counts is a world
of type `w`.
-/

namespace ContractReads

/-- A batch on its way. -/
structure RoundTrip where
  calls : List EncodedCall
  /-- Whether the endpoint may fail the whole round trip if one call fails. -/
  requireSuccess : Bool
  block : BlockTag
deriving DecidableEq

/-- What endpoints answer a batch with. -/
abbrev Answer := Except TransportError (List Outcome)

/-- A way to have batches answered. -/
structure Endpoint (w : Type) where
  name : String
  /-- Whether new batches are taken. -/
  ready : w → Except TransportError Unit
  /-- Takes a batch; it is answered after so many milliseconds. -/
  submit : RoundTrip → w → Nat × w
  /-- Answers a batch; the answer arrives after so many milliseconds. -/
  answer : RoundTrip → w → Answer × Nat × w

namespace Endpoint

variable {w v : Type}

/-- The same endpoint inside a larger world. -/
def within (get : v → w) (put : w → v → v) (e : Endpoint w) : Endpoint v where
  name := e.name
  ready s := e.ready (get s)
  submit trip s :=
    let (ms, inner) := e.submit trip (get s)
    (ms, put inner s)
  answer trip s :=
    let (a, ms, inner) := e.answer trip (get s)
    (a, ms, put inner s)

end Endpoint

/-- The round trip of a batch. -/
def Batch.roundTrip {α : Type} (b : Batch α) (mode : Mode) (block : BlockTag) : RoundTrip :=
  ⟨b.calls.map Call.encoded, mode = .strict, block⟩

end ContractReads
