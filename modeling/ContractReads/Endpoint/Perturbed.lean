import ContractReads.Endpoint.Basic

/-!
# Perturbed endpoints

`Endpoint.perturbed` records the round trips of another endpoint, holds up the answers to some
batches, and adds outcomes to answers or takes some away.
-/

namespace ContractReads

/-- How an endpoint is perturbed, and what it was asked. -/
structure Perturbed (w : Type) where
  inner : w
  /-- Milliseconds by which the answer to a batch is held up if its first call has a target. -/
  delays : List (Address × Nat) := []
  /-- How many outcomes are added to an answer, or taken away if negative. -/
  surplus : Int := 0
  /-- The round trips so far. -/
  trips : List RoundTrip := []

namespace Perturbed

variable {w : Type}

/-- Sets how long a target holds up the answer. -/
def delay (p : Perturbed w) (target : Address) (ms : Nat) : Perturbed w :=
  { p with delays := (target, ms) :: p.delays }

/-- How long the answer to a batch is held up. -/
def hold (p : Perturbed w) (trip : RoundTrip) : Nat :=
  match trip.calls with
  | [] => 0
  | c :: _ => ((p.delays.find? fun d => d.1 = c.target).map Prod.snd).getD 0

/-- The outcomes with failures added at the end, or with the last ones taken away. -/
def adjust (surplus : Int) (outcomes : List Outcome) : List Outcome :=
  if 0 ≤ surplus then outcomes ++ List.replicate surplus.toNat .failure
  else outcomes.take (outcomes.length - (-surplus).toNat)

end Perturbed

/-- An endpoint that is recorded, held up and altered. -/
def Endpoint.perturbed {w : Type} (e : Endpoint w) : Endpoint (Perturbed w) where
  name := e.name
  ready p := e.ready p.inner
  submit trip p :=
    let (ms, inner) := e.submit trip p.inner
    (ms, { p with inner := inner, trips := p.trips ++ [trip] })
  answer trip p :=
    let (a, ms, inner) := e.answer trip p.inner
    (a.map (Perturbed.adjust p.surplus), ms + p.hold trip, { p with inner := inner })

end ContractReads
