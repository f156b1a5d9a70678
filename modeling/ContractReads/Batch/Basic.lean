import ContractReads.Batch.Call
import ContractReads.Batch.Slots

/-!
# Batches

A batch holds calls in the order of their registration, up to a limit.  `Batch.settle` says what
the outcomes of its calls come to: a flag per call, and what is written into the slots.  A strict
batch fails as a whole if one call fails or returns what cannot be decoded; a flexible one flags
such a call.  Every result is decoded before anything is written.
-/

namespace ContractReads

/-- What the failure of one call means for its batch. -/
inductive Mode
  /-- It fails the whole batch. -/
  | strict
  /-- It is flagged. -/
  | flexible
deriving DecidableEq, Repr, Inhabited

/-- Calls that share a round trip. -/
structure Batch (α : Type) where
  calls : List (Call α)
  /-- How many calls the batch may hold. -/
  limit : Nat

/-- What settling a batch comes to. -/
structure Settlement (α : Type) where
  /-- Whether each call succeeded and was decoded, in the order of the calls. -/
  flags : List Bool
  /-- Slots and their new values, in the order of the calls. -/
  writes : List (Nat × α)

namespace Batch

variable {α : Type}

def empty (limit : Nat) : Batch α := ⟨[], limit⟩

def size (b : Batch α) : Nat := b.calls.length

def isEmpty (b : Batch α) : Bool := b.calls.isEmpty

/-- Registers a call, unless the batch is full. -/
def add (b : Batch α) (c : Call α) : Except QueryError (Batch α) :=
  if b.size < b.limit then .ok { b with calls := b.calls ++ [c] }
  else .error (.batchFull b.limit)

/-- A call's failure or undecodable result, flagged. -/
def flagged (s : Settlement α) : Settlement α := { s with flags := false :: s.flags }

/-- A call's value, ahead of those that follow. -/
def accepted (slot : Nat) (a : α) (s : Settlement α) : Settlement α :=
  ⟨true :: s.flags, (slot, a) :: s.writes⟩

/-- Decodes each success. -/
def decodeAll (mode : Mode) : List (Call α) → List Outcome → Except QueryError (Settlement α)
  | c :: cs, o :: os =>
    if !o.isSuccess then (decodeAll mode cs os).map flagged
    else
      match c.decode o.returnData, mode with
      | .ok a, _ => (decodeAll mode cs os).map (accepted c.slot a)
      | .error e, .strict => .error e
      | .error _, .flexible => (decodeAll mode cs os).map flagged
  | _, _ => .ok ⟨[], []⟩

section Decoding

variable {mode : Mode} {c : Call α} {cs : List (Call α)} {o : Outcome} {os : List Outcome}

@[simp] theorem decodeAll_nil_left : decodeAll mode ([] : List (Call α)) os = .ok ⟨[], []⟩ := by
  rw [decodeAll]; simp

@[simp] theorem decodeAll_nil_right : decodeAll mode cs [] = .ok ⟨[], []⟩ := by
  rw [decodeAll]; simp

/-- A call that failed is flagged. -/
theorem decodeAll_cons_of_failure (h : o.isSuccess = false) :
    decodeAll mode (c :: cs) (o :: os) = (decodeAll mode cs os).map flagged := by
  simp [decodeAll, h]

/-- A call whose bytes decode is accepted. -/
theorem decodeAll_cons_of_ok {a : α} (h : o.isSuccess = true)
    (ha : c.decode o.returnData = .ok a) :
    decodeAll mode (c :: cs) (o :: os) = (decodeAll mode cs os).map (accepted c.slot a) := by
  simp [decodeAll, h, ha]

/-- Undecodable bytes fail a strict batch. -/
theorem decodeAll_strict_cons_of_error {cause : QueryError} (h : o.isSuccess = true)
    (hbad : c.decode o.returnData = .error cause) :
    decodeAll .strict (c :: cs) (o :: os) = .error cause := by
  simp [decodeAll, h, hbad]

/-- Undecodable bytes are flagged in a flexible batch. -/
theorem decodeAll_flexible_cons_of_error {cause : QueryError} (h : o.isSuccess = true)
    (hbad : c.decode o.returnData = .error cause) :
    decodeAll .flexible (c :: cs) (o :: os) = (decodeAll .flexible cs os).map flagged := by
  simp [decodeAll, h, hbad]

end Decoding

/-- What the outcomes that an endpoint gave come to. -/
def settle (b : Batch α) (mode : Mode) (endpoint : String) (outcomes : List Outcome) :
    Except QueryError (Settlement α) :=
  if outcomes.length ≠ b.size then
    .error (.transport (.other (.outcomeCount endpoint outcomes.length b.size)))
  else
    match mode, outcomes.findIdx? fun o => !o.isSuccess with
    | .strict, some index => .error (.partialFailure index outcomes.length)
    | _, _ => decodeAll mode b.calls outcomes

def render (endpoint : String) (b : Batch α) : String :=
  Text.fields "Batch" [("endpoint", Text.quoted endpoint), ("calls", toString b.size),
    ("max_size", toString b.limit)]

end Batch

end ContractReads
