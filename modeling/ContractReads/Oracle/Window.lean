import ContractReads.Error

/-!
# Windows of submissions

Members are to submit for every multiple of a frequency.  A window is the multiples since the
last change of the members, up to the block that is looked at; each has an index.
-/

namespace ContractReads.Oracle

/-- The multiples of `frequency` from `startBlock` on, `intervals` of them. -/
structure Window where
  startBlock : UInt64
  frequency : UInt64
  intervals : UInt64
deriving DecidableEq, Repr

namespace Window

/-- The window behind a baseline, up to a block.  It is empty unless the block lies behind the
first multiple. -/
def make (baseline block frequency : UInt64) : Except QueryError Window :=
  if frequency = 0 then .error (.invalidConfig (.zeroFrequency none))
  else
    let start := (baseline / frequency + 1) * frequency
    .ok ⟨start, frequency, if start < block then (block - start) / frequency + 1 else 0⟩

/-- The index of a block, if it is one of the window's. -/
def indexOf? (win : Window) (block : UInt64) : Option Nat :=
  if block % win.frequency ≠ 0 ∨ block < win.startBlock then none
  else
    let index := block / win.frequency - win.startBlock / win.frequency
    if index < win.intervals then some index.toNat else none

end Window

/-- The earliest block at which a change of the members is looked for: as many multiples of the
frequency before the block, but not before the first block. -/
def lookbackFloor (block frequency lookback : UInt64) : UInt64 :=
  if frequency = 0 then 0
  else
    let interval := block / frequency
    if lookback < interval then (interval - lookback) * frequency else 0

/-- How many members have to submit the same. -/
def consensus (members : UInt64) : UInt64 := members / 2 + 1

/-- How many submissions each member would make if members took turns at random. -/
def expectedSubmissions (intervals members : UInt64) : Float :=
  if members = 0 then 0
  else intervals.toFloat * (consensus members).toFloat / members.toFloat

end ContractReads.Oracle
