import ContractReads.Log.Basic
import ContractReads.Rpc.Transport

/-!
# Scanning logs

A `LogSource` knows the head of the chain and the logs of a range of blocks.  `scan` asks for a
range in pieces of at most a given number of blocks; the pieces are asked for in order, each
starts behind the one before, and the first failure ends the scan.
-/

namespace ContractReads

/-- Where logs come from. -/
structure LogSource (w : Type) where
  /-- The number of the latest block. -/
  head : TransportM w UInt64
  /-- The logs of a range of blocks, its ends included, that a filter accepts. -/
  logs : LogFilter → (first last : UInt64) → TransportM w (List Log)

namespace LogSource

variable {w v : Type}

/-- The same source inside a larger world. -/
def within (get : v → w) (put : w → v → v) (s : LogSource w) : LogSource v where
  head := fun t =>
    let (r, inner) := s.head (get t)
    (r, put inner t)
  logs filter first last := fun t =>
    let (r, inner) := s.logs filter first last (get t)
    (r, put inner t)

/-- The end of a piece that starts at `start`: at most `span` blocks, up to `last`. -/
def pieceEnd (span start last : UInt64) : UInt64 :=
  if last.toNat < start.toNat + span.toNat then last else start + (span - 1)

/-- Asks for the blocks from `start` to `last` in pieces.  Each piece ends before `last` or the
scan ends with it. -/
def scanPieces (s : LogSource w) (filter : LogFilter) (span last : UInt64) (start : UInt64) :
    TransportM w (List Log) := do
  let stop := pieceEnd span start last
  let piece ← s.logs filter start stop
  if _h : start.toNat ≤ stop.toNat ∧ stop.toNat < last.toNat then
    let rest ← s.scanPieces filter span last (stop + 1)
    return piece ++ rest
  else return piece
termination_by last.toNat - start.toNat
decreasing_by
  have hl := last.toNat_lt
  have : (stop + 1).toNat = stop.toNat + 1 := by
    rw [UInt64.toNat_add]
    simp only [UInt64.toNat_one]
    omega
  change last.toNat - (stop + 1).toNat < last.toNat - start.toNat
  omega

/-- The logs of a range of blocks up to `last`, or up to the head, asked for in pieces of at most
`maxRange` blocks. -/
def scan (s : LogSource w) (filter : LogFilter) (first : UInt64) (last maxRange : Option UInt64) :
    TransportM w (List Log) := do
  let last ← match last with
    | some n => pure n
    | none => s.head
  if last < first then return []
  else match maxRange with
    | none => s.logs filter first last
    | some span =>
      if span = 0 then throw (.other .emptyScanRange)
      else s.scanPieces filter span last first

end LogSource

end ContractReads
