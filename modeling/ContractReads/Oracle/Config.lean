import ContractReads.Json.Record
import ContractReads.Error
import ContractReads.Text.Fields

/-!
# Settings of the participation

How far back a change of the members is looked for, and how reads are divided.  Settings are
written as a JSON record, in which every member may be missing.
-/

namespace ContractReads.Oracle

structure ParticipationConfig where
  /-- Intervals in which a change of the members is looked for. -/
  lookbackIntervals : UInt64 := 50
  /-- Items of a shard when members are read. -/
  memberBatchSize : Nat := 200
  /-- Blocks of one request for logs; if it is not given, the engine's settings decide. -/
  logIntervalSize : Option UInt64 := none
deriving DecidableEq, Repr, Inhabited

namespace ParticipationConfig

/-- The first setting that is out of its range. -/
def check (c : ParticipationConfig) : Except ConfigError Unit :=
  if c.memberBatchSize = 0 then .error (.belowOne "member_batch_size")
  else if c.logIntervalSize = some 0 then .error (.belowOneBlock "log_interval_size")
  else .ok ()

def toJson (c : ParticipationConfig) : Json :=
  .object [("lookback_intervals", .ofUInt64 c.lookbackIntervals),
    ("member_batch_size", .ofNat c.memberBatchSize),
    ("log_interval_size", .ofOption .ofUInt64 c.logIntervalSize)]

def ofJson? (j : Json) : Option ParticipationConfig := do
  match ← j.record? ["lookback_intervals", "member_batch_size", "log_interval_size"] with
  | [lookback, batch, interval] =>
    let c : ParticipationConfig := {}
    return {
      lookbackIntervals := ← Json.withDefault? c.lookbackIntervals Json.uint64? lookback
      memberBatchSize := ← Json.withDefault? c.memberBatchSize Json.size? batch
      logIntervalSize := ← Json.nullable? Json.uint64? interval }
  | _ => none

def render (c : ParticipationConfig) : String :=
  Text.fields "ParticipationConfig" [("lookback_intervals", toString c.lookbackIntervals.toNat),
    ("member_batch_size", toString c.memberBatchSize),
    ("log_interval_size", Text.optional (fun n => toString n.toNat) c.logIntervalSize)]

end ParticipationConfig

end ContractReads.Oracle
