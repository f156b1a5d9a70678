import ContractReads.Json.Record
import ContractReads.Scheduler.Basic

/-!
# Settings of an engine

How many round trips may be in flight, how large shards and batches may be, and what happens when
a shard fails.  Settings are written as a JSON record, in which every member may be missing.
-/

namespace ContractReads

open Scheduler (FailurePolicy)

namespace Scheduler.FailurePolicy

def toJson : FailurePolicy → Json
  | runToCompletion => .string "run_to_completion"
  | cancelOnFirstError => .string "cancel_on_first_error"

def ofJson? (j : Json) : Option FailurePolicy := do
  match ← j.variant? with
  | "run_to_completion" => some runToCompletion
  | "cancel_on_first_error" => some cancelOnFirstError
  | _ => none

end Scheduler.FailurePolicy

structure EngineConfig where
  /-- Round trips in flight at once. -/
  concurrentCallLimit : Nat := 6
  /-- Items of a shard when addresses are looked up. -/
  addressBatchSize : Nat := 1000
  /-- Items of a shard when versions are read. -/
  contractVersionBatchSize : Nat := 500
  /-- Calls of one batch. -/
  maxBatchSize : Nat := 2000
  /-- Blocks of one request for logs, if they are bounded. -/
  logIntervalSize : Option UInt64 := none
  failurePolicy : FailurePolicy := .runToCompletion
deriving DecidableEq, Repr, Inhabited

namespace EngineConfig

/-- The first setting that is out of its range. -/
def check (c : EngineConfig) : Except ConfigError Unit :=
  let fitsBatch (size : Nat) : Bool := 1 ≤ size && size ≤ c.maxBatchSize
  if c.concurrentCallLimit = 0 then .error (.belowOne "concurrent_call_limit")
  else if c.maxBatchSize = 0 then .error (.belowOne "max_batch_size")
  else if !fitsBatch c.addressBatchSize then
    .error (.shardOutOfRange "address_batch_size" c.maxBatchSize)
  else if !fitsBatch c.contractVersionBatchSize then
    .error (.shardOutOfRange "contract_version_batch_size" c.maxBatchSize)
  else if c.logIntervalSize = some 0 then .error (.belowOneBlock "log_interval_size")
  else .ok ()

/-- Settings that are all in their ranges. -/
structure InRange (c : EngineConfig) : Prop where
  concurrentCallLimit : 0 < c.concurrentCallLimit
  maxBatchSize : 0 < c.maxBatchSize
  addressBatchSize : 0 < c.addressBatchSize ∧ c.addressBatchSize ≤ c.maxBatchSize
  contractVersionBatchSize :
    0 < c.contractVersionBatchSize ∧ c.contractVersionBatchSize ≤ c.maxBatchSize
  logIntervalSize : c.logIntervalSize ≠ some 0

/-- Settings that are not refused are in their ranges. -/
theorem inRange_of_check {c : EngineConfig} (h : c.check = .ok ()) : c.InRange := by
  simp only [check, Bool.not_eq_true', Bool.and_eq_false_iff, decide_eq_false_iff_not] at h
  split at h
  · cases h
  split at h
  · cases h
  split at h
  · cases h
  split at h
  · cases h
  split at h
  · cases h
  rename_i hcalls hbatch haddress hversion hinterval
  exact ⟨by omega, by omega, by omega, by omega, hinterval⟩

def toJson (c : EngineConfig) : Json :=
  .object [("concurrent_call_limit", .ofNat c.concurrentCallLimit),
    ("address_batch_size", .ofNat c.addressBatchSize),
    ("contract_version_batch_size", .ofNat c.contractVersionBatchSize),
    ("max_batch_size", .ofNat c.maxBatchSize),
    ("log_interval_size", .ofOption .ofUInt64 c.logIntervalSize),
    ("failure_policy", c.failurePolicy.toJson)]

def ofJson? (j : Json) : Option EngineConfig := do
  match ← j.record? ["concurrent_call_limit", "address_batch_size", "contract_version_batch_size",
      "max_batch_size", "log_interval_size", "failure_policy"] with
  | [concurrent, address, version, batch, interval, policy] =>
    let c : EngineConfig := {}
    return {
      concurrentCallLimit := ← Json.withDefault? c.concurrentCallLimit Json.size? concurrent
      addressBatchSize := ← Json.withDefault? c.addressBatchSize Json.size? address
      contractVersionBatchSize := ← Json.withDefault? c.contractVersionBatchSize Json.size? version
      maxBatchSize := ← Json.withDefault? c.maxBatchSize Json.size? batch
      logIntervalSize := ← Json.nullable? Json.uint64? interval
      failurePolicy := ← Json.withDefault? c.failurePolicy FailurePolicy.ofJson? policy }
  | _ => none

def render (c : EngineConfig) : String :=
  Text.fields "EngineConfig" [("concurrent_call_limit", toString c.concurrentCallLimit),
    ("address_batch_size", toString c.addressBatchSize),
    ("contract_version_batch_size", toString c.contractVersionBatchSize),
    ("max_batch_size", toString c.maxBatchSize),
    ("log_interval_size", Text.optional (fun n => toString n.toNat) c.logIntervalSize),
    ("failure_policy", Scheduler.policyText c.failurePolicy)]

end EngineConfig

end ContractReads
