import ContractReads.Bytes

/-!
# Logs and filters

A log is written by a contract: up to four topics to be searched by, and data.  A filter accepts
logs of some contracts, and for each topic position some values; where it names none it accepts
any.
-/

namespace ContractReads

structure Log where
  address : Address
  topics : List Word
  data : Bytes
  blockNumber : UInt64
  /-- The position of the log in its block. -/
  logIndex : UInt64
  transactionHash : Option Word
  /-- Whether the block of the log is no longer part of the chain. -/
  removed : Bool
deriving DecidableEq

structure LogFilter where
  addresses : List Address
  /-- The accepted values of each topic position. -/
  topics : List (List Word)
deriving DecidableEq

namespace LogFilter

/-- The filter that accepts every log. -/
def any : LogFilter := ⟨[], []⟩

/-- Accepts logs of one more contract. -/
def address (f : LogFilter) (a : Address) : LogFilter := { f with addresses := f.addresses ++ [a] }

/-- Adds values to a position, which is made if there are fewer. -/
def addValues (values : List Word) : (position : Nat) → List (List Word) → List (List Word)
  | 0, [] => [values]
  | 0, t :: ts => (t ++ values) :: ts
  | p + 1, [] => [] :: addValues values p []
  | p + 1, t :: ts => t :: addValues values p ts

/-- Accepts further values at a topic position. -/
def topic (f : LogFilter) (position : Nat) (values : List Word) : LogFilter :=
  { f with topics := addValues values position f.topics }

/-- Whether topics have accepted values at all positions that ask for some. -/
def topicsMatch : (accepted : List (List Word)) → (topics : List Word) → Bool
  | [], _ => true
  | [] :: accepted, topics => topicsMatch accepted (topics.drop 1)
  | (_ :: _) :: _, [] => false
  | (v :: vs) :: accepted, t :: topics => (v :: vs).contains t && topicsMatch accepted topics

/-- Whether the filter accepts a log. -/
def accepts (f : LogFilter) (log : Log) : Bool :=
  (f.addresses.isEmpty || f.addresses.contains log.address) && topicsMatch f.topics log.topics

end LogFilter

end ContractReads
