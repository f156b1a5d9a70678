import ContractReads.Log.Scan

/-!
# Logs in memory

A `LogStore` holds logs in the order in which they came, and notes which ranges it was asked for.
-/

namespace ContractReads

/-- A chain's head and its logs. -/
structure LogStore where
  head : UInt64 := 0
  logs : List Log := []
  /-- The ranges asked for so far. -/
  requests : List (UInt64 × UInt64) := []

namespace LogStore

def push (s : LogStore) (log : Log) : LogStore := { s with logs := s.logs ++ [log] }

/-- The logs of a range that a filter accepts. -/
def select (s : LogStore) (filter : LogFilter) (first last : UInt64) : List Log :=
  s.logs.filter fun log =>
    first ≤ log.blockNumber && log.blockNumber ≤ last && filter.accepts log

/-- The source of the stored logs; it never fails. -/
def source : LogSource LogStore where
  head := fun s => (.ok s.head, s)
  logs filter first last := fun s =>
    (.ok (s.select filter first last), { s with requests := s.requests ++ [(first, last)] })

end LogStore

end ContractReads
