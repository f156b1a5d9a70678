import ContractReads.Oracle.Config
import ContractReads.Oracle.Dao
import ContractReads.Oracle.Fit
import ContractReads.Oracle.Window

/-!
# Participation

How evenly members submit.  Since the members last changed, each interval needs more than half of
them; if they took turns at random, each would make the expected number of submissions.  The
actual counts are compared with that number by a test of fit: a low probability means that the
load is spread unevenly.
-/

namespace ContractReads.Oracle

/-- The submissions of every member since the members last changed. -/
structure Participation where
  kind : SubmissionKind
  /-- The block that is looked at. -/
  block : UInt64
  startBlock : UInt64
  updateFrequency : UInt64
  /-- Intervals since the start. -/
  updateCount : UInt64
  expectedSubmissions : Float
  chiSquare : Float
  /-- How likely so large a statistic is by chance. -/
  probability : Float
  /-- Per member, for which intervals they submitted. -/
  rows : List (Address × List Bool)

namespace Participation

/-- How many intervals a row has submissions for. -/
def countOf (row : List Bool) : UInt64 := UInt64.ofNat (row.count true)

/-- Per member, how many intervals they submitted for. -/
def actualSubmissions (p : Participation) : List (Address × UInt64) :=
  p.rows.map fun r => (r.1, countOf r.2)

/-- The share of intervals that a member submitted for. -/
def rate? (p : Participation) (member : Address) : Option Float :=
  (p.rows.find? fun r => r.1 = member).map fun r =>
    if p.updateCount = 0 then 0 else (countOf r.2).toFloat / p.updateCount.toFloat

end Participation

/-- What a participation is calculated from. -/
structure Calculator (w : Type) where
  engine : Engine w
  logs : LogSource w
  dao : Dao
  settings : Contract
  prices : Submissions
  balances : Submissions
  config : ParticipationConfig
  special : SpecialFunction

namespace Calculator

variable {w : Type}

/-- A calculator over the contracts of a registry.  Members are read in shards that fit into a
batch. -/
def make (g : Engine w) (logs : LogSource w) (r : Registry) (c : ParticipationConfig)
    (special : SpecialFunction) : Except QueryError (Calculator w) := do
  c.check.mapError .invalidConfig
  if g.config.maxBatchSize < c.memberBatchSize then
    throw (.invalidConfig (.shardAboveBatch "member_batch_size" g.config.maxBatchSize))
  let dao ← Dao.ofRegistry r
  let settings ← r.get ContractName.networkSettings
  let prices ← Submissions.ofRegistry r .prices
  let balances ← Submissions.ofRegistry r .balances
  return ⟨g, logs, dao, settings, prices, balances, c, special⟩

def submissions (c : Calculator w) : SubmissionKind → Submissions
  | .prices => c.prices
  | .balances => c.balances

/-- Blocks of one request for logs. -/
def maxRange (c : Calculator w) : Option UInt64 :=
  c.config.logIntervalSize <|> c.engine.config.logIntervalSize

/-- The block that is looked at: the given one, or the head. -/
def resolveBlock (c : Calculator w) : Option UInt64 → QueryM (w × Nat) UInt64
  | some block => return block
  | none => asQuery c.logs.head

/-- The frequency and the number of members, if both are positive. -/
def checkParameters (kind : SubmissionKind) (slots : Slots UInt64) :
    Except QueryError (UInt64 × UInt64) := do
  let frequency ← Contract.asQueryError
    (Dao.slotValue slots 0 (.slotEmpty "submit frequency missing"))
  let members ← Contract.asQueryError (Dao.slotValue slots 1 (.slotEmpty "member count missing"))
  if frequency = 0 then throw (.invalidConfig (.zeroFrequency (some kind.render)))
  else if members = 0 then throw (.invalidConfig .noMembers)
  else return (frequency, members)

/-- Reads the frequency and the number of members in one batch. -/
def readParameters (c : Calculator w) (kind : SubmissionKind) (block : BlockTag) :
    QueryM (w × Nat) (UInt64 × UInt64) := do
  let register (b : Batch UInt64) : Except QueryError (Batch UInt64) := do
    let b ← addSubmitFrequency c.settings kind 0 fromAbi b
    c.dao.addMemberCount 1 fromAbi b
  let ((), slots) ← (c.engine.query register block).withSlots (Slots.empty 2)
  .ofExcept (checkParameters kind slots)

def members (c : Calculator w) (count : UInt64) (block : BlockTag) :
    QueryM (w × Nat) (List Address) :=
  c.dao.memberAddresses c.engine count.toNat c.config.memberBatchSize block

/-- A row of intervals with those marked that blocks belong to. -/
def markRow (win : Window) (blocks : List UInt64) : List Bool :=
  blocks.foldl (fun row block =>
    match win.indexOf? block with
    | some i => row.set i true
    | none => row) (List.replicate win.intervals.toNat false)

/-- Sets a member's row; a member that is already there keeps its place. -/
def setRow (member : Address) (row : List Bool) :
    List (Address × List Bool) → List (Address × List Bool)
  | [] => [(member, row)]
  | (m, r) :: rest => if m = member then (m, row) :: rest else (m, r) :: setRow member row rest

/-- The rows of members, read one after the other.  Nothing is read for an empty window. -/
def readRows (c : Calculator w) (kind : SubmissionKind) (win : Window) (block : UInt64) :
    List Address → List (Address × List Bool) → QueryM (w × Nat) (List (Address × List Bool))
  | [], rows => return rows
  | member :: members, rows => do
    let blocks ←
      if win.intervals = 0 then pure []
      else (c.submissions kind).blocksOf c.logs member win.startBlock block c.maxRange
    c.readRows kind win block members (setRow member (markRow win blocks) rows)

/-- The statistic and its probability; an empty window fits. -/
def fit (c : Calculator w) (win : Window) (members : Nat) (counts : List UInt64)
    (expected : Float) : Except QueryError (Float × Float) :=
  if win.intervals = 0 then .ok (0, 1)
  else
    let chi := chiSquare counts expected
    (fitProbability c.special members chi).map fun p => (chi, p)

/-- The participation in submissions of a kind, at a block or at the head. -/
def calculate (c : Calculator w) (kind : SubmissionKind) (block : Option UInt64) :
    QueryM (w × Nat) Participation := do
  let block ← c.resolveBlock block
  let (frequency, count) ← c.readParameters kind (.number block)
  let floor := lookbackFloor block frequency c.config.lookbackIntervals
  let baseline ← c.dao.latestChange c.logs floor block c.maxRange
  let win ← .ofExcept (Window.make baseline block frequency)
  let expected := expectedSubmissions win.intervals count
  let members ← c.members count (.number block)
  let rows ← c.readRows kind win block members []
  let counts := rows.map fun r => Participation.countOf r.2
  let (chi, probability) ← .ofExcept (c.fit win members.length counts expected)
  return ⟨kind, block, win.startBlock, frequency, win.intervals, expected, chi, probability, rows⟩

/-- Sets whether a member submitted; a member that is already there keeps its place. -/
def setSubmitted (submitters : List Address) (members : List Address) : List (Address × Bool) :=
  (Submissions.distinct members).map fun m => (m, submitters.contains m)

/-- Whether each member submitted in the interval of a block, or of the head. -/
def latest (c : Calculator w) (kind : SubmissionKind) (block : Option UInt64) :
    QueryM (w × Nat) (List (Address × Bool)) := do
  let block ← c.resolveBlock block
  let (frequency, count) ← c.readParameters kind (.number block)
  let members ← c.members count (.number block)
  let first := block / frequency * frequency
  let submitters ← (c.submissions kind).submitters c.logs first block c.maxRange
  return setSubmitted submitters members

def render (c : Calculator w) : String :=
  Text.someFields "ParticipationCalculator" [("dao", c.dao.members.address.hex),
    ("config", c.config.render)]

end Calculator

end ContractReads.Oracle
