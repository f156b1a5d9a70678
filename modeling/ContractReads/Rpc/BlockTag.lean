import ContractReads.Json.Record
import ContractReads.Rpc.Quantity

/-!
# Blocks to read at

A read is answered as of one block: the latest one, or one given by its number.
-/

namespace ContractReads

/-- The block that a read is evaluated against. -/
inductive BlockTag
  | latest
  | number (n : UInt64)
deriving DecidableEq, Repr, Inhabited

namespace BlockTag

/-- The latest block if there is no number. -/
def ofNumber? : Option UInt64 → BlockTag
  | none => latest
  | some n => number n

/-- The number of the block, if it is given by one. -/
def number? : BlockTag → Option UInt64
  | latest => none
  | number n => some n

def param : BlockTag → String
  | latest => "latest"
  | number n => Quantity.render n

def toJson : BlockTag → Json
  | latest => .string "latest"
  | number n => .object [("number", .ofUInt64 n)]

/-- Reads `"latest"`, or an object whose only member is a number. -/
def ofJson? : Json → Option BlockTag
  | .string "latest" => some latest
  | .object [("latest", .null)] => some latest
  | .object [("number", n)] => n.uint64?.map number
  | _ => none

end BlockTag

end ContractReads
