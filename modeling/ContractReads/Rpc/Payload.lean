import ContractReads.Rpc.Transport

/-!
# Byte strings from a node

A node writes byte strings as hexadecimal texts behind `0x`.
-/

namespace ContractReads.Rpc

/-- The bytes of a JSON value that is a hexadecimal text. -/
def payload (j : Json) : Except TransportError Bytes :=
  match j with
  | .string s =>
    match Hex.payload? s with
    | .ok bs => .ok bs
    | .error cause => .error (.other (.badHex cause))
  | j => .error (.other (.notHexText j))

end ContractReads.Rpc
