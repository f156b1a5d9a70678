import ContractReads.Abi.Encode
import ContractReads.Abi.Interface
import ContractReads.Address
import ContractReads.Endpoint.Basic
import ContractReads.Rpc.Payload

/-!
# An endpoint over a bundling contract

A contract on chain takes a list of calls and returns the list of their outcomes, so that a batch
is one call to a node.  `Multicall.encode` writes the calls, `Multicall.decode` reads the
outcomes.
-/

namespace ContractReads

/-- Where the bundling contract is. -/
structure Multicall where
  address : Address

namespace Multicall

/-- The well-known address of the bundling contract. -/
def wellKnown : Address := FixedBytes.ofNat 20 0x5BA1e12693Dc8F9c48aAD8770482f4739bEeD696

/-- What the function that bundles is known by. -/
def selector : Bytes := selectorOf "tryAggregate(bool,(address,bytes)[])"

def callValue (c : EncodedCall) : AbiValue := .tuple [.address c.target, .bytes c.calldata]

/-- The bytes that ask for a list of calls. -/
def encode (requireSuccess : Bool) (calls : List EncodedCall) : Bytes :=
  selector ++ AbiValue.encodeParams [.bool requireSuccess, .array (calls.map callValue)]

def outcomesType : AbiType := .array (.tuple [.bool, .bytes])

/-- The outcome that a value stands for; a failure's data is dropped. -/
def outcome? : AbiValue → Option Outcome
  | .tuple [.bool true, .bytes data] => some (.success data)
  | .tuple [.bool false, .bytes _] => some .failure
  | _ => none

/-- The outcomes that returned bytes hold. -/
def decode (data : Bytes) : Except TransportError (List Outcome) :=
  match Abi.decodeParams [outcomesType] data with
  | .error cause => .error (.other (.undecodableOutcomes cause))
  | .ok [.array results] =>
    match results.mapM outcome? with
    | some outcomes => .ok outcomes
    | none => .error (.other .outcomeShape)
  | .ok _ => .error (.other .outcomeShape)

/-- The parameters of the request that carries a batch. -/
def params (m : Multicall) (trip : RoundTrip) : List Json :=
  [.object [("to", .string m.address.checksummed),
      ("data", .string (Hex.encode0x (encode trip.requireSuccess trip.calls)))],
    .string trip.block.param]

variable {w : Type}

/-- Whether the contract is known and its node takes work. -/
def ready (m : Multicall) (t : Transport w) (s : Numbered w) : Except TransportError Unit :=
  if m.address.isZero then .error (.other .noBundler)
  else if (t.health s.inner).acceptsWork then .ok ()
  else .error (.other (.unhealthy t.url))

/-- The answer to a batch. -/
def reply (m : Multicall) (t : Transport w) (trip : RoundTrip) :
    TransportM (Numbered w) (List Outcome) := do
  let result ← Numbered.call t "eth_call" (m.params trip)
  match Rpc.payload result >>= decode with
  | .ok outcomes => return outcomes
  | .error e => throw e

/-- The endpoint that sends every batch as one call; it takes no time of its own. -/
def endpoint (m : Multicall) (t : Transport w) : Endpoint (Numbered w) where
  name := "multicall"
  ready := m.ready t
  submit _ s := (0, s)
  answer trip s :=
    let (a, s) := m.reply t trip s
    (a, 0, s)

def render (url : String) (m : Multicall) : String :=
  Text.fields "Multicall" [("transport", Text.quoted url), ("address", m.address.hex)]

end Multicall

end ContractReads
