import Mathlib
import ContractReads.Proofs.NodeLogs
import ContractReads.Rpc.BlockTag

/-!
# Wire forms, read back

What is written of a request, a response or a block is read back as it was.

A wire form is a JSON value here, and no text.  The text of a value does not keep every number, as
one with a fraction may be read from it as the number beside it; so nothing is said about the texts
that requests and responses are sent as.

* `Rpc.Id.ofJson?_eq_some_iff` says that an id has one wire form, and that nothing else is read as it.
* `Rpc.Request.Written`, `Rpc.Error.Written` and `Rpc.Response.Written` say which members an object needs
  to be a wire form.  They may stand in any order, and others beside them.  Null stands for a member that
  is missing.
* `Json.present` leaves out null, which is what reading does to a member that may be missing;
  `Rpc.Response.withoutNull` does so to a response and its error.  `Rpc.Response.ofJson?_of_written` says
  that this is the only difference.
* `Rpc.wireForms_read_back` puts these together.
-/

namespace ContractReads

namespace Json

variable {name : String} {members : List (String × Json)}

/-- A value that may be missing, where null counts as missing. -/
def present (j : Option Json) : Option Json := j.filter fun j => !j.isNull

theorem present_some {j : Json} (h : j ≠ .null) : present (some j) = some j := by
  cases j with
  | null => exact absurd rfl h
  | _ => rfl

theorem present_eq_self {j : Option Json} (h : j ≠ some .null) : present j = j := by
  cases j with
  | none => rfl
  | some j => exact present_some fun hj => h (congrArg some hj)

/-- Reading a member that may be missing reads what is present of it. -/
theorem nullable?_eq {α : Type} (read : Json → Option α) (member : Option Json) :
    nullable? read member = (present member).elim (some none) fun j => (read j).map some := by
  cases member with
  | none => rfl
  | some j => cases j <;> rfl

theorem nullable?_some (member : Option Json) : nullable? some member = some (present member) := by
  rw [nullable?_eq]
  cases present member <;> rfl

/-- A member that may be missing is found, unless it is null. -/
theorem present_member? {j : Option Json} (h : Gives (fun j => j) name members j)
    (once : countMember name members ≤ 1) : present (member? name members) = present j := by
  cases j with
  | some j => rw [member?_of_mem h once]
  | none =>
    by_cases hmem : ∃ j, (name, j) ∈ members
    · obtain ⟨j, hj⟩ := hmem
      rw [member?_of_mem hj once, h j hj]
      rfl
    · rw [member?_eq_none fun m hm hname => hmem ⟨m.2, by rwa [← hname]⟩]

theorem uint64?_eq_some_iff {j : Json} {n : UInt64} : j.uint64? = some n ↔ j = ofUInt64 n := by
  cases j with
  | whole k =>
    rw [uint64?, ofUInt64, whole.injEq]
    split
    · rename_i h
      rw [Option.some.injEq, ← UInt64.toNat_inj, UInt64.toNat_ofNat_of_lt' h.2]
      omega
    · rename_i h
      have := n.toNat_lt_size
      simp only [reduceCtorEq, false_iff]
      intro hk
      omega
  | _ => simp [uint64?, ofUInt64]

theorem int64?_toInt (c : Int64) : (whole c.toInt).int64? = some c := by
  rw [int64?, if_pos ⟨c.minValue_le_toInt, c.toInt_le⟩, Int64.ofInt_toInt]

end Json

namespace Rpc

/-! ## Ids -/

namespace Id

/-- Every id has a wire form of its own, and nothing else is read as this id. -/
theorem ofJson?_eq_some_iff {i : Id} {j : Json} : ofJson? j = some i ↔ j = i.toJson := by
  cases j with
  | null => cases i <;> simp [ofJson?, toJson, Json.ofUInt64]
  | string s => cases i <;> simp [ofJson?, toJson, Json.ofUInt64]
  | whole k =>
    show (Json.uint64? (.whole k)).map number = some i ↔ _
    rw [Option.map_eq_some_iff]
    simp only [Json.uint64?_eq_some_iff]
    cases i <;> simp [toJson, Json.ofUInt64]
  | _ => cases i <;> simp [ofJson?, toJson, Json.ofUInt64, Json.uint64?]

theorem ofJson?_toJson (i : Id) : ofJson? i.toJson = some i := ofJson?_eq_some_iff.2 rfl

end Id

/-! ## Requests -/

namespace Request

/-- Members of an object that are a request. -/
structure Members (r : Request) (members : List (String × Json)) : Prop where
  once : ∀ name ∈ ["jsonrpc", "method", "params", "id"], Json.countMember name members ≤ 1
  version : ("jsonrpc", .string r.version) ∈ members
  method : ("method", .string r.method) ∈ members
  params : ("params", .array r.params) ∈ members
  id : ("id", r.id.toJson) ∈ members

/-- The object is a wire form of the request. -/
def Written (r : Request) (j : Json) : Prop := ∃ members, j = .object members ∧ r.Members members

theorem written_toJson (r : Request) : r.Written r.toJson :=
  ⟨_, rfl, by simp [Json.countMember], by simp, by simp, by simp, by simp⟩

theorem ofJson?_of_written {r : Request} {j : Json} (h : r.Written j) : ofJson? j = some r := by
  obtain ⟨members, rfl, h⟩ := h
  have honce := h.once
  simp only [List.forall_mem_cons] at honce
  obtain ⟨hversion, hmethod, hparams, hid, -⟩ := honce
  rw [ofJson?, Json.record?_object h.once]
  simp only [List.map_cons, List.map_nil, Json.member?_of_mem h.version hversion,
    Json.member?_of_mem h.method hmethod, Json.member?_of_mem h.params hparams,
    Json.member?_of_mem h.id hid, Json.required?, Option.bind_eq_bind, Option.bind_some,
    Json.string?, Json.array?, Id.ofJson?_toJson]
  rfl

end Request

/-! ## Responses -/

namespace Error

/-- The error with null data left out. -/
def withoutNull (e : Error) : Error := { e with data := Json.present e.data }

/-- Members of an object that are an error. -/
structure Members (e : Error) (members : List (String × Json)) : Prop where
  once : ∀ name ∈ ["code", "message", "data"], Json.countMember name members ≤ 1
  code : ("code", .whole e.code.toInt) ∈ members
  message : ("message", .string e.message) ∈ members
  data : Json.Gives (fun j => j) "data" members e.data

/-- The object is a wire form of the error. -/
def Written (e : Error) (j : Json) : Prop := ∃ members, j = .object members ∧ e.Members members

theorem written_toJson (e : Error) : e.Written e.toJson := by
  refine ⟨_, rfl, ?_, ?_, ?_, ?_⟩
  · cases e.data <;> simp [Json.countMember]
  · simp
  · simp
  · cases e.data <;> simp [Json.Gives]

theorem ofJson?_of_written {e : Error} {j : Json} (h : e.Written j) :
    ofJson? j = some e.withoutNull := by
  obtain ⟨members, rfl, h⟩ := h
  have honce := h.once
  simp only [List.forall_mem_cons] at honce
  obtain ⟨hcode, hmessage, hdata, -⟩ := honce
  rw [ofJson?, Json.record?_object h.once]
  simp only [List.map_cons, List.map_nil, Json.member?_of_mem h.code hcode,
    Json.member?_of_mem h.message hmessage, Json.nullable?_some, Json.present_member? h.data hdata,
    Json.required?, Option.bind_eq_bind, Option.bind_some, Json.string?, Json.int64?_toInt]
  rfl

theorem withoutNull_eq_self {e : Error} (h : e.data ≠ some .null) : e.withoutNull = e := by
  rw [withoutNull, Json.present_eq_self h]

end Error

namespace Response

/-- The response with a null result and null error data left out. -/
def withoutNull (r : Response) : Response :=
  { r with result := Json.present r.result, error := r.error.map Error.withoutNull }

/-- Members of an object that are a response. -/
structure Members (r : Response) (members : List (String × Json)) : Prop where
  once : ∀ name ∈ ["jsonrpc", "id", "result", "error"], Json.countMember name members ≤ 1
  version : ("jsonrpc", .string r.version) ∈ members
  id : ("id", r.id.toJson) ∈ members
  result : Json.Gives (fun j => j) "result" members r.result
  error : ∃ j, Json.Gives (fun j => j) "error" members j ∧ Option.Rel Error.Written r.error j

/-- The object is a wire form of the response. -/
def Written (r : Response) (j : Json) : Prop := ∃ members, j = .object members ∧ r.Members members

theorem written_toJson (r : Response) : r.Written r.toJson := by
  refine ⟨_, rfl, ?_, ?_, ?_, ?_, ?_⟩
  · cases r.result <;> cases r.error <;> simp [Json.countMember]
  · simp
  · simp
  · cases r.result <;> cases r.error <;> simp [Json.Gives]
  · refine ⟨r.error.map Error.toJson, ?_, ?_⟩
    · cases r.result <;> cases r.error <;> simp [Json.Gives]
    · cases r.error with
      | none => exact .none
      | some e => exact .some e.written_toJson

theorem nullable?_written {e : Option Error} {j member : Option Json}
    (h : Option.Rel Error.Written e j) (hmember : Json.present member = Json.present j) :
    Json.nullable? Error.ofJson? member = some (e.map Error.withoutNull) := by
  rw [Json.nullable?_eq, hmember]
  cases h with
  | none => rfl
  | some hwritten =>
    have hread := Error.ofJson?_of_written hwritten
    obtain ⟨members, rfl, -⟩ := hwritten
    show (Error.ofJson? (.object members)).map some = _
    rw [hread]
    rfl

theorem ofJson?_of_written {r : Response} {j : Json} (h : r.Written j) :
    ofJson? j = some r.withoutNull := by
  obtain ⟨members, rfl, h⟩ := h
  have honce := h.once
  simp only [List.forall_mem_cons] at honce
  obtain ⟨hversion, hid, hresult, herror, -⟩ := honce
  obtain ⟨j, hj, hwritten⟩ := h.error
  have hread := nullable?_written hwritten (Json.present_member? hj herror)
  rw [ofJson?, Json.record?_object h.once]
  simp only [List.map_cons, List.map_nil, Json.member?_of_mem h.version hversion,
    Json.member?_of_mem h.id hid, Json.nullable?_some, Json.present_member? h.result hresult, hread,
    Json.required?, Option.bind_eq_bind, Option.bind_some, Json.string?, Id.ofJson?_toJson]
  rfl

theorem withoutNull_eq_self {r : Response} (hresult : r.result ≠ some .null)
    (herror : ∀ e, r.error = some e → e.data ≠ some .null) : r.withoutNull = r := by
  have hmap : r.error.map Error.withoutNull = r.error := by
    cases hr : r.error with
    | none => rfl
    | some e => rw [Option.map_some, Error.withoutNull_eq_self (herror e hr)]
  rw [withoutNull, Json.present_eq_self hresult, hmap]

theorem isOk_withoutNull (r : Response) : r.withoutNull.isOk = r.isOk := by
  simp [isOk, withoutNull]

/-- A null result is what a missing one comes to. -/
theorem getD_present (result : Option Json) : (Json.present result).getD .null = result.getD .null := by
  cases result with
  | none => rfl
  | some j => cases j <;> rfl

theorem intoResult_withoutNull (r : Response) :
    r.withoutNull.intoResult = r.intoResult.mapError Error.withoutNull := by
  unfold intoResult withoutNull
  cases r.error with
  | none => simp [getD_present, Except.mapError]
  | some e => simp [Except.mapError]

end Response

end Rpc

/-! ## Blocks -/

theorem BlockTag.ofJson?_toJson (t : BlockTag) : ofJson? t.toJson = some t := by
  cases t with
  | latest => rfl
  | number n =>
    show (Json.ofUInt64 n).uint64?.map number = _
    rw [Json.uint64?_eq_some_iff.2 rfl]
    rfl

/-- Requests and blocks are read back as they were written.  So are responses, but for null that stands
for a missing result or for missing error data, and this changes neither the id nor whether there is an
error, and null data is all that it changes in what comes of the response.  An id is read from its own wire
form only.  Wire forms are JSON values, and not the texts of them, which do not keep every number. -/
theorem Rpc.wireForms_read_back :
    (∀ r : Request, Request.ofJson? r.toJson = some r) ∧
    (∀ t : BlockTag, BlockTag.ofJson? t.toJson = some t) ∧
    (∀ r : Response, r.result ≠ some .null → (∀ e, r.error = some e → e.data ≠ some .null) →
      Response.ofJson? r.toJson = some r) ∧
    (∀ r : Response, ∃ r', Response.ofJson? r.toJson = some r' ∧ r'.id = r.id ∧ r'.isOk = r.isOk ∧
      r'.intoResult = r.intoResult.mapError Error.withoutNull) ∧
    ∀ (i : Id) (j : Json), Id.ofJson? j = some i ↔ j = i.toJson := by
  refine ⟨fun r => Request.ofJson?_of_written r.written_toJson, BlockTag.ofJson?_toJson,
    fun r hresult herror => ?_, fun r => ?_, fun i j => Id.ofJson?_eq_some_iff⟩
  · rw [Response.ofJson?_of_written r.written_toJson, Response.withoutNull_eq_self hresult herror]
  · exact ⟨r.withoutNull, Response.ofJson?_of_written r.written_toJson, rfl,
      r.isOk_withoutNull, r.intoResult_withoutNull⟩

end ContractReads
