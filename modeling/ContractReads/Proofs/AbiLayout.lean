import ContractReads.Abi.Decode
import ContractReads.Abi.Encode
import ContractReads.Proofs.WordCodec

/-!
# Parts and the cursors that read them

* `Cursor.Faces` says that a cursor stands in front of the heads of parts and that the bodies are
  where the heads say.  A fresh cursor faces the parts of an assembly (`faces_assemble`), and behind
  the first part it faces the others (`Faces.static`, `Faces.dynamic`).
* `Cursor.Reads` says that a reader takes a value from parts, whatever parts follow them.  There is
  one lemma for each way in which readers are put together: words, counted byte strings, composite
  values and repetition.
-/

namespace ContractReads

/-! ## Parts -/

namespace Part

@[simp] theorem length_heads (offset : Nat) (ps : List Part) :
    (heads offset ps).length = headsLength ps := by
  induction ps generalizing offset with
  | nil => rfl
  | cons p ps ih => cases h : p.dynamic <;> simp [heads, headsLength, headLength, h, ih]

theorem length_assemble (ps : List Part) :
    (assemble ps).length = headsLength ps + (tails ps).length := by
  rw [assemble, List.length_append, length_heads]

theorem tails_of_static {ps : List Part} (h : ps.any dynamic = false) : tails ps = [] := by
  induction ps with
  | nil => rfl
  | cons p ps ih =>
    rw [List.any_cons, Bool.or_eq_false_iff] at h
    rw [tails, h.1]
    exact ih h.2

/-- An assembly holds every body. -/
theorem length_bodies_le (ps : List Part) :
    (ps.map fun p => p.body.length).sum ≤ (assemble ps).length := by
  rw [length_assemble]
  induction ps with
  | nil => exact Nat.le_refl 0
  | cons p ps ih =>
    rw [List.map_cons, List.sum_cons, headsLength, headLength, tails]
    cases p.dynamic <;> simp <;> omega

/-- Bodies of whole words make an assembly of whole words. -/
theorem dvd_length_assemble {ps : List Part} (h : ∀ p ∈ ps, 32 ∣ p.body.length) :
    32 ∣ (assemble ps).length := by
  rw [length_assemble]
  induction ps with
  | nil => exact ⟨0, rfl⟩
  | cons p ps ih =>
    have hp := h p List.mem_cons_self
    have hps := ih fun q hq => h q (List.mem_cons_of_mem p hq)
    rw [headsLength, headLength, tails]
    cases p.dynamic <;> simp <;> omega

end Part

namespace Bytes

theorem length_padded (bs : Bytes) :
    bs.padded.length = bs.length + (32 - bs.length % 32) % 32 := by
  rw [padded, List.length_append, length_zeros]

end Bytes

namespace Abi.Cursor

variable {α : Type}

/-! ## Cursors in front of parts -/

theorem word_of_rest {c : Cursor} {w : Word} {more : Bytes} (h : c.rest = w.toBytes ++ more) :
    c.word = .ok (w, { c with rest := more }) := by
  have htake : c.rest.take 32 = w.toBytes := by rw [h, List.take_left' w.length_toBytes]
  have hdrop : c.rest.drop 32 = more := by rw [h, List.drop_left' w.length_toBytes]
  rw [word, htake, hdrop, FixedBytes.ofBytes?_of_length w.length_toBytes]

theorem size_of_rest {c : Cursor} {n : Nat} {more : Bytes} (hn : n < 2 ^ 64)
    (h : c.rest = Bytes.ofNat 32 n ++ more) : c.size = .ok (n, { c with rest := more }) := by
  have hword := word_of_rest (w := FixedBytes.ofNat 32 n) h
  have hlast : Bytes.toNat ((Bytes.ofNat 32 n).drop 24) = n := by
    have hfits : n < 256 ^ 8 := hn
    rw [Bytes.drop_ofNat 24 8, Bytes.toNat_ofNat, Nat.mod_eq_of_lt hfits]
  simp only [size, hword, bind, Except.bind, pure, Except.pure, FixedBytes.ofNat, hlast]

theorem childOf_of_lt {c : Cursor} (h : c.depth < maxDepth) (data : Bytes) :
    c.childOf data = .ok ⟨data, data, c.depth + 1⟩ :=
  if_pos h

/-- A cursor in front of the heads of parts, whose bodies start at `offset`. -/
structure Faces (c : Cursor) (ps : List Part) (offset : Nat) (after : Bytes) : Prop where
  rest : c.rest = Part.heads offset ps ++ after
  buffer : ∃ front more, c.buffer = front ++ (Part.tails ps ++ more) ∧ front.length = offset
  /-- No head stands among the bodies. -/
  ahead : Part.headsLength ps ≤ offset
  /-- Every place can be written as an offset. -/
  short : offset + (Part.tails ps).length < 2 ^ 64

/-- A fresh cursor faces the parts of an assembly. -/
theorem faces_assemble {ps : List Part} (short : (Part.assemble ps).length < 2 ^ 64)
    (more : Bytes) (depth : Nat) :
    Faces ⟨Part.assemble ps ++ more, Part.assemble ps ++ more, depth⟩ ps (Part.headsLength ps)
      (Part.tails ps ++ more) where
  rest := by rw [Part.assemble, List.append_assoc]
  buffer := ⟨_, more, by rw [Part.assemble, List.append_assoc], Part.length_heads _ _⟩
  ahead := Nat.le_refl _
  short := by rwa [← Part.length_assemble]

section Faces

variable {c : Cursor} {body : Bytes} {ps : List Part} {offset : Nat} {after : Bytes}

/-- The body of a static part is at the cursor, and the other parts are behind it. -/
theorem Faces.static (h : c.Faces (⟨false, body⟩ :: ps) offset after) :
    c.rest = body ++ (Part.heads offset ps ++ after) ∧ body.length < 2 ^ 64 ∧
      Faces { c with rest := Part.heads offset ps ++ after } ps offset after := by
  have hahead : body.length + Part.headsLength ps ≤ offset := h.ahead
  have hshort : offset + (Part.tails ps).length < 2 ^ 64 := h.short
  refine ⟨?_, by omega, rfl, h.buffer, by omega, hshort⟩
  rw [h.rest, ← List.append_assoc]
  rfl

/-- The body of a dynamic part is where its head says, and the other parts are behind the head. -/
theorem Faces.dynamic (h : c.Faces (⟨true, body⟩ :: ps) offset after)
    (hdepth : c.depth < maxDepth) :
    ∃ more, c.follow = .ok (⟨body ++ more, body ++ more, c.depth + 1⟩,
        { c with rest := Part.heads (offset + body.length) ps ++ after }) ∧
      body.length < 2 ^ 64 ∧
      Faces { c with rest := Part.heads (offset + body.length) ps ++ after } ps
        (offset + body.length) after := by
  obtain ⟨front, more, hbuffer, hfront⟩ := h.buffer
  have hbuffer : c.buffer = front ++ (body ++ (Part.tails ps ++ more)) := by
    rw [hbuffer, ← List.append_assoc body]
    rfl
  have hahead : 32 + Part.headsLength ps ≤ offset := h.ahead
  have hshort : offset + (body.length + (Part.tails ps).length) < 2 ^ 64 := by
    rw [← List.length_append]
    exact h.short
  have hrest : c.rest = Bytes.ofNat 32 offset ++
      (Part.heads (offset + body.length) ps ++ after) := by
    rw [h.rest, ← List.append_assoc]
    rfl
  have hsize := size_of_rest (by omega) hrest
  have hinside : ¬c.buffer.length < offset := by
    rw [hbuffer, List.length_append, hfront]
    omega
  refine ⟨Part.tails ps ++ more, ?_, by omega, rfl, ⟨front ++ body, more, ?_, ?_⟩, by omega, ?_⟩
  · have hdrop : c.buffer.drop offset = body ++ (Part.tails ps ++ more) := by
      rw [hbuffer, List.drop_left' hfront]
    simp only [follow, hsize, bind, Except.bind, if_neg hinside, hdrop]
    rw [childOf_of_lt (by exact hdepth)]
    rfl
  · rw [List.append_assoc]
    exact hbuffer
  · rw [List.length_append, hfront]
  · omega

end Faces

/-! ## Readers -/

/-- A reader takes a value from parts, whatever other parts follow them, and leaves the cursor in
front of those.  Its children nest `levels` deep. -/
def Reads (read : Cursor → Except DecodeError (α × Cursor)) (a : α) (own : List Part)
    (levels : Nat) : Prop :=
  ∀ (c : Cursor) (ps : List Part) (offset : Nat) (after : Bytes),
    c.Faces (own ++ ps) offset after → c.depth + levels ≤ maxDepth →
    ∃ offset', read c = .ok (a, { c with rest := Part.heads offset' ps ++ after }) ∧
      Faces { c with rest := Part.heads offset' ps ++ after } ps offset' after

section Reads

variable {read : Cursor → Except DecodeError (α × Cursor)} {a : α} {own : List Part}
  {levels : Nat}

theorem Reads.mono (h : Reads read a own levels) {more : Nat} (hle : levels ≤ more) :
    Reads read a own more :=
  fun c ps offset after hfaces hdepth => h c ps offset after hfaces (by omega)

/-- All parts of an assembly are read from its start. -/
theorem Reads.of_assemble (h : Reads read a own levels)
    (short : (Part.assemble own).length < 2 ^ 64) (more : Bytes) {depth : Nat}
    (hdepth : depth + levels ≤ maxDepth) :
    read ⟨Part.assemble own ++ more, Part.assemble own ++ more, depth⟩ =
      .ok (a, ⟨Part.assemble own ++ more, Part.tails own ++ more, depth⟩) := by
  have hfaces := faces_assemble short more depth
  obtain ⟨offset, hread, -⟩ := h _ [] _ _ (by rwa [List.append_nil]) hdepth
  exact hread

/-- A reader that leaves the cursor where it is reads no part. -/
theorem reads_pure (a : α) (levels : Nat) : Reads (fun c => .ok (a, c)) a [] levels := by
  intro c ps offset after hfaces _
  have hrest : c.rest = Part.heads offset ps ++ after := hfaces.rest
  refine ⟨offset, ?_, rfl, hfaces.buffer, hfaces.ahead, hfaces.short⟩
  rw [← hrest]

/-- A word is read from its part. -/
theorem reads_word (make : Word → AbiValue) (w : Word) :
    Reads (wordValue make) (make w) [⟨false, w.toBytes⟩] 0 := by
  intro c ps offset after hfaces _
  rw [List.singleton_append] at hfaces
  obtain ⟨hrest, -, hfaces⟩ := hfaces.static
  refine ⟨offset, ?_, hfaces⟩
  simp only [wordValue, word_of_rest hrest, bind, Except.bind, pure, Except.pure]

/-- A byte string is read from its part. -/
theorem reads_counted (bs : Bytes) : Reads counted bs [⟨true, AbiValue.counted bs⟩] 1 := by
  intro c ps offset after hfaces hdepth
  rw [List.singleton_append] at hfaces
  obtain ⟨more, hfollow, hshort, hfaces⟩ := hfaces.dynamic (by omega)
  refine ⟨_, ?_, hfaces⟩
  have hlength : bs.length < 2 ^ 64 := by
    rw [AbiValue.counted, List.length_append, Bytes.length_padded] at hshort
    omega
  have hbody : AbiValue.counted bs ++ more = Bytes.ofNat 32 bs.length ++ (bs.padded ++ more) := by
    rw [AbiValue.counted, List.append_assoc]
  have hsize := size_of_rest
    (c := ⟨AbiValue.counted bs ++ more, AbiValue.counted bs ++ more, c.depth + 1⟩) hlength hbody
  have htake : take ⟨AbiValue.counted bs ++ more, bs.padded ++ more, c.depth + 1⟩ bs.length =
      .ok bs := by
    rw [take, if_neg, Bytes.padded, List.append_assoc, List.take_left]
    rw [List.length_append, Bytes.length_padded]
    omega
  simp only [counted, hfollow, hsize, htake, bind, Except.bind, pure, Except.pure]

/-- A composite value is read from one part, if what it is composed of is read from several. -/
theorem Reads.within (h : Reads read a own levels) :
    Reads (Cursor.within (own.any Part.dynamic) read) a
      [⟨own.any Part.dynamic, Part.assemble own⟩] (levels + 1) := by
  intro c ps offset after hfaces hdepth
  rw [List.singleton_append] at hfaces
  have hchild : c.depth + 1 + levels ≤ maxDepth := by omega
  cases hdynamic : own.any Part.dynamic with
  | true =>
    rw [hdynamic] at hfaces
    obtain ⟨more, hfollow, hshort, hfaces⟩ := hfaces.dynamic (by omega)
    refine ⟨_, ?_, hfaces⟩
    have hread := h.of_assemble hshort more hchild
    simp only [Cursor.within, if_true, hfollow, hread, bind, Except.bind, pure, Except.pure]
  | false =>
    rw [hdynamic] at hfaces
    obtain ⟨hrest, hshort, hfaces⟩ := hfaces.static
    refine ⟨offset, ?_, hfaces⟩
    have hread := h.of_assemble hshort (Part.heads offset ps ++ after) hchild
    rw [Part.tails_of_static hdynamic, List.nil_append] at hread
    have hhere : c.here = .ok ⟨Part.assemble own ++ (Part.heads offset ps ++ after),
        Part.assemble own ++ (Part.heads offset ps ++ after), c.depth + 1⟩ := by
      rw [here, hrest, childOf_of_lt (by omega)]
    simp only [Cursor.within, hhere, hread, bind, Except.bind, pure, Except.pure]
    rfl

/-- What is read can be made into something else. -/
theorem Reads.map {β : Type} (h : Reads read a own levels) (f : α → β) :
    Reads (fun c => do
      let (a, c) ← read c
      return (f a, c)) (f a) own levels := by
  intro c ps offset after hfaces hdepth
  obtain ⟨offset', hread, hfaces⟩ := h c ps offset after hfaces hdepth
  refine ⟨offset', ?_, hfaces⟩
  simp only [hread, bind, Except.bind, pure, Except.pure]

/-- Two readers, one after the other, read two groups of parts. -/
theorem Reads.seq {β γ : Type} {next : Cursor → Except DecodeError (β × Cursor)} {b : β}
    {others : List Part} (h : Reads read a own levels) (hnext : Reads next b others levels)
    (join : α → β → γ) :
    Reads (fun c => do
      let (a, c) ← read c
      let (b, c) ← next c
      return (join a b, c)) (join a b) (own ++ others) levels := by
  intro c ps offset after hfaces hdepth
  rw [List.append_assoc] at hfaces
  obtain ⟨offset', hread, hfaces⟩ := h c (others ++ ps) offset after hfaces hdepth
  obtain ⟨offset'', hread', hfaces⟩ := hnext _ ps offset' after hfaces hdepth
  refine ⟨offset'', ?_, hfaces⟩
  simp only [hread, hread', bind, Except.bind, pure, Except.pure]

/-- A reader that reads each value of a list from its part reads the list. -/
theorem reads_repeated {read : Cursor → Except DecodeError (AbiValue × Cursor)}
    {vs : List AbiValue} (h : ∀ v ∈ vs, Reads read v [v.part] levels) :
    Reads (repeated read vs.length) vs (AbiValue.parts vs) levels := by
  -- The values before are the list so far, the last first.
  suffices haux : ∀ before, Reads (repeatedFrom read vs.length before) (before.reverse ++ vs)
      (AbiValue.parts vs) levels from haux []
  induction vs with
  | nil =>
    intro before
    rw [List.append_nil]
    exact reads_pure before.reverse levels
  | cons v vs ih =>
    intro before c ps offset after hfaces hdepth
    obtain ⟨offset', hread, hfaces⟩ :=
      h v List.mem_cons_self c (AbiValue.parts vs ++ ps) offset after hfaces hdepth
    obtain ⟨offset'', hrest, hfaces⟩ :=
      ih (fun v' hv' => h v' (List.mem_cons_of_mem v hv')) (v :: before) _ ps offset' after hfaces
        hdepth
    refine ⟨offset'', ?_, hfaces⟩
    rw [List.length_cons, repeatedFrom, hread]
    refine hrest.trans ?_
    rw [List.reverse_cons, List.append_assoc, List.singleton_append]

end Reads

end Abi.Cursor

end ContractReads
