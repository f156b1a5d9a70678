import Mathlib
import ContractReads.Http.Client

/-!
# Responses that match requests

The responses to a batch are accepted if and only if they answer every request once.  Then they
come in the order of the requests, whatever order they arrived in.

* `Admitted` is about ids that are known and all different, `FirstStray` about the first one that is
  not; `admitted_or_firstStray`: there is one unless all are admitted.
* `Filled` is the invariant of the places of responses: the ones placed so far stand at the first
  requests of their ids.  `Filled.place` is the step, `exists_filled` the run.
* `matchResponses_of_admitted`, `matchResponses_of_stray` and `matchResponses_of_missing` are what
  comes of it, by whether the ids of the responses are admitted by those of the requests, and these
  by the others.
* `exists_matchResponses_eq_ok_iff` and `matchResponses_eq_error_iff` say when responses are
  accepted and which error there is if they are not.  `Answers.sendEach_eq` compares with sending
  the requests one by one, and `Client.sendBatch_eq_sendEach` is about a client.
* `matchResponses_exact` puts them together.
-/

namespace ContractReads.Http

open Rpc (Id Request Response)

/-! ## Ids in their places -/

/-- Ids that are known and all different. -/
structure Admitted (known ids : List Id) : Prop where
  nodup : ids.Nodup
  subset : ids ⊆ known

/-- The first id that is not known, or that was there before. -/
structure FirstStray (known ids before : List Id) (id : Id) : Prop where
  split : ∃ after, ids = before ++ id :: after
  admitted : Admitted known before
  stray : id ∉ known ∨ id ∈ before

theorem admitted_concat_iff {known ids : List Id} {id : Id} :
    Admitted known (ids ++ [id]) ↔ Admitted known ids ∧ id ∈ known ∧ id ∉ ids := by
  constructor
  · rintro ⟨nodup, subset⟩
    rw [← List.concat_eq_append, List.nodup_concat] at nodup
    obtain ⟨hsubset, hknown⟩ := List.append_subset.1 subset
    exact ⟨⟨nodup.2, hsubset⟩, hknown (List.mem_singleton_self id), nodup.1⟩
  · rintro ⟨⟨nodup, subset⟩, hknown, hfresh⟩
    constructor
    · rw [← List.concat_eq_append, List.nodup_concat]
      exact ⟨hfresh, nodup⟩
    · exact List.append_subset.2 ⟨subset, List.cons_subset.2 ⟨hknown, List.nil_subset known⟩⟩

/-- Unless all ids are admitted, there is a first one that is not. -/
theorem admitted_or_firstStray (known ids : List Id) :
    Admitted known ids ∨ ∃ before id, FirstStray known ids before id := by
  induction ids using List.reverseRecOn with
  | nil => exact .inl ⟨List.nodup_nil, List.nil_subset known⟩
  | append_singleton ids id ih =>
    rcases ih with admitted | ⟨before, stray, ⟨after, rfl⟩, admitted, hstray⟩
    · by_cases hstray : id ∉ known ∨ id ∈ ids
      · exact .inr ⟨ids, id, ⟨[], rfl⟩, admitted, hstray⟩
      · obtain ⟨hknown, hfresh⟩ := not_or.1 hstray
        exact .inl (admitted_concat_iff.2 ⟨admitted, not_not.1 hknown, hfresh⟩)
    · exact .inr ⟨before, stray, ⟨after ++ [id], by simp⟩, admitted, hstray⟩

theorem FirstStray.not_admitted {known ids before : List Id} {id : Id}
    (h : FirstStray known ids before id) : ¬Admitted known ids := by
  obtain ⟨⟨after, rfl⟩, -, hstray⟩ := h
  rintro ⟨nodup, subset⟩
  rcases hstray with hunknown | hbefore
  · exact hunknown (subset (by simp))
  · exact (List.nodup_append.1 nodup).2.2 id hbefore id List.mem_cons_self rfl

/-! ## Positions of requests -/

/-- The position of the first request of an id. -/
def position? (requests : List Request) (id : Id) : Option Nat :=
  requests.findIdx? fun r => r.id = id

section Position

variable {requests front rest : List Request} {r : Request} {id other : Id} {i : Nat}

theorem position?_eq_none_iff : position? requests id = none ↔ id ∉ requests.map Request.id := by
  simp [position?]

theorem exists_position? (h : id ∈ requests.map Request.id) :
    ∃ i, position? requests id = some i :=
  Option.ne_none_iff_exists'.1 fun hnone => position?_eq_none_iff.1 hnone h

theorem position?_eq_some (h : position? requests id = some i) :
    (requests.map Request.id)[i]? = some id := by
  obtain ⟨hi, hid, -⟩ := List.findIdx?_eq_some_iff_getElem.1 h
  rw [List.getElem?_map, List.getElem?_eq_getElem hi, Option.map_some]
  exact congrArg some (of_decide_eq_true hid)

/-- A position belongs to one id. -/
theorem position?_inj (h : position? requests id = some i)
    (h' : position? requests other = some i) : id = other :=
  Option.some.inj ((position?_eq_some h).symm.trans (position?_eq_some h'))

theorem position?_append_of_mem (h : id ∈ front.map Request.id)
    (hposition : position? (front ++ rest) id = some i) : i < front.length := by
  obtain ⟨j, hj⟩ := exists_position? h
  rw [position?] at hj hposition
  rw [List.findIdx?_append, hj, Option.some_or] at hposition
  obtain ⟨hlt, -⟩ := List.findIdx?_eq_some_iff_getElem.1 hj
  exact Option.some.inj hposition ▸ hlt

/-- A request whose id no earlier one has is the first of its id. -/
theorem position?_append_cons (h : r.id ∉ front.map Request.id) :
    position? (front ++ r :: rest) r.id = some front.length := by
  have hfront := position?_eq_none_iff.2 h
  rw [position?] at hfront ⊢
  rw [List.findIdx?_append, hfront, Option.none_or, List.findIdx?_cons, if_pos (decide_eq_true rfl)]
  simp

end Position

/-! ## Placing responses -/

/-- The responses so far stand at the first requests of their ids, and at no others. -/
structure Filled (requests : List Request) (done : List Response) (placed : Placed) : Prop where
  length_eq : placed.length = requests.length
  entry : ∀ i response, placed[i]? = some (some response) ↔
    response ∈ done ∧ position? requests response.id = some i

section Place

variable {requests : List Request} {done : List Response} {placed : Placed} {response : Response}

theorem filled_nil (requests : List Request) :
    Filled requests [] (List.replicate requests.length none) where
  length_eq := List.length_replicate
  entry i response := by
    rw [List.getElem?_replicate]
    simp

theorem place_unknown (h : response.id ∉ requests.map Request.id) :
    place requests placed response = .error (.other (.unknownResponse response.id)) := by
  have hposition := position?_eq_none_iff.2 h
  rw [position?] at hposition
  rw [place, hposition]

theorem place_free {i : Nat} (h : position? requests response.id = some i)
    (hfree : placed[i]?.join = none) :
    place requests placed response = .ok (placed.set i (some response)) := by
  rw [position?] at h
  rw [place, h]
  simp only [hfree]

theorem place_taken {i : Nat} (h : position? requests response.id = some i) {earlier : Response}
    (htaken : placed[i]?.join = some earlier) :
    place requests placed response = .error (.other (.duplicateResponse response.id)) := by
  rw [position?] at h
  rw [place, h]
  simp only [htaken]

/-- A response of an id that is known and has not been there is placed. -/
theorem Filled.place (filled : Filled requests done placed)
    (known : response.id ∈ requests.map Request.id) (fresh : response.id ∉ done.map Response.id) :
    ∃ placed', Http.place requests placed response = .ok placed' ∧
      Filled requests (done ++ [response]) placed' := by
  obtain ⟨i, hi⟩ := exists_position? known
  have hlt : i < placed.length := by
    have hsome := position?_eq_some hi
    rw [List.getElem?_map, Option.map_eq_some_iff] at hsome
    obtain ⟨r, hr, -⟩ := hsome
    obtain ⟨hi, -⟩ := List.getElem?_eq_some_iff.1 hr
    exact filled.length_eq ▸ hi
  -- Whatever stands at the position has the id of the response.
  have hfree : placed[i]?.join = none := by
    cases hplaced : placed[i]?.join with
    | none => rfl
    | some earlier =>
      obtain ⟨hdone, hposition⟩ := (filled.entry i earlier).1 (Option.join_eq_some_iff.1 hplaced)
      exact absurd (List.mem_map.2 ⟨earlier, hdone, position?_inj hposition hi⟩) fresh
  refine ⟨placed.set i (some response), place_free hi hfree, ?_, ?_⟩
  · rw [List.length_set, filled.length_eq]
  · intro j other
    rw [List.getElem?_set, List.mem_append, List.mem_singleton]
    by_cases hij : i = j
    · subst hij
      rw [if_pos rfl, if_pos hlt, Option.some.injEq, Option.some.injEq]
      constructor
      · rintro rfl
        exact ⟨.inr rfl, hi⟩
      · rintro ⟨hdone | rfl, hposition⟩
        · exact absurd (List.mem_map.2 ⟨other, hdone, position?_inj hposition hi⟩) fresh
        · rfl
    · rw [if_neg hij, filled.entry]
      refine and_congr_left fun hposition => ⟨.inl, fun h => h.resolve_right ?_⟩
      rintro rfl
      exact hij (Option.some.inj (hi.symm.trans hposition))

/-- A second response of an id is not placed. -/
theorem Filled.place_duplicate (filled : Filled requests done placed)
    (known : response.id ∈ requests.map Request.id) (again : response.id ∈ done.map Response.id) :
    Http.place requests placed response = .error (.other (.duplicateResponse response.id)) := by
  obtain ⟨i, hi⟩ := exists_position? known
  obtain ⟨earlier, hdone, hid⟩ := List.mem_map.1 again
  have hplaced := (filled.entry i earlier).2 ⟨hdone, hid ▸ hi⟩
  exact place_taken hi (Option.join_eq_some_iff.2 hplaced)

end Place

section Run

variable {requests : List Request} {responses : List Response}

/-- Responses of known ids, all different, are all placed. -/
theorem exists_filled
    (admitted : Admitted (requests.map Request.id) (responses.map Response.id)) :
    ∃ placed, responses.foldlM (place requests) (List.replicate requests.length none) = .ok placed ∧
      Filled requests responses placed := by
  induction responses using List.reverseRecOn with
  | nil => exact ⟨_, rfl, filled_nil requests⟩
  | append_singleton responses response ih =>
    rw [List.map_append, List.map_singleton, admitted_concat_iff] at admitted
    obtain ⟨admitted, hknown, hfresh⟩ := admitted
    obtain ⟨placed, hplaced, filled⟩ := ih admitted
    obtain ⟨placed', hplace, filled'⟩ := filled.place hknown hfresh
    refine ⟨placed', ?_, filled'⟩
    rw [List.foldlM_append, hplaced]
    show (place requests placed response >>= pure) = _
    rw [hplace]
    rfl

/-- The first response that is out of place ends the run. -/
theorem matchResponses_of_stray {before : List Id} {id : Id}
    (h : FirstStray (requests.map Request.id) (responses.map Response.id) before id) :
    matchResponses requests responses = .error (.other
      (if id ∈ requests.map Request.id then .duplicateResponse id else .unknownResponse id)) := by
  obtain ⟨⟨after, hsplit⟩, admitted, hstray⟩ := h
  obtain ⟨done, _, rfl, rfl, hrest⟩ := List.map_eq_append_iff.1 hsplit
  obtain ⟨response, rest, rfl, rfl, -⟩ := List.map_eq_cons_iff.1 hrest
  obtain ⟨placed, hplaced, filled⟩ := exists_filled admitted
  have hplace : place requests placed response = .error (.other
      (if response.id ∈ requests.map Request.id then .duplicateResponse response.id
        else .unknownResponse response.id)) := by
    by_cases hknown : response.id ∈ requests.map Request.id
    · rw [if_pos hknown]
      exact filled.place_duplicate hknown (hstray.resolve_left (not_not_intro hknown))
    · rw [if_neg hknown]
      exact place_unknown hknown
  rw [matchResponses, List.foldlM_append, hplaced]
  show (place requests placed response >>= _) >>= _ = _
  rw [hplace]
  rfl

/-! ## Collecting them -/

theorem collect_map_some {out : List Response} (h : out.length = requests.length) :
    collect requests (out.map some) = .ok out := by
  induction out generalizing requests with
  | nil =>
    cases requests with
    | nil => rfl
    | cons r requests => cases h
  | cons response out ih =>
    cases requests with
    | nil => cases h
    | cons r requests =>
      rw [List.map_cons, collect, ih (Nat.succ.inj h)]
      rfl

theorem collect_missing {front rest : List Request} {r : Request} {out : List Response}
    {behind : Placed} (h : out.length = front.length) :
    collect (front ++ r :: rest) (out.map some ++ none :: behind) =
      .error (.other (.missingResponse r.id)) := by
  induction out generalizing front with
  | nil =>
    obtain rfl := List.length_eq_zero_iff.1 h.symm
    rfl
  | cons response out ih =>
    obtain ⟨first, front, rfl⟩ := List.exists_cons_of_length_eq_add_one h.symm
    rw [List.map_cons, List.cons_append, List.cons_append, collect, ih (Nat.succ.inj h)]
    rfl

/-- What stands behind the responses that are there starts with the next place. -/
theorem exists_behind {out : List Response} {behind : Placed} {place : Option Response}
    (h : (out.map some ++ behind)[out.length]? = some place) : ∃ rest, behind = place :: rest := by
  rw [List.getElem?_append_right (by simp), List.length_map, Nat.sub_self,
    ← List.head?_eq_getElem?] at h
  exact List.head?_eq_some_iff.1 h

/-- Responses with the ids of requests are as many. -/
theorem length_eq_of_ids {out : List Response}
    (h : out.map Response.id = requests.map Request.id) : out.length = requests.length := by
  simpa using congrArg List.length h

/-- As long as requests are answered and their ids all different, responses stand at them. -/
theorem Filled.exists_front {placed : Placed} (filled : Filled requests responses placed)
    {front rest : List Request} (hsplit : requests = front ++ rest)
    (admitted : Admitted (responses.map Response.id) (front.map Request.id)) :
    ∃ out behind, placed = out.map some ++ behind ∧
      out.map Response.id = front.map Request.id ∧ out ⊆ responses := by
  induction front using List.reverseRecOn generalizing rest with
  | nil => exact ⟨[], placed, rfl, rfl, List.nil_subset _⟩
  | append_singleton front r ih =>
    rw [List.map_append, List.map_singleton, admitted_concat_iff] at admitted
    obtain ⟨admitted, hanswered, hfirst⟩ := admitted
    rw [List.append_assoc, List.singleton_append] at hsplit
    obtain ⟨out, behind, hplaced, hids, hout⟩ := ih hsplit admitted
    obtain ⟨response, hresponse, hid⟩ := List.mem_map.1 hanswered
    have hentry : placed[front.length]? = some (some response) := by
      refine (filled.entry _ _).2 ⟨hresponse, ?_⟩
      rw [hsplit, hid]
      exact position?_append_cons hfirst
    rw [hplaced, ← length_eq_of_ids hids] at hentry
    obtain ⟨behind, rfl⟩ := exists_behind hentry
    refine ⟨out ++ [response], behind, ?_, ?_, ?_⟩
    · rw [hplaced, List.map_append, List.append_assoc]
      rfl
    · rw [List.map_append, List.map_append, hids, List.map_singleton, List.map_singleton, hid]
    · exact List.append_subset.2 ⟨hout, by simpa using hresponse⟩

/-- Nothing stands at a request that is not answered, or whose id an earlier one has. -/
theorem Filled.getElem?_eq_none {placed : Placed} (filled : Filled requests responses placed)
    {front rest : List Request} {r : Request} (hsplit : requests = front ++ r :: rest)
    (hstray : r.id ∉ responses.map Response.id ∨ r.id ∈ front.map Request.id) :
    placed[front.length]? = some none := by
  have hlt : front.length < placed.length := by
    rw [filled.length_eq, hsplit]
    simp
  rw [List.getElem?_eq_getElem hlt]
  cases hplaced : placed[front.length] with
  | none => rfl
  | some response =>
    have hentry : placed[front.length]? = some (some response) := by
      rw [List.getElem?_eq_getElem hlt, hplaced]
    obtain ⟨hresponse, hposition⟩ := (filled.entry _ _).1 hentry
    rw [hsplit] at hposition
    have hid : r.id = response.id := by
      have hsome := position?_eq_some hposition
      simpa using hsome
    rcases hstray with hunanswered | hrepeated
    · exact absurd (List.mem_map.2 ⟨response, hresponse, hid.symm⟩) hunanswered
    · rw [← hid] at hposition
      exact absurd (position?_append_of_mem hrepeated hposition) (Nat.lt_irrefl _)

/-- Responses that answer every request once come in the order of the requests. -/
theorem matchResponses_of_admitted
    (admitted : Admitted (requests.map Request.id) (responses.map Response.id))
    (answered : Admitted (responses.map Response.id) (requests.map Request.id)) :
    ∃ out, matchResponses requests responses = .ok out ∧
      out.map Response.id = requests.map Request.id ∧ out ⊆ responses := by
  obtain ⟨placed, hplaced, filled⟩ := exists_filled admitted
  obtain ⟨out, behind, rfl, hids, hout⟩ :=
    filled.exists_front (List.append_nil requests).symm answered
  have hlength := length_eq_of_ids hids
  obtain rfl : behind = [] := by
    have hlength' := filled.length_eq
    rw [List.length_append, List.length_map, hlength] at hlength'
    exact List.length_eq_zero_iff.1 (by omega)
  refine ⟨out, ?_, hids, hout⟩
  rw [matchResponses, hplaced, List.append_nil]
  exact collect_map_some hlength

/-- If all responses are in their places, the first request that has none ends the run. -/
theorem matchResponses_of_missing
    (admitted : Admitted (requests.map Request.id) (responses.map Response.id))
    {before : List Id} {id : Id}
    (h : FirstStray (responses.map Response.id) (requests.map Request.id) before id) :
    matchResponses requests responses = .error (.other (.missingResponse id)) := by
  obtain ⟨⟨after, hsplit⟩, answered, hstray⟩ := h
  obtain ⟨front, _, hrequests, rfl, hrest⟩ := List.map_eq_append_iff.1 hsplit
  obtain ⟨r, rest, rfl, rfl, -⟩ := List.map_eq_cons_iff.1 hrest
  obtain ⟨placed, hplaced, filled⟩ := exists_filled admitted
  obtain ⟨out, behind, rfl, hids, -⟩ := filled.exists_front hrequests answered
  have hlength := length_eq_of_ids hids
  have hnone := filled.getElem?_eq_none hrequests hstray
  rw [← hlength] at hnone
  obtain ⟨behind, rfl⟩ := exists_behind hnone
  rw [matchResponses, hplaced, hrequests]
  exact collect_missing hlength

/-! ## One request after the other -/

/-- The responses of some ids are determined by these ids. -/
theorem eq_of_map_id {out out' : List Response} (nodup : (responses.map Response.id).Nodup)
    (hout : out ⊆ responses) (hout' : out' ⊆ responses)
    (hids : out.map Response.id = out'.map Response.id) : out = out' := by
  have hlength : out.length = out'.length := by simpa using congrArg List.length hids
  refine List.ext_getElem hlength fun i hi hi' => ?_
  have hid : out[i].id = out'[i].id := by
    have hget := congrArg (fun ids => ids[i]?) hids
    simpa [hi, hi'] using hget
  exact List.inj_on_of_nodup_map nodup (hout (List.getElem_mem hi))
    (hout' (List.getElem_mem hi')) hid

/-- A node answers each request by one of the responses, which has the id of the request. -/
def Answers {w : Type} (t : Transport w) (requests : List Request) (responses : List Response) :
    Prop :=
  ∀ r ∈ requests, ∀ world, ∃ response ∈ responses, response.id = r.id ∧
    ∃ world', t.send r world = (.ok response, world')

/-- Sent one after the other, all requests are answered. -/
theorem Answers.sendEach {w : Type} {t : Transport w} (h : Answers t requests responses)
    (world : w) : ∃ out, (t.sendEach requests world).1 = .ok out ∧
      out.map Response.id = requests.map Request.id ∧ out ⊆ responses := by
  induction requests generalizing world with
  | nil => exact ⟨[], rfl, rfl, List.nil_subset _⟩
  | cons r requests ih =>
    obtain ⟨response, hresponse, hid, world', hsend⟩ := h r List.mem_cons_self world
    obtain ⟨out, hout, hids, hsubset⟩ := ih (fun r hr => h r (List.mem_cons_of_mem _ hr)) world'
    refine ⟨response :: out, ?_, ?_, List.cons_subset.2 ⟨hresponse, hsubset⟩⟩
    · rw [Transport.sendEach, TransportM.bind_apply, hsend]
      show ((t.sendEach requests >>= fun responses => pure (response :: responses)) world').1 = _
      rw [TransportM.bind_apply]
      rcases hrest : t.sendEach requests world' with ⟨result, world''⟩
      rw [hrest] at hout
      obtain rfl : result = .ok out := hout
      rfl
    · rw [List.map_cons, List.map_cons, hid, hids]

/-! ## What is accepted -/

/-- The responses are in their places and answer all requests, or one of the responses is the first
that is out of place, or all of them are in their places and one of the requests is the first that
has none. -/
theorem admitted_cases (requests : List Request) (responses : List Response) :
    (Admitted (requests.map Request.id) (responses.map Response.id) ∧
      Admitted (responses.map Response.id) (requests.map Request.id)) ∨
    (∃ before id,
      FirstStray (requests.map Request.id) (responses.map Response.id) before id) ∨
    (Admitted (requests.map Request.id) (responses.map Response.id) ∧ ∃ before id,
      FirstStray (responses.map Response.id) (requests.map Request.id) before id) := by
  rcases admitted_or_firstStray (requests.map Request.id) (responses.map Response.id) with
    admitted | hstray
  · rcases admitted_or_firstStray (responses.map Response.id) (requests.map Request.id) with
      answered | hmissing
    · exact .inl ⟨admitted, answered⟩
    · exact .inr (.inr ⟨admitted, hmissing⟩)
  · exact .inr (.inl hstray)

/-- Responses and requests admit each other if they have the same ids, each once. -/
theorem admitted_iff_perm :
    Admitted (requests.map Request.id) (responses.map Response.id) ∧
        Admitted (responses.map Response.id) (requests.map Request.id) ↔
      (requests.map Request.id).Nodup ∧
        (responses.map Response.id).Perm (requests.map Request.id) := by
  constructor
  · rintro ⟨⟨nodup, subset⟩, nodup', subset'⟩
    refine ⟨nodup', (List.perm_ext_iff_of_nodup nodup nodup').2 fun id => ?_⟩
    exact ⟨fun h => subset h, fun h => subset' h⟩
  · rintro ⟨nodup, perm⟩
    exact ⟨⟨perm.nodup_iff.2 nodup, perm.subset⟩, nodup, perm.symm.subset⟩

theorem exists_matchResponses_eq_ok_iff :
    (∃ out, matchResponses requests responses = .ok out) ↔
      (requests.map Request.id).Nodup ∧
        (responses.map Response.id).Perm (requests.map Request.id) := by
  rw [← admitted_iff_perm]
  constructor
  · rintro ⟨out, hout⟩
    rcases admitted_cases requests responses with both | ⟨_, _, hstray⟩ | ⟨admitted, _, _, hmissing⟩
    · exact both
    · rw [matchResponses_of_stray hstray] at hout
      cases hout
    · rw [matchResponses_of_missing admitted hmissing] at hout
      cases hout
  · rintro ⟨admitted, answered⟩
    obtain ⟨out, hout, -⟩ := matchResponses_of_admitted admitted answered
    exact ⟨out, hout⟩

/-- What comes out is told by its ids. -/
theorem matchResponses_eq_ok {out : List Response}
    (h : matchResponses requests responses = .ok out) :
    (responses.map Response.id).Nodup ∧ out.map Response.id = requests.map Request.id ∧
      out ⊆ responses := by
  obtain ⟨admitted, answered⟩ :=
    admitted_iff_perm.2 (exists_matchResponses_eq_ok_iff.1 ⟨out, h⟩)
  obtain ⟨_, hmatch, hids, hout⟩ := matchResponses_of_admitted admitted answered
  obtain rfl := Except.ok.inj (h.symm.trans hmatch)
  exact ⟨admitted.nodup, hids, hout⟩

/-- All responses come out. -/
theorem perm_of_matchResponses {out : List Response}
    (h : matchResponses requests responses = .ok out) : out.Perm responses := by
  obtain ⟨nodup, perm⟩ := exists_matchResponses_eq_ok_iff.1 ⟨out, h⟩
  obtain ⟨-, hids, hout⟩ := matchResponses_eq_ok h
  have hnodup : out.Nodup := List.Nodup.of_map Response.id (hids ▸ nodup)
  have hle : responses.length ≤ out.length := by
    have hlength := perm.length_eq
    rw [← hids, List.length_map, List.length_map] at hlength
    exact hlength.le
  exact (List.subperm_of_subset hnodup hout).perm_of_length_le hle

/-- The order in which responses arrive makes no difference. -/
theorem matchResponses_of_perm {out responses' : List Response}
    (h : matchResponses requests responses = .ok out) (perm : responses'.Perm responses) :
    matchResponses requests responses' = .ok out := by
  obtain ⟨nodup, hperm⟩ := exists_matchResponses_eq_ok_iff.1 ⟨out, h⟩
  obtain ⟨out', h'⟩ :=
    exists_matchResponses_eq_ok_iff.2 ⟨nodup, (perm.map Response.id).trans hperm⟩
  obtain ⟨nodup, hids, hout⟩ := matchResponses_eq_ok h
  obtain ⟨-, hids', hout'⟩ := matchResponses_eq_ok h'
  rw [h', eq_of_map_id nodup hout (fun _ h => perm.subset (hout' h)) (hids.trans hids'.symm)]

/-- Nodes that answer the requests one by one give what comes out. -/
theorem Answers.sendEach_eq {w : Type} {t : Transport w} (answers : Answers t requests responses)
    {out : List Response} (h : matchResponses requests responses = .ok out) (world : w) :
    (t.sendEach requests world).1 = .ok out := by
  obtain ⟨nodup, hids, hout⟩ := matchResponses_eq_ok h
  obtain ⟨each, heach, hids', heach'⟩ := answers.sendEach world
  rw [heach, eq_of_map_id nodup hout heach' (hids.trans hids'.symm)]

theorem matchResponses_eq_error_iff {e : TransportError} :
    matchResponses requests responses = .error e ↔
      (∃ before id,
        FirstStray (requests.map Request.id) (responses.map Response.id) before id ∧
          e = .other (if id ∈ requests.map Request.id then .duplicateResponse id
            else .unknownResponse id)) ∨
      ((∀ before id,
        ¬FirstStray (requests.map Request.id) (responses.map Response.id) before id) ∧
        ∃ before id,
          FirstStray (responses.map Response.id) (requests.map Request.id) before id ∧
            e = .other (.missingResponse id)) := by
  constructor
  · intro h
    rcases admitted_cases requests responses with ⟨admitted, answered⟩ | ⟨before, id, hstray⟩ |
      ⟨admitted, before, id, hmissing⟩
    · obtain ⟨out, hout, -⟩ := matchResponses_of_admitted admitted answered
      rw [hout] at h
      cases h
    · rw [matchResponses_of_stray hstray] at h
      exact .inl ⟨before, id, hstray, (Except.error.inj h).symm⟩
    · rw [matchResponses_of_missing admitted hmissing] at h
      exact .inr ⟨fun _ _ hstray => hstray.not_admitted admitted, before, id, hmissing,
        (Except.error.inj h).symm⟩
  · rintro (⟨before, id, hstray, rfl⟩ | ⟨hnone, before, id, hmissing, rfl⟩)
    · exact matchResponses_of_stray hstray
    · have admitted := (admitted_or_firstStray _ _).resolve_right
        fun ⟨before, id, hstray⟩ => hnone before id hstray
      exact matchResponses_of_missing admitted hmissing

/-- A client that posts requests comes to what sending them one after the other comes to, if the
responses in the array are those that a node gives to each. -/
theorem Client.sendBatch_eq_sendEach {v w : Type} (c : Client w) {s s' : w × Record}
    (nonempty : requests ≠ []) (nodup : (requests.map Request.id).Nodup)
    (perm : (responses.map Response.id).Perm (requests.map Request.id))
    (post : c.post responses? (.ofList Request.toJson requests) s = (.ok responses, s'))
    {t : Transport v} (answers : Answers t requests responses) (world : v) :
    (c.sendBatch requests s).1 = (t.sendEach requests world).1 := by
  obtain ⟨out, hout⟩ := exists_matchResponses_eq_ok_iff.2 ⟨nodup, perm⟩
  have hempty : requests.isEmpty = false := by simpa using nonempty
  rw [answers.sendEach_eq hout, sendBatch, hempty, if_neg Bool.false_ne_true,
    TransportM.bind_apply, post]
  simp only [hout]
  rfl

end Run

/-- Responses are accepted if and only if the ids of the requests are all different and the
responses have the same ids, in any order.  Then every request gets the response of its id: what
comes out is a permutation of the responses, the same for every order in which they arrive, and the
same that sending the requests one after the other comes to.  Otherwise nothing comes out but an
error, about the first response whose id is unknown or was answered before, or, if there is none,
about the first request that has no response. -/
theorem matchResponses_exact (requests : List Request) (responses : List Response) :
    ((∃ out, matchResponses requests responses = .ok out) ↔
      (requests.map Request.id).Nodup ∧
        (responses.map Response.id).Perm (requests.map Request.id)) ∧
    (∀ out, matchResponses requests responses = .ok out →
      out.length = requests.length ∧ out.map Response.id = requests.map Request.id ∧
      out.Perm responses ∧
      (∀ responses', responses'.Perm responses → matchResponses requests responses' = .ok out) ∧
      ∀ {w : Type} (t : Transport w), Answers t requests responses →
        ∀ world, (t.sendEach requests world).1 = .ok out) ∧
    (∀ e, matchResponses requests responses = .error e ↔
      (∃ before id,
        FirstStray (requests.map Request.id) (responses.map Response.id) before id ∧
          e = .other (if id ∈ requests.map Request.id then .duplicateResponse id
            else .unknownResponse id)) ∨
      ((∀ before id,
        ¬FirstStray (requests.map Request.id) (responses.map Response.id) before id) ∧
        ∃ before id,
          FirstStray (responses.map Response.id) (requests.map Request.id) before id ∧
            e = .other (.missingResponse id))) ∧
    (¬(requests.map Request.id).Nodup →
      ∀ responses' out, matchResponses requests responses' ≠ .ok out) := by
  refine ⟨exists_matchResponses_eq_ok_iff, ?_, fun _ => matchResponses_eq_error_iff, ?_⟩
  · intro out h
    obtain ⟨-, hids, -⟩ := matchResponses_eq_ok h
    exact ⟨length_eq_of_ids hids, hids, perm_of_matchResponses h, fun _ perm => matchResponses_of_perm h perm,
      fun t answers world => answers.sendEach_eq h world⟩
  · intro hrepeated responses' out h
    exact hrepeated (exists_matchResponses_eq_ok_iff.1 ⟨out, h⟩).1

/-! ## Two requests -/

namespace TwoRequests

def chainId : Request := .make (.number 1) "eth_chainId" []

def blockNumber : Request := .make (.number 2) "eth_blockNumber" []

def answer (r : Request) : Response := ⟨Rpc.version, r.id, some (.string r.method), none⟩

/-- A node that answers with the name of the method. -/
def node : Transport Unit where
  url := "node"
  health _ := .unknown
  send r := fun world => (.ok (answer r), world)

theorem answers_node :
    Answers node [chainId, blockNumber] [answer blockNumber, answer chainId] := by
  intro r hr world
  refine ⟨answer r, ?_, rfl, world, rfl⟩
  rcases List.mem_pair.1 hr with rfl | rfl
  · exact List.mem_pair.2 (.inr rfl)
  · exact List.mem_pair.2 (.inl rfl)

/-- Responses in the wrong order are put into the right one; if only the second request is answered,
the first one is missed. -/
theorem matchResponses_exact_swapped :
    matchResponses [chainId, blockNumber] [answer blockNumber, answer chainId] =
      .ok [answer chainId, answer blockNumber] ∧
    matchResponses [chainId, blockNumber] [answer blockNumber] =
      .error (.other (.missingResponse (.number 1))) := by
  constructor
  · obtain ⟨haccepted, hout, -⟩ :=
      matchResponses_exact [chainId, blockNumber] [answer blockNumber, answer chainId]
    obtain ⟨out, h⟩ := haccepted.2 ⟨by decide, List.Perm.swap _ _ _⟩
    obtain ⟨-, -, -, -, hnode⟩ := hout out h
    exact h.trans (hnode node answers_node ()).symm
  · obtain ⟨-, -, herror, -⟩ := matchResponses_exact [chainId, blockNumber] [answer blockNumber]
    have admitted : Admitted [.number 1, .number 2] [.number 2] := ⟨by decide, by decide⟩
    have missing : FirstStray [.number 2] [.number 1, .number 2] [] (.number 1) :=
      ⟨⟨[.number 2], rfl⟩, ⟨List.nodup_nil, List.nil_subset _⟩, .inl (by decide)⟩
    exact (herror _).2
      (.inr ⟨fun _ _ hstray => hstray.not_admitted admitted, [], .number 1, missing, rfl⟩)

end TwoRequests

end ContractReads.Http
