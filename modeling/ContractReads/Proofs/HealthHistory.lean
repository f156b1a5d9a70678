import Mathlib
import ContractReads.Http.Client

/-!
# Health of a client and its posts

A client's health is a matter of the failed posts at the end of its history.

* `Exchange.Fails` says which posts fail, `Exchange.Gives` what the others give; one of the two
  holds of every exchange.  `readAnswer_of_gives` and `readAnswer_of_fails` are about the program.
* `Client.posts` lists the posts of calls that are made one after another, and
  `trailingFailures` counts the failed ones at the end.
* `Remembers` ties a client's memory to its posts: `Remembers.note` is one post,
  `Remembers.after` any calls.  The counter has 32 bits, and there are fewer posts than that.
* `Follows` is what a history says about health, `CountsPosts` which calls count how.
  `Client.health_of_history` puts them together.
-/

namespace ContractReads.Http

open Rpc (Request Response)

/-! ## Posts that fail -/

section Exchange

variable {α : Type} {read : Json → Option α} {x : Exchange} {a : α}

/-- The body is a text of JSON that a value is read from. -/
def Deserializes (read : Json → Option α) (body : Bytes) (a : α) : Prop :=
  ∃ text j, String.fromUTF8? ⟨body.toArray⟩ = some text ∧ Json.ofText? text = some j ∧
    read j = some a

/-- Why a post fails. -/
inductive Exchange.Fails (read : Json → Option α) : Exchange → Prop
  | unreachable (reason : String) : Fails read (.unreachable reason)
  | timedOut : Fails read .timedOut
  | badStatus {status : Nat} {body : Bytes} (h : ¬(200 ≤ status ∧ status < 300)) :
    Fails read (.answered status body)
  | badBody {status : Nat} {body : Bytes} (h : ∀ a, ¬Deserializes read body a) :
    Fails read (.answered status body)

/-- A post gives a value. -/
inductive Exchange.Gives (read : Json → Option α) : Exchange → α → Prop
  | answered {status : Nat} {body : Bytes} {a : α} (low : 200 ≤ status) (high : status < 300)
    (body_eq : Deserializes read body a) : Gives read (.answered status body) a

theorem deserializes_iff {body : Bytes} : Deserializes read body a ↔
    ((String.fromUTF8? ⟨body.toArray⟩).bind Json.ofText?).bind read = some a := by
  simp only [Deserializes, Option.bind_eq_some_iff]
  constructor
  · rintro ⟨text, j, htext, hj, ha⟩
    exact ⟨j, ⟨text, htext, hj⟩, ha⟩
  · rintro ⟨j, ⟨text, htext, hj⟩, ha⟩
    exact ⟨text, j, htext, hj, ha⟩

theorem readAnswer_of_gives (c : Config) (h : x.Gives read a) : readAnswer c read x = .ok a := by
  obtain ⟨low, high, body_eq⟩ := h
  rw [readAnswer, if_neg (by omega), deserializes_iff.1 body_eq]

theorem readAnswer_of_fails (c : Config) (h : x.Fails read) :
    ∃ e, readAnswer c read x = .error e := by
  cases h with
  | unreachable reason => exact ⟨_, rfl⟩
  | timedOut => exact ⟨_, rfl⟩
  | badStatus h => exact ⟨_, if_pos (by omega)⟩
  | @badBody status body h =>
    have hnone : ((String.fromUTF8? ⟨body.toArray⟩).bind Json.ofText?).bind read = none :=
      Option.eq_none_iff_forall_ne_some.2 fun a ha => h a (deserializes_iff.2 ha)
    rw [readAnswer, hnone]
    split
    · exact ⟨_, rfl⟩
    · exact ⟨_, rfl⟩

theorem Exchange.fails_or_gives (read : Json → Option α) (x : Exchange) :
    x.Fails read ∨ ∃ a, x.Gives read a := by
  cases x with
  | unreachable reason => exact .inl (.unreachable reason)
  | timedOut => exact .inl .timedOut
  | answered status body =>
    by_cases hstatus : 200 ≤ status ∧ status < 300
    · by_cases hbody : ∃ a, Deserializes read body a
      · obtain ⟨a, ha⟩ := hbody
        exact .inr ⟨a, .answered hstatus.1 hstatus.2 ha⟩
      · exact .inl (.badBody (not_exists.1 hbody))
    · exact .inl (.badStatus hstatus)

theorem Exchange.Gives.not_fails (h : x.Gives read a) : ¬x.Fails read := by
  intro hfails
  obtain ⟨e, he⟩ := readAnswer_of_fails {} hfails
  rw [readAnswer_of_gives {} h] at he
  cases he

theorem fails_iff (c : Config) : x.Fails read ↔ (readAnswer c read x).isOk = false := by
  rcases x.fails_or_gives read with hfails | ⟨a, ha⟩
  · obtain ⟨e, he⟩ := readAnswer_of_fails c hfails
    rw [he]
    exact iff_of_true hfails rfl
  · rw [readAnswer_of_gives c ha]
    exact iff_of_false ha.not_fails nofun

instance : Decidable (x.Fails read) := decidable_of_iff _ (fails_iff {}).symm

end Exchange

/-! ## Calls and their posts -/

/-- A call to a client. -/
inductive Op
  | send (request : Request)
  | batch (requests : List Request)

/-- A completed post: of one request or of several. -/
inductive Post
  | single (exchange : Exchange)
  | several (exchange : Exchange)

def Post.Fails : Post → Prop
  | single x => x.Fails Response.ofJson?
  | several x => x.Fails Client.responses?

instance : DecidablePred Post.Fails
  | .single x => inferInstanceAs (Decidable (x.Fails Response.ofJson?))
  | .several x => inferInstanceAs (Decidable (x.Fails Client.responses?))

namespace Op

/-- What a call posts; an empty batch posts nothing. -/
def body? : Op → Option Json
  | send r => some r.toJson
  | batch [] => none
  | batch (r :: rs) => some (.ofList Request.toJson (r :: rs))

def post : Op → Exchange → Post
  | send _, x => .single x
  | batch _, x => .several x

end Op

/-- The failed posts behind the last one that did not fail. -/
def trailingFailures (posts : List Post) : Nat :=
  (posts.rtakeWhile fun p => decide p.Fails).length

theorem trailingFailures_concat (posts : List Post) (p : Post) :
    trailingFailures (posts ++ [p]) = if p.Fails then trailingFailures posts + 1 else 0 := by
  rw [trailingFailures, trailingFailures, List.rtakeWhile_concat]
  by_cases hp : p.Fails <;> simp [hp]

theorem trailingFailures_le (posts : List Post) : trailingFailures posts ≤ posts.length :=
  (List.rtakeWhile_suffix _ posts).length_le

namespace Client

variable {w : Type}

/-- What a call leaves behind. -/
def call (c : Client w) : Op → w × Record → w × Record
  | .send r, s => (c.send r s).2
  | .batch rs, s => (c.sendBatch rs s).2

/-- What calls leave behind that are made one after another. -/
def after (c : Client w) (ops : List Op) (s : w × Record) : w × Record :=
  ops.foldl (fun s op => c.call op s) s

theorem after_cons (c : Client w) (op : Op) (ops : List Op) (s : w × Record) :
    c.after (op :: ops) s = c.after ops (c.call op s) := rfl

/-- The posts of calls that are made one after another, with what became of them. -/
def posts (c : Client w) : List Op → w → List Post
  | [], _ => []
  | op :: ops, world =>
    match op.body? with
    | none => c.posts ops world
    | some body => op.post (c.exchange body world).1 :: c.posts ops (c.exchange body world).2

theorem post_eq {α : Type} (c : Client w) (read : Json → Option α) (body : Json) (world : w)
    (record : Record) : c.post read body (world, record) =
      (readAnswer c.config read (c.exchange body world).1, (c.exchange body world).2,
        record.note (readAnswer c.config read (c.exchange body world).1).isOk) :=
  rfl

theorem sendBatch_nil (c : Client w) (s : w × Record) : c.sendBatch [] s = (.ok [], s) := rfl

/-- The responses of a batch are matched only after its post has been taken in. -/
theorem sendBatch_eq (c : Client w) {rs : List Request} (h : rs ≠ []) (s : w × Record) :
    c.sendBatch rs s =
      ((c.post responses? (.ofList Request.toJson rs) s).1.bind (matchResponses rs),
        (c.post responses? (.ofList Request.toJson rs) s).2) := by
  rw [sendBatch, if_neg (by simpa using h), TransportM.bind_apply]
  obtain ⟨result, s'⟩ := c.post responses? (.ofList Request.toJson rs) s
  cases result with
  | error e => rfl
  | ok responses =>
    show _ = (matchResponses rs responses, s')
    dsimp only
    cases matchResponses rs responses <;> rfl

theorem isOk_readAnswer {α : Type} (c : Config) (read : Json → Option α) (x : Exchange) :
    (readAnswer c read x).isOk = decide ¬x.Fails read := by
  by_cases hx : x.Fails read
  · rw [(fails_iff c).1 hx, decide_eq_false (not_not.2 hx)]
  · rw [decide_eq_true hx]
    exact Bool.eq_true_of_not_eq_false (mt (fails_iff c).2 hx)

/-- A call without a post changes nothing; else its post is taken in. -/
theorem call_eq (c : Client w) (op : Op) (world : w) (record : Record) :
    c.call op (world, record) =
      match op.body? with
      | none => (world, record)
      | some body => ((c.exchange body world).2,
          record.note (decide ¬(op.post (c.exchange body world).1).Fails)) := by
  cases op with
  | send r =>
    show (c.post Response.ofJson? r.toJson (world, record)).2 = _
    rw [post_eq, isOk_readAnswer]
    rfl
  | batch rs =>
    cases rs with
    | nil => rfl
    | cons r rs =>
      show (c.sendBatch (r :: rs) (world, record)).2 = _
      rw [sendBatch_eq c (List.cons_ne_nil r rs), post_eq, isOk_readAnswer]
      rfl

end Client

/-! ## A client's memory -/

/-- What a client remembers of its posts. -/
structure Remembers (posts : List Post) (r : Record) : Prop where
  used : r.used = true ↔ posts ≠ []
  failures : r.failures.toNat = trailingFailures posts

namespace Remembers

variable {w : Type} {posts : List Post} {r : Record}

theorem new : Remembers [] {} := ⟨by decide, rfl⟩

theorem note (h : Remembers posts r) (few : posts.length + 1 < 2 ^ 32) (p : Post) :
    Remembers (posts ++ [p]) (r.note (decide ¬p.Fails)) where
  used := by simp [Record.note]
  failures := by
    rw [trailingFailures_concat]
    by_cases hp : p.Fails
    · have hle := trailingFailures_le posts
      rw [← h.failures] at hle ⊢
      have hsum : (r.failures + 1).toNat = r.failures.toNat + 1 := by
        rw [UInt32.toNat_add]
        exact Nat.mod_eq_of_lt (Nat.lt_of_le_of_lt (Nat.add_le_add_right hle 1) few)
      simpa [Record.note, hp] using hsum
    · simp [Record.note, hp]

/-- Calls are remembered by their posts. -/
theorem after (h : Remembers posts r) (c : Client w) (ops : List Op) (world : w)
    (few : posts.length + ops.length < 2 ^ 32) :
    Remembers (posts ++ c.posts ops world) (c.after ops (world, r)).2 := by
  induction ops generalizing posts world r with
  | nil => simpa [Client.posts, Client.after] using h
  | cons op ops ih =>
    rw [List.length_cons] at few
    rw [Client.posts, Client.after_cons, c.call_eq]
    cases op.body? with
    | none => exact ih h world (by omega)
    | some body =>
      have hnote := h.note (by omega) (op.post (c.exchange body world).1)
      have hafter := ih hnote (c.exchange body world).2 (by simp; omega)
      rwa [List.append_assoc, List.singleton_append] at hafter

end Remembers

/-! ## Health -/

/-- Health as a history of posts gives it. -/
structure Follows (degradedAfter : UInt32) (posts : List Post) (health : Health) : Prop where
  unknown : health = .unknown ↔ posts = []
  degraded : health = .degraded ↔ max 1 degradedAfter.toNat ≤ trailingFailures posts
  healthy : health = .healthy ↔
    posts ≠ [] ∧ trailingFailures posts < max 1 degradedAfter.toNat
  not_unhealthy : health ≠ .unhealthy

theorem Remembers.follows {posts : List Post} {r : Record} (h : Remembers posts r) (c : Config) :
    Follows c.degradedAfter posts (r.health c) := by
  have hnil : posts = [] → trailingFailures posts = 0 := by
    rintro rfl
    rfl
  have hfailed : (0 < r.failures ∧ c.degradedAfter ≤ r.failures) ↔
      max 1 c.degradedAfter.toNat ≤ trailingFailures posts := by
    rw [UInt32.lt_iff_toNat_lt, UInt32.le_iff_toNat_le, h.failures, Nat.max_le]
    rfl
  by_cases hused : r.used = true
  · have hposts := h.used.1 hused
    by_cases htrailing : max 1 c.degradedAfter.toNat ≤ trailingFailures posts
    · have hhealth : r.health c = .degraded := by
        rw [Record.health, hused, if_neg (by decide), if_pos (hfailed.2 htrailing)]
      rw [hhealth]
      exact ⟨iff_of_false nofun hposts, iff_of_true rfl htrailing,
        iff_of_false nofun fun h => absurd h.2 (Nat.not_lt.2 htrailing), nofun⟩
    · have hhealth : r.health c = .healthy := by
        rw [Record.health, hused, if_neg (by decide), if_neg (mt hfailed.1 htrailing)]
      rw [hhealth]
      exact ⟨iff_of_false nofun hposts, iff_of_false nofun htrailing,
        iff_of_true rfl ⟨hposts, Nat.not_le.1 htrailing⟩, nofun⟩
  · have hposts : posts = [] := not_not.1 (mt h.used.2 hused)
    have hhealth : r.health c = .unknown := by
      rw [Record.health, if_pos (by simpa using hused)]
    have htrailing := hnil hposts
    rw [hhealth]
    exact ⟨iff_of_true rfl hposts, iff_of_false nofun (by omega),
      iff_of_false nofun fun h => h.1 hposts, nofun⟩

namespace Client

variable {w α : Type}

/-- Which calls count as posts, and which posts as failed.  A node's error, and responses that do
not match their requests, come out of posts that did not fail. -/
structure CountsPosts (c : Client w) : Prop where
  batch_nil : ∀ s, c.sendBatch [] s = (.ok [], s)
  send_fails : ∀ r s, (c.exchange r.toJson s.1).1.Fails Response.ofJson? →
    ∃ e, (c.send r s).1 = .error e
  send_gives : ∀ r s response, (c.exchange r.toJson s.1).1.Gives Response.ofJson? response →
    (c.send r s).1 = .ok response ∧ c.transport.health (c.send r s).2 = .healthy
  node_error : ∀ id method params s response e,
    (c.exchange (Request.make (.number id) method params).toJson s.1).1.Gives
      Response.ofJson? response → response.error = some e →
    (c.transport.call id method params s).1 = .error (.rpc e) ∧
      c.transport.health (c.transport.call id method params s).2 = .healthy
  batch_fails : ∀ rs s, rs ≠ [] →
    (c.exchange (.ofList Request.toJson rs) s.1).1.Fails responses? →
    ∃ e, (c.sendBatch rs s).1 = .error e
  batch_gives : ∀ rs s responses, rs ≠ [] →
    (c.exchange (.ofList Request.toJson rs) s.1).1.Gives responses? responses →
    (c.sendBatch rs s).1 = matchResponses rs responses ∧
      c.transport.health (c.sendBatch rs s).2 = .healthy

section Post

variable {c : Client w} {read : Json → Option α} {body : Json} {s : w × Record} {a : α}

theorem post_of_fails (h : (c.exchange body s.1).1.Fails read) :
    ∃ e, (c.post read body s).1 = .error e :=
  readAnswer_of_fails c.config h

theorem post_of_gives (h : (c.exchange body s.1).1.Gives read a) :
    c.post read body s = (.ok a, (c.exchange body s.1).2, ⟨0, true⟩) := by
  rw [post_eq, readAnswer_of_gives c.config h]
  rfl

/-- A client is healthy after a post that did not fail. -/
theorem health_of_note (c : Client w) (world : w) :
    c.transport.health (world, ⟨0, true⟩) = .healthy := rfl

end Post

theorem countsPosts (c : Client w) : c.CountsPosts where
  batch_nil := c.sendBatch_nil
  send_fails _ _ h := post_of_fails h
  send_gives r s response h := by
    have hsend : c.send r s = _ := post_of_gives h
    rw [hsend]
    exact ⟨rfl, c.health_of_note _⟩
  node_error id method params s response e h he := by
    have hsend : c.transport.send (.make (.number id) method params) s = _ := post_of_gives h
    have hcall : c.transport.call id method params s =
        (.error (.rpc e), (c.exchange (Request.make (.number id) method params).toJson s.1).2,
          ⟨0, true⟩) := by
      have hresult : response.intoResult = .error e := by rw [Response.intoResult, he]
      rw [Transport.call, TransportM.bind_apply, hsend]
      simp only [hresult]
      rfl
    rw [hcall]
    exact ⟨rfl, c.health_of_note _⟩
  batch_fails rs s hrs h := by
    obtain ⟨e, he⟩ := post_of_fails h
    rw [sendBatch_eq c hrs, he]
    exact ⟨e, rfl⟩
  batch_gives rs s responses hrs h := by
    rw [sendBatch_eq c hrs, post_of_gives h]
    exact ⟨rfl, c.health_of_note _⟩

/-- After any calls, made one after another, a new client's health is that of the failed posts at
the end of its history. -/
theorem health_of_history (c : Client w) (world : w) (ops : List Op) (few : ops.length < 2 ^ 32) :
    Follows c.config.degradedAfter (c.posts ops world)
      (c.transport.health (c.after ops (world, {}))) ∧ c.CountsPosts := by
  have hremembers := Remembers.new.after c ops world (by simpa using few)
  exact ⟨hremembers.follows c.config, c.countsPosts⟩

end Client

/-! ## A node that does not answer -/

namespace SilentNode

/-- A client of a node whose answers are a list; it counts as degraded after two failures. -/
def client : Client (List Exchange) where
  url := "node"
  config := { degradedAfter := 2 }
  exchange _ answers := (answers.headD .timedOut, answers.tail)

def ask : Op := .send (.make (.number 1) "eth_chainId" [])

/-- An empty batch between two failed posts does not separate them. -/
theorem degraded_after_two_failures :
    client.transport.health
      (client.after [ask, .batch [], ask] ([.timedOut, .answered 503 []], {})) = .degraded :=
  (client.health_of_history [.timedOut, .answered 503 []] [ask, .batch [], ask]
    (by decide)).1.degraded.2 (by decide)

end SilentNode

end ContractReads.Http
