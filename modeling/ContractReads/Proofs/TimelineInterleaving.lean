import ContractReads.Proofs.Interleaving
import ContractReads.Scheduler.Basic

/-!
# A timeline is an interleaving

A `Timeline` carries out one of the interleavings of its run, and it goes on until every shard is
joined.

* `Goes` says that a run has gone on by moves of one shard.  The lemmas about phases say where
  each operation of a timeline takes its shard.
* `Agenda` is what the queues of a timeline are for: every shard that is not joined stands in one
  of them, once, and can do there what it is there for.
* `Orderly.step` carries this through every step of a timeline, and `complete_is_interleaving`
  through all of them.
-/

namespace ContractReads.Scheduler

variable {w α : Type}

namespace Run

/-! ## Moves of one shard -/

/-- A run has gone on by moves of one shard. -/
structure Goes (job : Job w α) (i : Nat) (r r' : Run w α) : Prop where
  moves : ∃ moves, r' = r.after job moves
  others : ∀ j, j ≠ i → r'.phase j = r.phase j
  permits : r'.freePermits + (r'.phase i).holdsPermit.toNat =
    r.freePermits + (r.phase i).holdsPermit.toNat

section Goes

variable {job : Job w α} {r r' r'' : Run w α} {i : Nat}

theorem Goes.trans (h : Goes job i r r') (h' : Goes job i r' r'') : Goes job i r r'' := by
  obtain ⟨xs, rfl⟩ := h.moves
  obtain ⟨ys, rfl⟩ := h'.moves
  refine ⟨⟨xs ++ ys, (after_append job r xs ys).symm⟩, ?_, ?_⟩
  · intro j hj
    rw [h'.others j hj, h.others j hj]
  · rw [h'.permits, h.permits]

/-- A run that has been reached leads to what its shards' moves lead to. -/
theorem Goes.leads {before : Run w α} (h : Goes job i r r')
    (hmoves : ∃ moves, r = before.after job moves) : ∃ moves, r' = before.after job moves := by
  obtain ⟨moves, rfl⟩ := hmoves
  obtain ⟨more, rfl⟩ := h.moves
  exact ⟨moves ++ more, (after_append job before moves more).symm⟩

theorem goes_move (job : Job w α) (r : Run w α) (m : Move) :
    Goes job m.shard r (r.move job m) := by
  refine ⟨⟨[m], rfl⟩, ?_, ?_⟩
  · intro j hj
    rcases step_of_move job r m with hsame | ⟨p', hstep⟩
    · rw [hsame]
    · exact hstep.phase_of_ne (Ne.symm hj)
  · rcases step_of_move job r m with hsame | ⟨p', hstep⟩
    · rw [hsame]
    · rw [hstep.phase_self]
      exact hstep.freePermits_eq

theorem goes_writeAll (job : Job w α) (r : Run w α) (i : Nat) (writes : List (Nat × α)) :
    Goes job i r (r.writeAll i writes) := by
  induction writes generalizing r with
  | nil => exact goes_move job r ⟨.write, i⟩
  | cons x writes ih => exact (goes_move job r ⟨.write, i⟩).trans (ih (r.write i))

theorem goes_deliver (job : Job w α) (r : Run w α) (i : Nat) :
    Goes job i r (r.deliver job i) := by
  have hsettle : Goes job i r (r.settle job i) := goes_move job r ⟨.settle, i⟩
  unfold deliver
  simp only
  split
  · exact hsettle.trans (goes_writeAll job _ i _)
  · exact hsettle

end Goes

/-! ## Where a shard goes -/

section Phases

variable {r : Run w α} {i : Nat}

/-- A shard that registers its items and sends its batch has it in flight, or has ended. -/
theorem phase_send (job : Job w α) (h : r.phase i = .holding) :
    (∃ s, ((r.register job i).submit job i).2.phase i = .inFlight s) ∨
      ∃ result, ((r.register job i).submit job i).2.phase i = .ended (.finished result) := by
  rcases phase_register job h with ⟨s, hs⟩ | ⟨e, he⟩
  · rcases phase_submit job hs with hsent | ⟨flags, hflags⟩
    · exact .inl ⟨s, hsent⟩
    · exact .inr ⟨.ok flags, hflags⟩
  · right
    refine ⟨.error e, ?_⟩
    simp only [submit, he]

/-- A shard that writes all that it has left ends. -/
theorem phase_writeAll {flags : List Bool} {writes : List (Nat × α)}
    (h : r.phase i = .writing flags writes) :
    (r.writeAll i writes).phase i = .ended (.finished (.ok flags)) := by
  induction writes generalizing r with
  | nil => exact phase_write_nil h
  | cons x writes ih => exact ih (phase_write_cons h)

/-- A shard whose answer has arrived ends. -/
theorem phase_deliver (job : Job w α) {s : Shipment α} {a : Answer}
    (h : r.phase i = .answered s a) :
    ∃ result, (r.deliver job i).phase i = .ended (.finished result) := by
  unfold deliver
  rcases phase_settle job h with ⟨flags, writes, hwriting⟩ | ⟨e, he⟩
  · refine ⟨.ok flags, ?_⟩
    simp only [hwriting]
    exact phase_writeAll hwriting
  · refine ⟨.error e, ?_⟩
    simp only [he]

theorem aborted_stop (r : Run w α) (i : Nat) : (r.stop i).aborted = r.aborted := by
  unfold stop
  split <;> rfl

end Phases

end Run

/-! ## What the queues are for -/

/-- Whether a shard in this phase can do this. -/
def Errand.fits : Errand → Phase α → Bool
  | request, .waiting => true
  | send, .holding => true
  | answer, .inFlight _ => true
  | deliver, .answered _ _ => true
  | _, _ => false

theorem Errand.fits_request_iff {p : Phase α} : request.fits p = true ↔ p = .waiting := by
  cases p <;> simp [fits]

theorem Errand.fits_send_iff {p : Phase α} : send.fits p = true ↔ p = .holding := by
  cases p <;> simp [fits]

theorem Errand.fits_answer_iff {p : Phase α} : answer.fits p = true ↔ ∃ s, p = .inFlight s := by
  cases p <;> simp [fits]

theorem Errand.fits_deliver_iff {p : Phase α} :
    deliver.fits p = true ↔ ∃ s a, p = .answered s a := by
  cases p <;> simp [fits]

theorem Errand.isSuspended_of_fits {e : Errand} {p : Phase α} (h : e.fits p = true) :
    p.isSuspended = true := by
  cases e <;> cases p <;> first | rfl | cases h

/-- Every shard that is not joined has an errand that it can do, or has ended. -/
structure Agenda (r : Run w α) (errands : List (Nat × Errand)) (ended : List Nat) : Prop where
  nodup : (errands.map Prod.fst ++ ended).Nodup
  fits : ∀ x ∈ errands, x.2.fits (r.phase x.1) = true
  done : ∀ i ∈ ended, ∃ e, r.phase i = .ended e
  listed : ∀ i, (r.phase i).isJoined = false → i ∈ errands.map Prod.fst ++ ended

/-- The agenda of all shards but one, which is on the move. -/
structure AgendaBut (i : Nat) (r : Run w α) (errands : List (Nat × Errand)) (ended : List Nat) :
    Prop where
  nodup : (i :: (errands.map Prod.fst ++ ended)).Nodup
  fits : ∀ x ∈ errands, x.2.fits (r.phase x.1) = true
  done : ∀ j ∈ ended, ∃ e, r.phase j = .ended e
  listed : ∀ j, j ≠ i → (r.phase j).isJoined = false → j ∈ errands.map Prod.fst ++ ended

section Agenda

open Run (Goes)

variable {job : Job w α} {r r' : Run w α} {i : Nat} {e : Errand}
  {errands errands' : List (Nat × Errand)} {ended : List Nat}

/-- The order of the errands does not count. -/
theorem Agenda.perm (h : Agenda r errands ended) (hperm : errands.Perm errands') :
    Agenda r errands' ended := by
  have hlist : (errands.map Prod.fst ++ ended).Perm (errands'.map Prod.fst ++ ended) :=
    (hperm.map Prod.fst).append_right ended
  refine ⟨hlist.nodup_iff.1 h.nodup, ?_, h.done, ?_⟩
  · intro x hx
    exact h.fits x (hperm.mem_iff.2 hx)
  · intro i hi
    exact hlist.mem_iff.1 (h.listed i hi)

/-- A shard leaves with its errand. -/
theorem Agenda.leave (h : Agenda r ((i, e) :: errands) ended) : AgendaBut i r errands ended := by
  refine ⟨h.nodup, fun x hx => h.fits x (List.mem_cons_of_mem _ hx), h.done, ?_⟩
  intro j hji hj
  exact (List.mem_cons.1 (h.listed j hj)).resolve_left hji

/-- An ended shard leaves. -/
theorem Agenda.leave_ended (h : Agenda r errands (i :: ended)) : AgendaBut i r errands ended := by
  have hlist : (errands.map Prod.fst ++ i :: ended).Perm (i :: (errands.map Prod.fst ++ ended)) :=
    List.perm_middle
  refine ⟨hlist.nodup_iff.1 h.nodup, h.fits, fun j hj => h.done j (List.mem_cons_of_mem _ hj), ?_⟩
  intro j hji hj
  exact (List.mem_cons.1 (hlist.mem_iff.1 (h.listed j hj))).resolve_left hji

/-- When a shard moves, the errands of the others stay. -/
theorem AgendaBut.goes (h : AgendaBut i r errands ended) (hgo : Goes job i r r') :
    AgendaBut i r' errands ended := by
  have hne : ∀ j ∈ errands.map Prod.fst ++ ended, j ≠ i := by
    rintro j hj rfl
    exact (List.nodup_cons.1 h.nodup).1 hj
  refine ⟨h.nodup, ?_, ?_, ?_⟩
  · intro x hx
    rw [hgo.others x.1 (hne _ (List.mem_append_left _ (List.mem_map_of_mem hx)))]
    exact h.fits x hx
  · intro j hj
    rw [hgo.others j (hne j (List.mem_append_right _ hj))]
    exact h.done j hj
  · intro j hji hj
    rw [hgo.others j hji] at hj
    exact h.listed j hji hj

/-- The shard comes back with an errand. -/
theorem AgendaBut.goOn (h : AgendaBut i r errands ended) (hfits : e.fits (r.phase i) = true) :
    Agenda r ((i, e) :: errands) ended := by
  refine ⟨h.nodup, ?_, h.done, ?_⟩
  · intro x hx
    rcases List.mem_cons.1 hx with rfl | hx
    · exact hfits
    · exact h.fits x hx
  · intro j hj
    rw [List.map_cons, List.cons_append]
    by_cases hji : j = i
    · exact List.mem_cons.2 (.inl hji)
    · exact List.mem_cons_of_mem _ (h.listed j hji hj)

/-- The shard has ended. -/
theorem AgendaBut.finish (h : AgendaBut i r errands ended) {x : Ending}
    (hx : r.phase i = .ended x) : Agenda r errands (ended ++ [i]) := by
  have hlist : (i :: (errands.map Prod.fst ++ ended)).Perm
      (errands.map Prod.fst ++ (ended ++ [i])) := by
    rw [← List.append_assoc]
    exact (List.perm_append_singleton i _).symm
  refine ⟨hlist.nodup_iff.1 h.nodup, h.fits, ?_, ?_⟩
  · intro j hj
    rcases List.mem_append.1 hj with hj | hj
    · exact h.done j hj
    · obtain rfl := List.mem_singleton.1 hj
      exact ⟨x, hx⟩
  · intro j hj
    rw [← hlist.mem_iff]
    by_cases hji : j = i
    · exact List.mem_cons.2 (.inl hji)
    · exact List.mem_cons_of_mem _ (h.listed j hji hj)

/-- The shard is joined. -/
theorem AgendaBut.join (h : AgendaBut i r errands ended) {x : Ending}
    (hx : r.phase i = .joined x) : Agenda r errands ended := by
  refine ⟨(List.nodup_cons.1 h.nodup).2, h.fits, h.done, ?_⟩
  intro j hj
  by_cases hji : j = i
  · subst hji
    rw [hx] at hj
    cases hj
  · exact h.listed j hji hj

/-- Every shard that has an errand can be stopped, one after the other. -/
theorem Agenda.stopAll (job : Job w α) (h : Agenda r errands ended) (haborted : r.aborted = true) :
    (∃ moves, (errands.map Prod.fst).foldl Run.stop r = r.after job moves) ∧
      Agenda ((errands.map Prod.fst).foldl Run.stop r) [] (ended ++ errands.map Prod.fst) := by
  induction errands generalizing r ended with
  | nil =>
    refine ⟨⟨[], rfl⟩, ?_⟩
    rw [List.map_nil, List.append_nil]
    exact h
  | cons x errands ih =>
    obtain ⟨i, e⟩ := x
    have hgo : Goes job i r (r.stop i) := Run.goes_move job r ⟨.stop, i⟩
    have hphase : (r.stop i).phase i = .ended .cancelled :=
      Run.phase_stop haborted (Errand.isSuspended_of_fits (h.fits (i, e) List.mem_cons_self))
    have hstopped : (r.stop i).aborted = true := by
      rw [Run.aborted_stop, haborted]
    obtain ⟨⟨moves, hmoves⟩, hagenda⟩ := ih ((h.leave.goes hgo).finish hphase) hstopped
    refine ⟨⟨⟨.stop, i⟩ :: moves, hmoves⟩, ?_⟩
    rw [List.append_assoc] at hagenda
    exact hagenda

end Agenda

/-! ## Steps of a timeline -/

namespace Timeline

/-- The shards that have not ended, and what each does next. -/
def errands (t : Timeline w α) : List (Nat × Errand) :=
  t.ready ++ t.queued.map (fun i => (i, .request)) ++ t.asleep.map fun s => (s.shard, s.errand)

/-- The queues of a timeline are in order: they are an agenda, and shards queue for permits only
while there is none. -/
structure Orderly (t : Timeline w α) : Prop where
  agenda : Agenda t.run t.errands t.ended
  queue : t.queued ≠ [] → t.run.freePermits = 0

/-- A timeline has gone on by moves of its run, and its queues are in order. -/
structure Advances (job : Job w α) (r : Run w α) (t : Timeline w α) : Prop where
  moves : ∃ moves, t.run = r.after job moves
  orderly : t.Orderly

section Steps

open Run (Goes)

variable {job : Job w α} {r : Run w α} {t t' : Timeline w α} {i : Nat} {e : Errand}

theorem unfinished_eq (t : Timeline w α) : t.unfinished = t.errands.map Prod.fst := by
  simp [unfinished, errands, Function.comp_def]

theorem insertSleeper_perm (s : Sleeper) (ts : List Sleeper) :
    (insertSleeper s ts).Perm (s :: ts) := by
  induction ts with
  | nil => exact .refl _
  | cons t ts ih =>
    unfold insertSleeper
    split
    · exact (ih.cons t).trans (.swap s t ts)
    · exact .refl _

/-- A shard that goes on is added to the errands, at once or later. -/
theorem errands_goOn (t : Timeline w α) (ms i : Nat) (e : Errand) :
    ((i, e) :: t.errands).Perm (t.goOn ms i e).errands := by
  unfold goOn errands
  split
  · exact .refl _
  · refine .trans ?_ (((insertSleeper_perm _ t.asleep).map _).append_left _).symm
    exact List.perm_middle.symm

@[simp] theorem run_goOn (t : Timeline w α) (ms i : Nat) (e : Errand) :
    (t.goOn ms i e).run = t.run := by
  unfold goOn
  split <;> rfl

@[simp] theorem queued_goOn (t : Timeline w α) (ms i : Nat) (e : Errand) :
    (t.goOn ms i e).queued = t.queued := by
  unfold goOn
  split <;> rfl

@[simp] theorem ended_goOn (t : Timeline w α) (ms i : Nat) (e : Errand) :
    (t.goOn ms i e).ended = t.ended := by
  unfold goOn
  split <;> rfl

/-- A shard goes on to an errand that it can do. -/
theorem advances_goOn (hmoves : ∃ moves, t.run = r.after job moves)
    (h : AgendaBut i t.run t.errands t.ended) (hfits : e.fits (t.run.phase i) = true)
    (hqueue : t.queued ≠ [] → t.run.freePermits = 0) (ms : Nat) :
    Advances job r (t.goOn ms i e) := by
  refine ⟨?_, ?_, ?_⟩
  · rw [run_goOn]
    exact hmoves
  · rw [run_goOn, ended_goOn]
    exact (h.goOn hfits).perm (errands_goOn t ms i e)
  · rw [run_goOn, queued_goOn]
    exact hqueue

/-- A shard ends, and its permit is passed on to the shard that waits longest. -/
theorem advances_passOn (hmoves : ∃ moves, t.run = r.after job moves)
    (h : AgendaBut i t.run t.errands t.ended) {x : Ending} (hx : t.run.phase i = .ended x)
    (hqueue : t.queued ≠ [] → t.run.freePermits = 1) : Advances job r (t.passOn i) := by
  have hagenda := h.finish hx
  unfold passOn
  split
  · rename_i hqueued
    exact ⟨hmoves, hagenda, fun hne => absurd hqueued hne⟩
  · rename_i next queued hqueued
    have hfree : t.run.freePermits = 1 := hqueue (by rw [hqueued]; nofun)
    have hperm : t.errands.Perm ((next, .request) :: (t.ready ++
        queued.map (fun i => (i, .request)) ++ t.asleep.map fun s => (s.shard, s.errand))) := by
      rw [errands, hqueued, List.map_cons]
      exact List.perm_middle.append_right _
    have hrequest := hagenda.perm hperm
    have hwaiting := Errand.fits_request_iff.1 (hrequest.fits _ List.mem_cons_self)
    have hgo : Goes job next t.run (t.run.grant next) := Run.goes_move job t.run ⟨.grant, next⟩
    have hholding := Run.phase_grant hwaiting (by rw [hfree]; exact Nat.one_ne_zero)
    have hnone : (t.run.grant next).freePermits = 0 := by
      have hpermits := hgo.permits
      rw [hholding, hwaiting, hfree] at hpermits
      exact Nat.succ.inj hpermits
    refine ⟨hgo.leads hmoves, ?_, fun _ => hnone⟩
    have hsend := (hrequest.leave.goes hgo).goOn (Errand.fits_send_iff.2 hholding)
    apply hsend.perm
    show List.Perm _ (t.ready ++ [(next, Errand.send)] ++ queued.map (fun i => (i, .request)) ++
      t.asleep.map fun s => (s.shard, s.errand))
    simp only [List.append_assoc, List.singleton_append]
    exact List.perm_middle.symm

/-- A shard that is ready moves. -/
theorem advances_move (hmoves : ∃ moves, t.run = r.after job moves)
    (h : Agenda t.run ((i, e) :: t.errands) t.ended)
    (hqueue : t.queued ≠ [] → t.run.freePermits = 0) : Advances job r (t.move job i e) := by
  have hfits := h.fits _ List.mem_cons_self
  cases e with
  | request =>
    have hwaiting := Errand.fits_request_iff.1 hfits
    unfold move
    by_cases hfree : t.run.freePermits = 0
    · simp only [hfree, if_true]
      refine ⟨hmoves, h.perm ?_, fun _ => hfree⟩
      show List.Perm _ (t.ready ++ (t.queued ++ [i]).map (fun i => (i, Errand.request)) ++
        t.asleep.map fun s => (s.shard, s.errand))
      rw [errands, List.map_append, ← List.append_assoc]
      refine List.Perm.append_right _ (List.perm_append_singleton _ _).symm
    · simp only [hfree, if_false]
      have hgo : Goes job i t.run (t.run.grant i) := Run.goes_move job t.run ⟨.grant, i⟩
      have hholding := Run.phase_grant hwaiting hfree
      refine advances_goOn (t := { t with run := t.run.grant i }) (hgo.leads hmoves)
        (h.leave.goes hgo) (Errand.fits_send_iff.2 hholding) ?_ 0
      exact fun hne => absurd (hqueue hne) hfree
  | send =>
    have hholding := Errand.fits_send_iff.1 hfits
    have hgo : Goes job i t.run ((t.run.register job i).submit job i).2 :=
      (Run.goes_move job t.run ⟨.register, i⟩).trans (Run.goes_move job _ ⟨.submit, i⟩)
    have hpermits := hgo.permits
    unfold move
    rcases Run.phase_send job hholding with ⟨s, hs⟩ | ⟨result, hresult⟩
    · simp only [hs]
      refine advances_goOn (t := { t with run := _ }) (hgo.leads hmoves) (h.leave.goes hgo)
        (Errand.fits_answer_iff.2 ⟨s, hs⟩) ?_ _
      intro hne
      rw [hs, hholding, hqueue hne] at hpermits
      exact Nat.succ.inj hpermits
    · simp only [hresult]
      refine advances_passOn (hgo.leads hmoves) (h.leave.goes hgo) hresult ?_
      intro hne
      rw [hresult, hholding, hqueue hne] at hpermits
      exact hpermits
  | answer =>
    obtain ⟨s, hs⟩ := Errand.fits_answer_iff.1 hfits
    have hgo : Goes job i t.run (t.run.answer job i).2 := Run.goes_move job t.run ⟨.answer, i⟩
    have hpermits := hgo.permits
    obtain ⟨a, ha⟩ := Run.phase_answer job hs
    unfold move
    refine advances_goOn (t := { t with run := _ }) (hgo.leads hmoves) (h.leave.goes hgo)
      (Errand.fits_deliver_iff.2 ⟨s, a, ha⟩) ?_ _
    intro hne
    rw [ha, hs, hqueue hne] at hpermits
    exact Nat.succ.inj hpermits
  | deliver =>
    obtain ⟨s, a, ha⟩ := Errand.fits_deliver_iff.1 hfits
    have hgo := Run.goes_deliver job t.run i
    have hpermits := hgo.permits
    obtain ⟨result, hresult⟩ := Run.phase_deliver job ha
    unfold move
    refine advances_passOn (hgo.leads hmoves) (h.leave.goes hgo) hresult ?_
    intro hne
    rw [hresult, ha, hqueue hne] at hpermits
    exact hpermits

/-- An ended shard is joined, and if that aborts the run, all others are stopped. -/
theorem advances_joinNext (hmoves : ∃ moves, t.run = r.after job moves)
    (h : Agenda t.run t.errands (i :: t.ended))
    (hqueue : t.queued ≠ [] → t.run.freePermits = 0) : Advances job r (t.joinNext job i) := by
  obtain ⟨x, hx⟩ := h.done i List.mem_cons_self
  have hgo : Goes job i t.run (t.run.join job i) := Run.goes_move job t.run ⟨.join, i⟩
  have hpermits := hgo.permits
  have hjoined := Run.phase_join job hx
  have hagenda := (h.leave_ended.goes hgo).join hjoined
  unfold joinNext
  by_cases haborted : (t.run.join job i).aborted = true
  · simp only [haborted, if_true]
    obtain ⟨⟨moves, hstop⟩, hstopped⟩ := hagenda.stopAll job haborted
    obtain ⟨before, hbefore⟩ := hgo.leads hmoves
    have hunfinished := unfinished_eq { t with run := t.run.join job i }
    refine ⟨⟨before ++ moves, ?_⟩, ?_, fun hne => absurd rfl hne⟩
    · show (unfinished _).foldl Run.stop (t.run.join job i) = _
      rw [hunfinished, Run.after_append, ← hbefore]
      exact hstop
    · show Agenda ((unfinished _).foldl Run.stop (t.run.join job i)) [] (t.ended ++ unfinished _)
      rw [hunfinished]
      exact hstopped
  · simp only [haborted]
    refine ⟨hgo.leads hmoves, hagenda, ?_⟩
    intro hne
    rw [hjoined, hx, hqueue hne] at hpermits
    exact hpermits

/-- Shards wake. -/
theorem advances_wakeAt (h : Advances job r t) (hready : t.ready = []) (time : Nat) :
    Advances job r (t.wakeAt time) := by
  refine ⟨h.moves, h.orderly.agenda.perm ?_, h.orderly.queue⟩
  have hsplit := List.takeWhile_append_dropWhile (p := fun s => decide (s.wakes ≤ time))
    (l := t.asleep)
  rw [errands, hready, List.nil_append]
  conv => lhs; rw [← hsplit, List.map_append, ← List.append_assoc]
  exact List.perm_append_comm.append_right _

/-- Every step of a timeline is made of moves of its run. -/
theorem Advances.step (h : Advances job r t) (hstep : t.step? job = some t') :
    Advances job r t' := by
  have hagenda := h.orderly.agenda
  unfold step? at hstep
  split at hstep
  · rename_i i e ready hready
    cases hstep
    rw [errands, hready] at hagenda
    exact advances_move (t := { t with ready := ready }) h.moves hagenda h.orderly.queue
  · rename_i i ended hready hended
    cases hstep
    rw [hended] at hagenda
    exact advances_joinNext (t := { t with ended := ended }) h.moves hagenda h.orderly.queue
  · rename_i s asleep hready hended hasleep
    cases hstep
    exact advances_wakeAt h hready s.wakes
  · cases hstep

/-- The last timeline has no step. -/
theorem advances_complete (h : Advances job r t) :
    Advances job r (t.complete job) ∧ (t.complete job).step? job = none := by
  induction t using complete.induct job with
  | case1 t hnone =>
    rw [complete]
    split
    · exact ⟨h, hnone⟩
    · rename_i hsome
      rw [hnone] at hsome
      cases hsome
  | case2 t t' hsome ih =>
    rw [complete]
    split
    · rename_i hnone
      rw [hnone] at hsome
      cases hsome
    · rename_i t'' hsome'
      rw [hsome] at hsome'
      cases hsome'
      exact ih (h.step hsome)

end Steps

/-! ## The whole run -/

section Whole

variable {job : Job w α} {t : Timeline w α}

/-- A timeline without a step has nothing but shards that queue for permits. -/
theorem errands_of_step_none (h : t.step? job = none) :
    t.errands = t.queued.map (fun i => (i, .request)) ∧ t.ended = [] := by
  unfold step? at h
  split at h
  · cases h
  · cases h
  · cases h
  · rename_i hready hended hasleep
    rw [errands, hready, hasleep, List.map_nil, List.append_nil, List.nil_append]
    exact ⟨rfl, hended⟩

/-- A timeline that has no step has joined all its shards: no shard can wait for a permit while
none is held. -/
theorem Orderly.isOver (h : t.Orderly) (hstep : t.step? job = none)
    (hpermits : 0 < t.run.permits) : t.run.IsOver := by
  obtain ⟨herrands, hended⟩ := errands_of_step_none hstep
  have hqueued : ∀ i, (t.run.phase i).isJoined = false →
      t.run.phase i = .waiting ∧ t.queued ≠ [] := by
    intro i hi
    have hmem := h.agenda.listed i hi
    rw [herrands, hended, List.append_nil] at hmem
    obtain ⟨x, hx, rfl⟩ := List.mem_map.1 hmem
    obtain ⟨j, hj, rfl⟩ := List.mem_map.1 hx
    refine ⟨Errand.fits_request_iff.1 (h.agenda.fits (j, .request) (herrands ▸ hx)), ?_⟩
    exact List.ne_nil_of_mem hj
  rw [Run.isOver_iff]
  intro i hi
  by_contra hnot
  obtain ⟨-, hne⟩ := hqueued i (by simpa using hnot)
  have hheld : 0 < t.run.phases.countP Phase.holdsPermit := by
    rw [Run.permits, h.queue hne] at hpermits
    omega
  obtain ⟨p, hp, hholds⟩ := List.countP_pos_iff.1 hheld
  obtain ⟨j, hj, rfl⟩ := List.getElem_of_mem hp
  rw [← Run.phase_eq_getElem hj] at hholds
  have hwaiting := (hqueued j ?_).1
  · rw [hwaiting] at hholds
    cases hholds
  · cases hphase : t.run.phase j <;> first | rfl | (rw [hphase] at hholds; cases hholds)

/-- At the start every shard asks for a permit. -/
theorem orderly_start (job : Job w α) (permits : Nat) (scene : Scene w α) :
    (start job permits scene).Orderly := by
  have herrands : (start job permits scene).errands =
      (List.range job.plan.count).map fun i => (i, .request) := by
    simp [errands, start]
  refine ⟨?_, fun hne => absurd rfl hne⟩
  rw [herrands]
  refine ⟨?_, ?_, nofun, ?_⟩
  · simpa [start, Function.comp_def] using List.nodup_range
  · intro x hx
    obtain ⟨i, hi, rfl⟩ := List.mem_map.1 hx
    exact Errand.fits_request_iff.2 (Run.phase_start job permits scene (List.mem_range.1 hi))
  · intro i hi
    have hlt : i < (Run.start job permits scene).phases.length := Run.lt_length_of_not_joined hi
    rw [Run.length_phases_start] at hlt
    simpa [start, Function.comp_def] using hlt

/-- A timeline carries out an interleaving of its run, and joins every shard. -/
theorem complete_is_interleaving (job : Job w α) {permits : Nat} (hpermits : 0 < permits)
    (scene : Scene w α) :
    ∃ moves, ((start job permits scene).complete job).run =
        (Run.start job permits scene).after job moves ∧
      ((Run.start job permits scene).after job moves).IsOver := by
  have hstart : Advances job (Run.start job permits scene) (start job permits scene) :=
    ⟨⟨[], rfl⟩, orderly_start job permits scene⟩
  obtain ⟨⟨⟨moves, hmoves⟩, orderly⟩, hnone⟩ := advances_complete hstart
  refine ⟨moves, hmoves, ?_⟩
  rw [← hmoves]
  apply orderly.isOver hnone
  rw [hmoves, Run.permits_after]
  exact hpermits

end Whole

end Timeline

/-- A scheduler carries out an interleaving of the shards of its query, and joins them all. -/
theorem run_is_interleaving {s : Scheduler} (hs : 0 < s.concurrency) (e : Endpoint w)
    (plan : ShardPlan) (mode : Mode) (block : BlockTag) (register : Registrar α)
    (scene : Scene w α) :
    ∃ moves r now,
      r = (Run.start (s.job e plan mode block register) s.concurrency scene).after
        (s.job e plan mode block register) moves ∧
      r.IsOver ∧
      s.run e plan.total plan.shardSize mode block register scene =
        (r.result, { r.scene with now := now }) := by
  have hplan : ShardPlan.make plan.total plan.shardSize = .ok plan := dif_pos plan.shardSize_pos
  obtain ⟨moves, hmoves, hover⟩ :=
    Timeline.complete_is_interleaving (s.job e plan mode block register) hs scene
  let done := (Timeline.start (s.job e plan mode block register) s.concurrency scene).complete
    (s.job e plan mode block register)
  rw [← hmoves] at hover
  refine ⟨moves, done.run, done.now, hmoves, hover, ?_⟩
  rw [run, hplan]

end ContractReads.Scheduler
