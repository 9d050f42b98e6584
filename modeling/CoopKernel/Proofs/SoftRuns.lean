import CoopKernel.Proofs.SoftHistory

/-!
# Every run has a history of soft interrupts

Queues, nests, buses and the terminal leave the pending word alone, so a step of
the kernel adds to the history what it raises or dispatches and nothing else.
-/

namespace CoopKernel

namespace Kernel

/-- The pending word is as before, and no soft interrupt was raised or dispatched. -/
structure Unraised (k k' : Kernel) : Prop where
  slots : k'.soft.slots = k.soft.slots
  pending : k'.soft.pending = k.soft.pending
  trace : ∃ es, k'.trace = es ++ k.trace ∧ ∀ e ∈ es, e.isSoft = false

variable {k k' k'' : Kernel}

namespace Unraised

theorem of_eq (soft : k'.soft = k.soft) (trace : k'.trace = k.trace) : k.Unraised k' :=
  ⟨congrArg _ soft, congrArg SoftTable.pending soft, [], trace, by simp⟩

theorem trans (h : k.Unraised k') (h' : k'.Unraised k'') : k.Unraised k'' := by
  obtain ⟨es, split, plain⟩ := h.trace
  obtain ⟨es', split', plain'⟩ := h'.trace
  refine ⟨h'.slots.trans h.slots, h'.pending.trans h.pending, es' ++ es, ?_, ?_⟩
  · rw [split', split, List.append_assoc]
  · intro e mem
    exact (List.mem_append.mp mem).elim (plain' e) (plain e)

theorem note {e : Event} (other : e.isSoft = false) : k.Unraised (k.note e) :=
  ⟨rfl, rfl, [e], rfl, by simpa using other⟩

theorem expose (c : Cell) : k.Unraised (k.expose c) := by
  rw [Kernel.expose]
  split
  · exact note rfl
  · exact of_eq rfl rfl

theorem relinked {es : List Event} (h : k.Relinked k' es) (plain : ∀ e ∈ es, e.isSoft = false) :
    k.Unraised k' :=
  ⟨congrArg _ h.soft, congrArg SoftTable.pending h.soft, es, h.trace, plain⟩

theorem add (q : QueueId) (t : TaskId) (k : Kernel) :
    k.Unraised (Exec.final (Kernel.add q t) k) := by
  rcases relinked_add k q t with ⟨k', appended, es, added, relinked, queueing⟩ | refused
  · rw [Exec.final_ok added]
    refine .relinked relinked fun e mem => ?_
    rw [queueing e mem]
    rfl
  · rw [Exec.final_error refused]
    exact of_eq rfl rfl

theorem pop (q : QueueId) (k : Kernel) : k.Unraised (k.pop q).2 := by
  cases first : (k.disable.queues.get q).head with
  | none =>
    have same : k.pop q = (none, k.disable.restore k.cpu.enabled) := by
      simp only [Kernel.pop, enclosed, unlink, first]
    rw [same]
    exact of_eq rfl rfl
  | some t =>
    have relinked := (relinked_unlink rfl first).section
    exact .relinked relinked (by simp [Event.isSoft])

theorem putCurrent (n : NestId) (t : Option TaskId) (k : Kernel) :
    k.Unraised (k.putCurrent n t) := (expose (.current n)).trans (of_eq rfl rfl)

theorem grant (n : NestId) (t : TaskId) (k : Kernel) : k.Unraised (k.grant n t) :=
  (putCurrent n (some t) k).trans (note rfl)

theorem turned (q : QueueId) (t : TaskId) (w : Worker) (k : Kernel) :
    k.Unraised (k.turned q t w) := by
  have enabled : (k.pop q).2.Unraised (k.pop q).2.enable := of_eq rfl rfl
  exact (pop q k).trans (enabled.trans (note rfl))

theorem bindHandler (id : Nat) (script : Option Nat) (k : Kernel) :
    k.Unraised (Exec.final (Kernel.bindHandler id script) k) := by
  by_cases inside : id < k.soft.slots
  · have ran : Kernel.bindHandler id script k =
        .ok () (k.enclosed fun k => ((), k.putHandler id script)).2 := by
      rw [Kernel.bindHandler, if_pos inside]
    rw [Exec.final_ok ran]
    exact ⟨rfl, rfl, [], rfl, by simp⟩
  · have refused : Kernel.bindHandler id script k = .error (.fault (.softIdOutOfRange id)) k := by
      rw [Kernel.bindHandler, if_neg inside]
    rw [Exec.final_error refused]
    exact of_eq rfl rfl

end Unraised

/-- The later kernel's events go on from the earlier one's, and account for its pending ids. -/
def Recounts (k k' : Kernel) : Prop :=
  k'.soft.slots = k.soft.slots ∧
    ∃ es, k'.trace = es ++ k.trace ∧ SoftHistory k.soft.slots k.soft.ids es k'.soft.ids

theorem Recounts.trans (h : k.Recounts k') (h' : k'.Recounts k'') : k.Recounts k'' := by
  obtain ⟨slots, es, split, history⟩ := h
  obtain ⟨slots', es', split', history'⟩ := h'
  rw [slots] at history'
  exact ⟨slots'.trans slots, es' ++ es, by rw [split', split, List.append_assoc],
    history.trans history'⟩

theorem Unraised.recounts (h : k.Unraised k') : k.Recounts k' := by
  obtain ⟨es, split, plain⟩ := h.trace
  have ids : k'.soft.ids = k.soft.ids := by rw [SoftTable.ids, h.pending, SoftTable.ids]
  refine ⟨h.slots, es, split, ?_⟩
  rw [ids]
  exact .others plain

/-- Raising an id of the table says whether its bit was clear, and sets it. -/
theorem raise_ok {id : Nat} (inside : id < k.soft.slots) :
    ∃ k', Kernel.raise id k = .ok () k' ∧ k'.soft.slots = k.soft.slots ∧
      k'.trace = .raised id (decide (id ∉ k.soft.ids)) :: k.trace ∧
      k'.soft.ids = insert id k.soft.ids := by
  have fresh : (!k.soft.pending.getLsbD id) = decide (id ∉ k.soft.ids) := by
    simp only [SoftTable.mem_ids, Bool.not_eq_true, Bool.decide_eq_false]
  refine ⟨{ k with soft := k.soft.mark id }.note (.raised id (decide (id ∉ k.soft.ids))), ?_, ?_,
    ?_, ?_⟩
  · rw [Kernel.raise, if_pos inside, fresh]
  · rfl
  · rfl
  · change (k.soft.mark id).ids = _
    exact SoftTable.ids_mark inside

theorem recounts_raise (id : Nat) (k : Kernel) : k.Recounts (Exec.final (Kernel.raise id) k) := by
  by_cases inside : id < k.soft.slots
  · obtain ⟨k', ran, slots, trace, ids⟩ := raise_ok inside
    rw [Exec.final_ok ran]
    refine ⟨slots, [.raised id (decide (id ∉ k.soft.ids))], trace, ?_⟩
    rw [ids]
    exact .raised .start inside
  · have refused : Kernel.raise id k = .error (.fault (.softIdOutOfRange id)) k := by
      rw [Kernel.raise, if_neg inside]
    rw [Exec.final_error refused]
    exact (Unraised.of_eq rfl rfl).recounts

theorem recounts_dispatched {id script : Nat} (lowest : k.soft.lowest? = some id) :
    k.Recounts (k.dispatched id script) := by
  obtain ⟨mem, least⟩ := SoftTable.lowest_some lowest
  have taken : k.takeLowest.2 = { k with soft := k.soft.clear id }.note (.served id) := by
    rw [takeLowest, lowest]
  have ids : (k.dispatched id script).soft.ids = k.soft.ids.erase id := by
    rw [dispatched, taken]
    exact SoftTable.ids_clear
  refine ⟨?_, [.handlerRan id script true, .served id], ?_, ?_⟩
  · rw [dispatched, taken]
    rfl
  · rw [dispatched, taken]
    rfl
  · rw [ids]
    exact .dispatched .start mem least

theorem Step.recounts {reserved : Nat → Prop} (step : k.Step reserved k') : k.Recounts k' := by
  cases step with
  | add q t => exact (Unraised.add q t k).recounts
  | pop q => exact (Unraised.pop q k).recounts
  | turn quiet first worker => exact (Unraised.turned _ _ _ k).recounts
  | count q => exact (Unraised.of_eq rfl rfl).recounts
  | isEmpty q => exact (Unraised.of_eq rfl rfl).recounts
  | grant n t => exact (Unraised.grant n t k).recounts
  | free n => exact (Unraised.putCurrent n none k).recounts
  | submitted n t => exact (Unraised.note rfl).recounts
  | bindWorker t w => exact ((Unraised.expose (.worker t)).trans (.of_eq rfl rfl)).recounts
  | bindHandler id script => exact (Unraised.bindHandler id script k).recounts
  | raise id => exact recounts_raise id k
  | dispatch lowest bound => exact recounts_dispatched lowest
  | cpu c => exact (Unraised.of_eq rfl rfl).recounts
  | remark e plain => exact (Unraised.note plain.1).recounts

theorem Steps.recounts {reserved : Nat → Prop} (steps : k.Steps reserved k') : k.Recounts k' := by
  induction steps with
  | refl => exact (Unraised.of_eq rfl rfl).recounts
  | tail _ step ih => exact ih.trans step.recounts

theorem Workerless.unraised (h : k.Workerless k') : k.Unraised k' := by
  obtain ⟨q, t, -, -, rfl⟩ := h
  exact (Unraised.pop q k).trans (.of_eq rfl rfl)

theorem Halts.recounts {reserved : Nat → Prop} (h : k.Halts reserved k') :
    ∃ last, k.Recounts last ∧ (k' = last ∨ last.Unhandled k') := by
  obtain ⟨last, steps, same | unhandled | workerless⟩ := h
  · exact ⟨last, steps.recounts, Or.inl same⟩
  · exact ⟨last, steps.recounts, Or.inr unhandled⟩
  · exact ⟨k', steps.recounts.trans workerless.unraised.recounts, Or.inl rfl⟩

/-- Between two kernels, an id was raised afresh as often as it was dispatched, and once more or
less for what was pending. -/
def Balances (k k' : Kernel) : Prop :=
  ∃ es, k'.trace = es ++ k.trace ∧ ∀ id,
    es.count (.raised id true) + (if id ∈ k.soft.ids then 1 else 0) =
      es.count (.served id) + if id ∈ k'.soft.ids then 1 else 0

theorem Recounts.balances (h : k.Recounts k') : k.Balances k' := by
  obtain ⟨-, es, split, history⟩ := h
  exact ⟨es, split, history.accounts⟩

/-- Of a dispatch that finds no handler only the first half happens. -/
theorem Unhandled.eq (h : k.Unhandled k') : ∃ id, id ∈ k.soft.ids ∧ (∀ j ∈ k.soft.ids, id ≤ j) ∧
    k.soft.handlers.get id = none ∧ k'.soft.slots = k.soft.slots ∧
    k'.trace = .served id :: k.trace ∧ k'.soft.ids = k.soft.ids.erase id := by
  obtain ⟨id, lowest, unbound, rfl⟩ := h
  obtain ⟨mem, least⟩ := SoftTable.lowest_some lowest
  refine ⟨id, mem, least, unbound, ?_⟩
  rw [takeLowest, lowest]
  exact ⟨rfl, rfl, SoftTable.ids_clear⟩

theorem Halts.balances {reserved : Nat → Prop} (h : k.Halts reserved k') : k.Balances k' := by
  obtain ⟨last, recounts, rfl | unhandled⟩ := h.recounts
  · exact recounts.balances
  · obtain ⟨es, split, balance⟩ := recounts.balances
    obtain ⟨id, mem, -, -, -, trace, ids⟩ := unhandled.eq
    refine ⟨.served id :: es, by rw [trace, split]; rfl, fun i => ?_⟩
    rw [List.count_cons_of_ne Event.noConfusion, List.count_cons, ids, balance i]
    by_cases same : i = id
    · subst same
      simp [mem]
    · simp [same, Ne.symm same]

theorem Halts.inside {reserved : Nat → Prop} (h : k.Halts reserved k')
    (bounded : ∀ i ∈ k.soft.ids, i < k.soft.slots) :
    k'.soft.slots = k.soft.slots ∧ ∀ i ∈ k'.soft.ids, i < k.soft.slots := by
  obtain ⟨last, ⟨slots, es, -, history⟩, ended⟩ := h.recounts
  have inside := history.inside bounded
  rcases ended with rfl | unhandled
  · exact ⟨slots, inside⟩
  · obtain ⟨id, -, -, -, slots', -, ids⟩ := unhandled.eq
    refine ⟨slots'.trans slots, fun i mem => inside i ?_⟩
    rw [ids] at mem
    exact Finset.mem_of_mem_erase mem

/-- Raising ids of the table, in any order and as often as one likes, sets just their bits. -/
theorem raise_all (list : List Nat) (inside : ∀ id ∈ list, id < k.soft.slots) :
    ∃ k', list.forM Kernel.raise k = .ok ⟨⟩ k' ∧ k'.soft.ids = k.soft.ids ∪ list.toFinset := by
  induction list generalizing k with
  | nil => exact ⟨k, rfl, by simp⟩
  | cons id rest ih =>
    obtain ⟨k₁, ran, slots, -, ids⟩ := raise_ok (inside id List.mem_cons_self)
    obtain ⟨k', others, all⟩ := ih (k := k₁) fun i mem => by
      rw [slots]
      exact inside i (List.mem_cons_of_mem id mem)
    refine ⟨k', (Exec.bind_ok ran).trans others, ?_⟩
    rw [all, ids, List.toFinset_cons, Finset.insert_union, Finset.union_insert]

end Kernel

end CoopKernel
