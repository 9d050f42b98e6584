import CoopKernel.Kernel.Nest
import CoopKernel.Proofs.BusRun

/-!
# Nest operations as list operations

Asking for a resource and handing it over, for every kernel that holds lists. A
task that asks is put in the main queue or in the private one, unless it sits in
some queue already; it may be the holder itself.
-/

namespace CoopKernel.Kernel

/-- Only queues and holders may have changed, and nothing went over a bus. -/
structure Rearranged (k k' : Kernel) : Prop where
  enabled : k'.cpu.enabled = k.cpu.enabled
  feeds : ∀ n, k'.feeds n = k.feeds n
  bound : ∀ t, k'.isBound t = k.isBound t
  wires : ∀ bus, k'.wires bus = k.wires bus

variable {k k' k'' : Kernel} {lists : QueueId → List TaskId} {n : NestId} {t : TaskId}

theorem Rearranged.trans (h : k.Rearranged k') (h' : k'.Rearranged k'') : k.Rearranged k'' where
  enabled := h'.enabled.trans h.enabled
  feeds n := (h'.feeds n).trans (h.feeds n)
  bound t := (h'.bound t).trans (h.bound t)
  wires bus := (h'.wires bus).trans (h.wires bus)

theorem Relinked.rearranged {events : List Event} (h : k.Relinked k' events)
    (quiet : ∀ e ∈ events, ∀ bus, e.wire? bus = none) : k.Rearranged k' where
  enabled := h.enabled
  feeds n := by rw [feeds, h.nests, feeds]
  bound := h.isBound
  wires bus := wires_of_trace h.trace fun e he => quiet e he bus

theorem Relinked.holder {events : List Event} (h : k.Relinked k' events) (n : NestId) :
    k'.holder n = k.holder n := by
  rw [Kernel.holder, h.nests, Kernel.holder]

theorem Rearranged.section (h : k.disable.Rearranged k') :
    k.Rearranged (k'.restore k.cpu.enabled) where
  enabled := by
    have off : k'.cpu.enabled = false := h.enabled
    simp [restore, Cpu.enabled_restore, off]
  feeds := h.feeds
  bound := h.bound
  wires := h.wires

theorem rearranged_putCurrent (n : NestId) (t : Option TaskId) :
    k.Rearranged (k.putCurrent n t) where
  enabled := by
    rw [putCurrent, expose]
    split <;> rfl
  feeds m := by
    change ((k.nests.modify n _).get m).feeds = (k.nests.get m).feeds
    rw [Bank.get_modify]
    split
    · rename_i hm
      rw [hm]
    · rfl
  bound t := by
    rw [putCurrent, expose]
    split <;> rfl
  wires bus := wires_expose (.current n)

theorem holder_putCurrent (n m : NestId) (t : Option TaskId) :
    (k.putCurrent n t).holder m = if m = n then t else k.holder m := by
  change ((k.nests.modify n _).get m).current = _
  rw [Bank.get_modify]
  split <;> rfl

theorem Holds.putCurrent (h : k.Holds lists) (n : NestId) (t : Option TaskId) :
    (k.putCurrent n t).Holds lists := by
  refine h.congr ?_ ?_
  · rw [Kernel.putCurrent, expose]
    split <;> rfl
  · rw [Kernel.putCurrent, expose]
    split <;> rfl

theorem rearranged_note {e : Event} (quiet : ∀ bus, e.wire? bus = none) : k.Rearranged (k.note e) :=
  ⟨rfl, fun _ => rfl, fun _ => rfl, fun bus => by
    have trace : (k.note e).trace = [e] ++ k.trace := rfl
    exact wires_of_trace trace (by simpa using quiet bus)⟩

theorem rearranged_grant (n : NestId) (t : TaskId) : k.Rearranged (k.grant n t) :=
  (rearranged_putCurrent n (some t)).trans (rearranged_note fun _ => rfl)

theorem holder_grant (n m : NestId) (t : TaskId) :
    (k.grant n t).holder m = if m = n then some t else k.holder m :=
  holder_putCurrent n m (some t)

theorem Holds.grant (h : k.Holds lists) (n : NestId) (t : TaskId) : (k.grant n t).Holds lists :=
  (h.putCurrent n (some t)).congr rfl rfl

def entry (k : Kernel) (n : NestId) : QueueId :=
  if (k.holder n).isSome then .waiting n else k.feeds n

/-- One attempt to queue a task with a worker, whether or not it sits in a queue already. -/
theorem Holds.add (h : k.Holds lists) (q : QueueId) (bound : k.isBound t = true) :
    ∃ k' lists', Kernel.add q t k = .ok (!k.isQueued t) k' ∧ k'.Holds lists' ∧
      k.Rearranged k' ∧ (∀ m, k'.holder m = k.holder m) ∧
      lists' = if k.isQueued t then lists else Function.update lists q (lists q ++ [t]) := by
  cases queued : k.isQueued t with
  | true =>
    obtain ⟨k', added, holds, relinked⟩ := h.add_queued q queued
    exact ⟨k', lists, added, holds, relinked.rearranged (by simp), relinked.holder, rfl⟩
  | false =>
    obtain ⟨k', added, holds, relinked⟩ := h.add_idle q bound queued
    exact ⟨k', _, added, holds, relinked.rearranged (by simp [Event.wire?]), relinked.holder, rfl⟩

/-- What becomes of a kernel when a task with a worker asks for a resource. Even a task that is
refused becomes the holder of a free resource. -/
structure Asked (k k' : Kernel) (lists lists' : QueueId → List TaskId) (n : NestId) (t : TaskId) :
    Prop where
  holds : k'.Holds lists'
  rearranged : k.Rearranged k'
  holder : ∀ m, k'.holder m = if m = n then some ((k.holder n).getD t) else k.holder m
  result : lists' = if k.isQueued t then lists
    else Function.update lists (k.entry n) (lists (k.entry n) ++ [t])

/-- A task is placed in the queue of a free resource or behind its holder; the answer says whether
it sat in no queue. -/
theorem Holds.place (h : k.Holds lists) (n : NestId) (bound : k.isBound t = true) :
    ∃ k' lists', Kernel.place n t k = .ok (!k.isQueued t) k' ∧ k.Asked k' lists lists' n t := by
  cases held : k.holder n with
  | some current =>
    obtain ⟨k', lists', added, holds, rearranged, holder, result⟩ := h.add (.waiting n) bound
    refine ⟨k', lists', ?_, holds, rearranged, fun m => ?_, ?_⟩
    · rw [Kernel.place, held]
      exact added
    · rw [holder m, held]
      split
      · rename_i hm
        rw [hm, held]
        rfl
      · rfl
    · rw [result, entry, held]
      rfl
  | none =>
    have granted := rearranged_grant (k := k) n t
    obtain ⟨k', lists', added, holds, rearranged, holder, result⟩ :=
      (h.grant n t).add (k.feeds n) ((granted.bound t).trans bound)
    have queued : (k.grant n t).isQueued t = k.isQueued t := by
      rw [Bool.eq_iff_iff, (h.grant n t).queued_iff, h.queued_iff]
    rw [queued] at added result
    refine ⟨k', lists', ?_, holds, granted.trans rearranged, fun m => ?_, ?_⟩
    · rw [Kernel.place, held]
      exact added
    · rw [holder m, holder_grant, held]
      rfl
    · rw [result, entry, held]
      rfl

theorem Holds.submit (h : k.Holds lists) (n : NestId) (bound : k.isBound t = true) :
    ∃ k' lists', Kernel.submit n t k = .ok (!k.isQueued t) k' ∧ k.Asked k' lists lists' n t := by
  obtain ⟨k', lists', placed, holds, rearranged, holder, result⟩ := h.disable.place n bound
  have queued : k.disable.isQueued t = k.isQueued t := rfl
  rw [queued] at placed result
  cases busy : k.isQueued t with
  | true =>
    rw [busy] at placed
    refine ⟨k'.restore k.cpu.enabled, lists', ?_, holds.congr rfl rfl, rearranged.section, holder,
      result⟩
    simp only [Kernel.submit, critical, placed]
    rfl
  | false =>
    rw [busy] at placed
    have noted : k'.Rearranged (k'.note (.submitted n t)) := rearranged_note fun _ => rfl
    refine ⟨(k'.note (.submitted n t)).restore k.cpu.enabled, lists', ?_, holds.congr rfl rfl,
      (rearranged.trans noted).section, holder, result⟩
    simp only [Kernel.submit, critical, placed]
    rfl

theorem submit_unbound (n : NestId) (unbound : k.isBound t = false) :
    ∃ k', Kernel.submit n t k = .error (.fault .queuedWithoutWorker) k' := by
  cases held : k.disable.holder n with
  | some current =>
    have refused := add_unbound (k := k.disable) (.waiting n) unbound
    exact ⟨_, by simp only [Kernel.submit, critical, place, held, refused]; rfl⟩
  | none =>
    have unbound' : (k.disable.grant n t).isBound t = false :=
      ((rearranged_grant n t).bound t).trans unbound
    have refused := add_unbound (k.disable.feeds n) unbound'
    exact ⟨_, by simp only [Kernel.submit, critical, place, held, refused]; rfl⟩

/-- Nobody waits: the resource is left free. -/
theorem Holds.handOver_nil (h : k.Holds lists) (empty : lists (.waiting n) = []) :
    ∃ k', Kernel.handOver n k = .ok () k' ∧ k'.Holds lists ∧ k.Rearranged k' ∧
      ∀ m, k'.holder m = if m = n then none else k.holder m := by
  obtain ⟨k₁, popped, holds, relinked⟩ := h.disable.pop_nil empty
  refine ⟨(k₁.putCurrent n none).restore k.cpu.enabled, ?_, (holds.putCurrent n none).congr rfl rfl,
    ?_, fun m => ?_⟩
  · simp only [handOver, critical, popped]
  · exact ((relinked.rearranged (by simp)).trans (rearranged_putCurrent n none)).section
  · change (k₁.putCurrent n none).holder m = _
    rw [holder_putCurrent, relinked.holder]
    rfl

/-- The task that waits longest is taken out and put in the main queue. -/
theorem Holds.handOver_cons (h : k.Holds lists) {rest : List TaskId}
    (first : lists (.waiting n) = t :: rest) :
    ∃ k', Kernel.handOver n k = .ok () k' ∧
      k'.Holds (Function.update (Function.update lists (.waiting n) rest) (k.feeds n)
        (Function.update lists (.waiting n) rest (k.feeds n) ++ [t])) ∧
      k.Rearranged k' ∧ ∀ m, k'.holder m = if m = n then some t else k.holder m := by
  obtain ⟨k₁, popped, holds, relinked⟩ := h.disable.pop_cons first
  have rearranged : k.disable.Rearranged k₁ := relinked.rearranged (by simp [Event.wire?])
  have bound : k₁.isBound t = true := by
    rw [relinked.isBound]
    exact h.disable.bound t (h.disable.queued (first ▸ List.mem_cons_self))
  have idle : k₁.isQueued t = false := by
    rw [← Bool.not_eq_true, holds.queued_iff]
    rintro ⟨r, mem⟩
    exact ((mem_remove first (h.nodup _) h.apart).mp mem).2 rfl
  obtain ⟨k₂, added, holds₂, relinked₂⟩ := holds.add_idle (k₁.feeds n) bound idle
  have feeds : k₁.feeds n = k.feeds n := rearranged.feeds n
  rw [feeds] at added holds₂ relinked₂
  refine ⟨(k₂.grant n t).restore k.cpu.enabled, ?_, (holds₂.grant n t).congr rfl rfl, ?_,
    fun m => ?_⟩
  · simp only [handOver, critical, popped, feeds, added]
  · refine Rearranged.section ((rearranged.trans ?_).trans (rearranged_grant n t))
    exact relinked₂.rearranged (by simp [Event.wire?])
  · change (k₂.grant n t).holder m = _
    rw [holder_grant, relinked₂.holder, relinked.holder]
    rfl

end CoopKernel.Kernel

namespace CoopKernel.Board

variable {b b' : Board} {lists : QueueId → List TaskId} {bus : Nat}

/-- Only a task with a worker is answered when it asks for a bus. -/
theorem request_ok {t : TaskId} {answer : Bool} (holds : b.kernel.Holds lists)
    (ran : Board.request bus t b = .ok answer b') :
    b.kernel.isBound t = true ∧ ∃ k lists', b' = { b with kernel := k } ∧
      b.kernel.Asked k lists lists' (.bus bus) t := by
  cases bound : b.kernel.isBound t with
  | false =>
    obtain ⟨k, refused⟩ := Kernel.submit_unbound (.bus bus) bound
    rw [Board.request, onKernel_error refused] at ran
    cases ran
  | true =>
    obtain ⟨k, lists', answered, asked⟩ := holds.submit (.bus bus) bound
    rw [Board.request, onKernel_ok answered] at ran
    cases ran
    exact ⟨rfl, k, lists', rfl, asked⟩

structure Fed (bus : Nat) (t : TaskId) (b b' : Board) (lists lists' : QueueId → List TaskId) :
    Prop where
  rest : ∃ k, b' = { b with kernel := k }
  holds : b'.kernel.Holds lists'
  rearranged : b.kernel.Rearranged b'.kernel
  holder : ∀ m, b'.kernel.holder m = b.kernel.holder m
  result : lists' = if b.kernel.isQueued t then lists
    else Function.update lists (b.feedQueue bus) (lists (b.feedQueue bus) ++ [t])

theorem schedulePoll_fed (holds : b.kernel.Holds lists)
    (bound : b.kernel.isBound (.poll bus) = true) :
    ∃ b' lists', schedulePoll bus b = .ok () b' ∧ Fed bus (.poll bus) b b' lists lists' := by
  obtain ⟨k, lists', added, holds', rearranged, holder, result⟩ :=
    holds.add (b.feedQueue bus) bound
  refine ⟨{ b with kernel := k }, lists', ?_, ⟨k, rfl⟩, holds', rearranged, holder, result⟩
  rw [schedulePoll_eq, added]

theorem wakeHolder_fed {t : TaskId} (holds : b.kernel.Holds lists)
    (held : b.kernel.holder (.bus bus) = some t) (bound : b.kernel.isBound t = true) :
    ∃ b' lists', wakeHolder bus b = .ok () b' ∧ Fed bus t b b' lists lists' := by
  obtain ⟨k, lists', added, holds', rearranged, holder, result⟩ :=
    holds.add (b.feedQueue bus) bound
  refine ⟨{ b with kernel := k }, lists', ?_, ⟨k, rfl⟩, holds', rearranged, holder, result⟩
  rw [wakeHolder_eq, held, Kernel.addOptional, added]

theorem wakeHolder_free (free : b.kernel.holder (.bus bus) = none) :
    wakeHolder bus b = .ok () b := by
  rw [wakeHolder_eq, free]
  rfl

end CoopKernel.Board
