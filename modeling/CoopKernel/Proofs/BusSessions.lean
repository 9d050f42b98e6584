import CoopKernel.Proofs.BusClients

/-!
# The record of sessions

What each move makes of the sessions: who has the bus, what is left of its
script, who is still to come, and which runs and transfers there were. Of the
board only the holder of the bus and the clients that wait matter here.
-/

namespace CoopKernel

open Spi

variable {b : Board} {bus : Nat} {kept : Nat → Prop} {start : Memory} {t : Transfer}
variable {old : List Wire}

theorem Board.Served.carried (h : Board.Served kept start t.beats old bus b)
    (accepted : t.fault? = none) :
    ∃ part, b.kernel.wires bus = old ++ part ∧ t.Carried start part := by
  obtain ⟨part, split, finished⟩ := h
  obtain ⟨received, sent, -⟩ := finished.complete.complete
  refine ⟨part, split, received, sent, fun full separate => ?_⟩
  rw [sent]
  exact t.clocked_outgoing start _ accepted full separate

theorem Board.Serving.begun (h : Board.Serving kept start t.beats old bus b)
    (accepted : t.fault? = none) :
    ∃ part, b.kernel.wires bus = old ++ part ∧ t.Begun start part := by
  obtain ⟨part, split, going⟩ := h
  refine ⟨part, split, going.underway.so_far, fun full separate => ?_⟩
  rw [← t.clocked_outgoing start (Wire.received part) accepted full separate]
  exact going.underway.so_far

theorem traffic_nil : Traffic [] [] := ⟨[], rfl, .nil⟩

theorem Traffic.snoc {started : List Started} {wires part : List Wire} {s : Started}
    (h : Traffic started wires) (carried : s.transfer.Carried s.memory part) :
    Traffic (started ++ [s]) (wires ++ part) := by
  obtain ⟨parts, rfl, each⟩ := h
  refine ⟨parts ++ [part], by simp, ?_⟩
  exact List.rel_append each (.cons carried .nil)

namespace BusWorld

variable {w : BusWorld} {finished queue : List Session} {s : Session} {begun : List Transfer}

/-- Neither the client whose session is open nor a poll task waits. -/
theorem Taken.not_waiting (taken : w.Taken bus finished s begun queue) :
    s.task ∉ w.waiting bus ∧ ∀ p, .poll p ∉ w.waiting bus := by
  rw [taken.waiting]
  constructor
  · intro mem
    obtain ⟨other, inside, same⟩ := List.mem_map.mp mem
    exact (taken.intact other inside).1 (TaskId.user.inj same)
  · intro p mem
    obtain ⟨other, inside, same⟩ := List.mem_map.mp mem
    cases same

/-- A free bus goes to the client that asks. -/
theorem Free.accepted (free : w.Free bus) {i : Nat} (script : List Transfer)
    (holder : b.kernel.holder (.bus bus) = some (.user i))
    (waiting : b.kernel.chain (.waiting (.bus bus)) = w.waiting bus) :
    (w.accepted i script b).Taken bus w.sessions ⟨i, script⟩ [] [] where
  holder := holder
  sessions := rfl
  script := (if_pos rfl).symm
  waiting := waiting.trans free.waiting
  intact other mem := by cases mem
  started := free.started.trans (List.append_nil _).symm
  ran := free.ran.trans (List.append_nil _).symm

/-- A client that asks while the bus is taken waits behind all others. -/
theorem Taken.accepted (taken : w.Taken bus finished s begun queue) {i : Nat}
    (script : List Transfer) (other : s.client ≠ i) (new : .user i ∉ w.waiting bus)
    (holder : b.kernel.holder (.bus bus) = w.holder bus)
    (waiting : b.kernel.chain (.waiting (.bus bus)) = w.waiting bus ++ [.user i]) :
    (w.accepted i script b).Taken bus finished s begun (queue ++ [⟨i, script⟩]) := by
  have left : ∀ j, j ≠ i → (w.accepted i script b).left j = w.left j := fun j ne => if_neg ne
  refine ⟨holder.trans taken.holder, ?_, ?_, ?_, ?_, taken.started, taken.ran⟩
  · change w.sessions ++ _ = _
    rw [taken.sessions, List.append_assoc, List.cons_append]
  · rw [left s.client other]
    exact taken.script
  · rw [List.map_append, ← taken.waiting]
    exact waiting
  · intro r mem
    rcases List.mem_append.mp mem with before | last
    · have ne : r.client ≠ i := by
        rintro rfl
        refine new ?_
        rw [taken.waiting]
        exact List.mem_map.mpr ⟨r, before, rfl⟩
      rw [left r.client ne]
      exact taken.intact r before
    · rw [List.mem_singleton.mp last]
      exact ⟨other.symm, if_pos rfl⟩

theorem Taken.started_next (taken : w.Taken bus finished s begun queue) {t : Transfer}
    {rest : List Transfer} (next : w.left s.client = t :: rest)
    (holder : b.kernel.holder (.bus bus) = w.holder bus)
    (waiting : b.kernel.chain (.waiting (.bus bus)) = w.waiting bus) :
    (w.begun s.client t rest b).Taken bus finished s (begun ++ [t]) queue := by
  have left : ∀ j, j ≠ s.client → (w.begun s.client t rest b).left j = w.left j :=
    fun j ne => if_neg ne
  refine ⟨holder.trans taken.holder, taken.sessions, ?_, waiting.trans taken.waiting,
    fun other mem => ?_, ?_, ?_⟩
  · rw [taken.script, next, List.append_assoc]
    exact congrArg _ (congrArg _ (if_pos rfl).symm)
  · obtain ⟨ne, same⟩ := taken.intact other mem
    exact ⟨ne, (left _ ne).trans same⟩
  · change List.map _ (w.started ++ [_]) = _
    rw [List.map_append, taken.started, List.append_assoc, List.map_append]
    rfl
  · change w.ran ++ [_] = _
    rw [taken.ran, List.append_assoc, List.length_append, List.length_singleton,
      List.replicate_succ']

/-- The holder keeps the bus while its transfer goes on or ends. -/
theorem Taken.polled (taken : w.Taken bus finished s begun queue)
    (holder : b.kernel.holder (.bus bus) = w.holder bus)
    (waiting : b.kernel.chain (.waiting (.bus bus)) = w.waiting bus) :
    ({ w with board := b, hand := none } : BusWorld).Taken bus finished s begun queue :=
  ⟨holder.trans taken.holder, taken.sessions, taken.script, waiting.trans taken.waiting,
    taken.intact, taken.started, taken.ran⟩

/-- A session is over once its script is. -/
theorem Taken.whole (taken : w.Taken bus finished s begun queue) (spent : w.left s.client = [])
    (b : Board) :
    (w.ended s.client b).started.map Started.step = (finished ++ [s]).flatMap Session.steps ∧
      (w.ended s.client b).ran = (finished ++ [s]).flatMap Session.runs := by
  have script : s.script = begun := by
    rw [taken.script, spent, List.append_nil]
  constructor
  · change w.started.map Started.step = _
    rw [taken.started, ← script]
    simp [Session.steps]
  · change w.ran ++ [_] = _
    rw [taken.ran, ← script]
    simp [Session.runs, List.replicate_succ']

theorem Taken.ended_last (taken : w.Taken bus finished s begun [])
    (spent : w.left s.client = []) (idle : (b.masters.get bus).status ≠ .inProgress)
    (holder : b.kernel.holder (.bus bus) = none)
    (waiting : b.kernel.chain (.waiting (.bus bus)) = []) : (w.ended s.client b).Free bus := by
  obtain ⟨started, ran⟩ := taken.whole spent b
  rw [← taken.sessions] at started ran
  exact ⟨holder, waiting, decide_eq_false idle, started, ran⟩

theorem Taken.ended_next {next : Session} (taken : w.Taken bus finished s begun (next :: queue))
    (spent : w.left s.client = []) (nodup : (w.waiting bus).Nodup)
    (holder : b.kernel.holder (.bus bus) = some next.task)
    (waiting : b.kernel.chain (.waiting (.bus bus)) = queue.map Session.task) :
    (w.ended s.client b).Taken bus (finished ++ [s]) next [] queue := by
  obtain ⟨started, ran⟩ := taken.whole spent b
  refine ⟨holder, ?_, ?_, waiting, fun r mem => ?_, ?_, ?_⟩
  · refine taken.sessions.trans ?_
    rw [List.append_assoc, List.singleton_append]
  · exact (taken.intact next List.mem_cons_self).2.symm
  · rw [taken.waiting, List.map_cons] at nodup
    refine ⟨fun same => ?_, (taken.intact r (List.mem_cons_of_mem _ mem)).2⟩
    refine (List.nodup_cons.mp nodup).1 (List.mem_map.mpr ⟨r, mem, ?_⟩)
    rw [Session.task, same, Session.task]
  · exact started.trans (List.append_nil _).symm
  · exact ran.trans (List.append_nil _).symm

end BusWorld

end CoopKernel
