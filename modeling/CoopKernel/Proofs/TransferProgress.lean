import CoopKernel.Proofs.BusRun

/-!
# Progress of a transfer on its bus

Between the start of a transfer and its end, runs of the poll task alternate
with whatever else the main queue holds. A run of the poll task either leaves
the transfer in progress, with itself queued last, or ends it, with the holder
of the bus queued last. Nobody else moves the transfer.
-/

namespace CoopKernel.Board

open Spi

/-- Whoever ran in between left the transfer alone: its registers, the cells that are kept for
it and the wire. -/
structure Apart (kept : Nat → Prop) (bus : Nat) (b b' : Board) : Prop where
  transfer : (b.masters.get bus).SameTransfer (b'.masters.get bus)
  cells : ∀ a, kept a → b'.memory.get a = b.memory.get a
  wires : b'.kernel.wires bus = b.kernel.wires bus

/-- The transfer is in progress; `old` is the traffic before it. -/
def Serving (kept : Nat → Prop) (start : Memory) (plan : List Beat) (old : List Wire) (bus : Nat)
    (b : Board) : Prop :=
  ∃ wires, b.kernel.wires bus = old ++ wires ∧
    (b.masters.get bus).InProgress kept start plan wires b.memory

def Served (kept : Nat → Prop) (start : Memory) (plan : List Beat) (old : List Wire) (bus : Nat)
    (b : Board) : Prop :=
  ∃ wires, b.kernel.wires bus = old ++ wires ∧
    (b.masters.get bus).Finished kept start plan wires b.memory

/-- Everything but the links of the queues and the event log stays, apart from workers bound. -/
structure Steady (b b' : Board) : Prop where
  holds : ∀ lists, b.kernel.Holds lists → b'.kernel.Holds lists
  bound : ∀ t, b.kernel.isBound t = true → b'.kernel.isBound t = true
  nests : b'.kernel.nests = b.kernel.nests

/-- At most a task was put in a queue. -/
def Requeued (b b' : Board) : Prop :=
  ∃ k events, b' = { b with kernel := k } ∧ b.kernel.Relinked k events ∧
    ∀ e ∈ events, ∃ q t, e = .enqueued q t

variable {b b' : Board} {bus : Nat}
variable {kept : Nat → Prop} {start : Memory} {plan : List Beat} {old : List Wire}

theorem Steady.feeds (h : Steady b b') (bus : Nat) : b'.feedQueue bus = b.feedQueue bus := by
  rw [feedQueue, Kernel.feeds, h.nests]
  rfl

theorem Steady.holder (h : Steady b b') (n : NestId) : b'.kernel.holder n = b.kernel.holder n := by
  rw [Kernel.holder, h.nests, Kernel.holder]

theorem schedulePoll_bound (bound : b.kernel.isBound (.poll bus) = true) :
    ∃ b', schedulePoll bus b = .ok () b' := by
  rw [schedulePoll_eq]
  rcases b.kernel.relinked_add (b.feedQueue bus) (.poll bus) with
    ⟨k, appended, events, added, -, -⟩ | refused
  · exact ⟨_, by rw [added]⟩
  · rw [Kernel.add, if_pos bound] at refused
    cases refused

theorem requeued_schedulePoll (ran : schedulePoll bus b = .ok () b') : Requeued b b' := by
  rw [schedulePoll_eq] at ran
  rcases b.kernel.relinked_add (b.feedQueue bus) (.poll bus) with
    ⟨k, appended, events, added, relinked, queued⟩ | refused
  · rw [added] at ran
    cases ran
    exact ⟨k, events, rfl, relinked, fun e mem => ⟨_, _, queued e mem⟩⟩
  · rw [refused] at ran
    cases ran

theorem requeued_wakeHolder (ran : wakeHolder bus b = .ok () b') : Requeued b b' := by
  rw [wakeHolder_eq] at ran
  cases held : b.kernel.holder (.bus bus) with
  | none =>
    rw [held] at ran
    cases ran
    exact ⟨b.kernel, [], rfl, .refl, fun e mem => by cases mem⟩
  | some h =>
    rw [held, Kernel.addOptional] at ran
    rcases b.kernel.relinked_add (b.feedQueue bus) h with
      ⟨k, appended, events, added, relinked, queued⟩ | refused
    · rw [added] at ran
      cases ran
      exact ⟨k, events, rfl, relinked, fun e mem => ⟨_, _, queued e mem⟩⟩
    · rw [refused] at ran
      cases ran

theorem Requeued.memory (h : Requeued b b') : b'.memory = b.memory := by
  obtain ⟨k, events, rfl, -⟩ := h
  rfl

theorem Requeued.apart (kept : Nat → Prop) (bus : Nat) (h : Requeued b b') :
    Apart kept bus b b' := by
  obtain ⟨k, events, rfl, relinked, queued⟩ := h
  refine ⟨.refl _, fun _ _ => rfl, Kernel.wires_of_trace relinked.trace fun e mem => ?_⟩
  obtain ⟨q, t, rfl⟩ := queued e mem
  rfl

theorem apart_schedulePoll (kept : Nat → Prop) (ran : schedulePoll bus b = .ok () b') :
    Apart kept bus b b' := (requeued_schedulePoll ran).apart kept bus

theorem apart_wakeHolder (kept : Nat → Prop) (ran : wakeHolder bus b = .ok () b') :
    Apart kept bus b b' := (requeued_wakeHolder ran).apart kept bus

theorem Serving.apart (h : Serving kept start plan old bus b) (apart : Apart kept bus b b') :
    Serving kept start plan old bus b' := by
  obtain ⟨wires, split, going⟩ := h
  exact ⟨wires, apart.wires.trans split, going.others apart.transfer apart.cells⟩

theorem Served.apart (h : Served kept start plan old bus b) (apart : Apart kept bus b b') :
    Served kept start plan old bus b' := by
  obtain ⟨wires, split, done⟩ := h
  exact ⟨wires, apart.wires.trans split, done.others apart.transfer apart.cells⟩

/-- A buffer was loaded and its first byte sent. -/
theorem Serving.prime {m : Master} {first : UInt8} {n : Nat} {wires : List Wire}
    (split : b.kernel.wires bus = old ++ wires)
    (loaded : (m.begin n).InProgress kept start plan (wires ++ [.tx first]) b.memory) :
    Serving kept start plan old bus
      (Board.prime bus first n { b with masters := b.masters.set bus m }) := by
  refine ⟨wires ++ [.tx first], ?_, ?_⟩
  · rw [wires_prime]
    change b.kernel.wires bus ++ _ = _
    rw [split, List.append_assoc]
  · rw [masters_prime, memory_prime, Bank.get_set_same]
    exact loaded.others (by constructor <;> rfl) fun _ _ => rfl

theorem Steady.prime (bus : Nat) (first : UInt8) (n : Nat) (m : Master) :
    Steady b (Board.prime bus first n { b with masters := b.masters.set bus m }) where
  holds lists h := (h.putWorker (.poll bus) (.poller bus)).congr rfl rfl
  bound t h := by
    change (b.kernel.putWorker (.poll bus) (.poller bus)).isBound t = true
    rw [Kernel.isBound_putWorker, h, Bool.or_true]
  nests := by
    change (b.kernel.putWorker (.poll bus) (.poller bus)).nests = _
    rw [Kernel.putWorker, Kernel.expose]
    split <;> rfl

/-- An accepted transfer is started: its first byte is out and its poll task is queued last. -/
theorem start_serving (bus : Nat) (b : Board) {t : Transfer} (accepted : t.fault? = none)
    (covers : Covers kept t.beats) :
    ∃ b₁, Board.start bus t b = schedulePoll bus b₁ ∧ Steady b b₁ ∧
      b₁.kernel.isBound (.poll bus) = true ∧
      Serving kept b.memory t.beats (b.kernel.wires bus) bus b₁ := by
  obtain ⟨first, n, m, taken, going⟩ :=
    Master.accept_inProgress b.memory (b.masters.get bus) accepted covers
  have sent : (m.begin n).InProgress kept b.memory t.beats ([] ++ [.tx first]) b.memory := going
  refine ⟨_, start_accepted accepted taken, .prime bus first n m, poll_bound_prime first n,
    .prime ?_ sent⟩
  rw [List.append_nil]

theorem Steady.finish (m : Master) :
    Steady b (modifyMaster bus Master.finish { b with masters := b.masters.set bus m }) :=
  ⟨fun _ h => h.congr rfl rfl, fun _ h => h, rfl⟩

theorem Steady.polled (bus : Nat) (b : Board) : Steady b (b.polled bus) :=
  ⟨fun _ h => h.congr rfl rfl, fun _ h => h, rfl⟩

/-- A run of the poll task either leaves the transfer in progress and queues itself, or ends
the transfer and queues the holder. -/
theorem Serving.runPoller (h : Serving kept start plan old bus b) (covers : Covers kept plan) :
    (∃ b₁, runPoller bus b = schedulePoll bus b₁ ∧ Steady b b₁ ∧
      Serving kept start plan old bus b₁) ∨
    ∃ b₁, runPoller bus b = wakeHolder bus b₁ ∧ Steady b b₁ ∧
      Served kept start plan old bus b₁ := by
  obtain ⟨wires, split, going⟩ := h
  have traffic : (b.polled bus).kernel.wires bus =
      old ++ (wires ++ ((b.masters.get bus).poll b.memory).wires.reverse) := by
    rw [← List.append_assoc, ← split]
    exact Kernel.wires_traffic bus _
  cases pollerRun bus b with
  | polling phase yielded ran =>
    refine Or.inl ⟨_, ran, .polled bus b, _, traffic, ?_⟩
    rw [masters_polled]
    exact (going.poll covers phase).1 yielded
  | polled phase ending ran =>
    refine Or.inr ⟨_, ran, .polled bus b, _, traffic, ?_⟩
    rw [masters_polled]
    exact (going.poll covers phase).2 ending
  | @loaded first n m phase advanced ran =>
    rcases going.reload covers phase with ⟨m', ended, -⟩ | ⟨first', n', m', loaded, next⟩
    · cases advanced.symm.trans ended
    · cases advanced.symm.trans loaded
      exact Or.inl ⟨_, ran, .prime bus first n m, .prime split next⟩
  | @ended m phase advanced ran =>
    rcases going.reload covers phase with ⟨m', ended, finished⟩ | ⟨first', n', m', loaded, -⟩
    · cases advanced.symm.trans ended
      refine Or.inr ⟨_, ran, .finish m, wires, split, ?_⟩
      simpa [modifyMaster, Bank.get_modify] using finished
    · cases advanced.symm.trans loaded

/-- Whatever the master is in the middle of: a run of the poll task queues itself and leaves the
status, or ends a transfer and queues the holder. -/
theorem runPoller_cases (bus : Nat) (b : Board) :
    (∃ b₁, Board.runPoller bus b = schedulePoll bus b₁ ∧ Steady b b₁ ∧
      ((b₁.masters.get bus).status = .inProgress ∨
        (b₁.masters.get bus).status = (b.masters.get bus).status)) ∨
    ∃ b₁, Board.runPoller bus b = wakeHolder bus b₁ ∧ Steady b b₁ ∧
      (b₁.masters.get bus).status = .ok := by
  cases pollerRun bus b with
  | polling _ yielded ran =>
    refine Or.inl ⟨_, ran, .polled bus b, Or.inr ?_⟩
    rw [masters_polled]
    exact Master.status_of_going yielded
  | polled _ ending ran =>
    refine Or.inr ⟨_, ran, .polled bus b, ?_⟩
    rw [masters_polled]
    exact Master.status_of_done ending
  | @loaded first n m _ _ ran =>
    refine Or.inl ⟨_, ran, .prime bus first n m, Or.inl ?_⟩
    rw [masters_prime]
    rfl
  | @ended m _ _ ran =>
    refine Or.inr ⟨_, ran, .finish m, ?_⟩
    simp [modifyMaster, Bank.get_modify, Master.finish]

/-- A run of the poll task stores in the cells of the transfer only. -/
theorem Serving.frame (h : Serving kept start plan old bus b)
    (ran : Board.runPoller bus b = .ok () b') {a : Nat}
    (miss : ∀ beat ∈ plan, beat.into ≠ some a) : b'.memory.get a = b.memory.get a := by
  obtain ⟨wires, split, going⟩ := h
  cases pollerRun bus b with
  | polling phase _ same =>
    rw [(requeued_schedulePoll (same.symm.trans ran)).memory]
    exact going.poll_frame phase miss
  | polled phase _ same =>
    rw [(requeued_wakeHolder (same.symm.trans ran)).memory]
    exact going.poll_frame phase miss
  | loaded _ _ same =>
    rw [(requeued_schedulePoll (same.symm.trans ran)).memory]
    rfl
  | ended _ _ same =>
    rw [(requeued_wakeHolder (same.symm.trans ran)).memory]
    rfl

end CoopKernel.Board
