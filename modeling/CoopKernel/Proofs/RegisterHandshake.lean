import CoopKernel.Proofs.PollTaskPlace

/-!
# The handshake on the data register

Every byte is written, looked after until it is through, and read, before the
next one is written. As long as no transfer is started on top of another, this
goes on through yields, from one buffer of a list to the next and from one
transfer to the next.
-/

namespace CoopKernel

open Spi Exec

namespace Spi

inductive Call where
  | write
  | check (ready : Bool)
  | read
deriving DecidableEq, Repr

/-- One byte: it is written, found under way `misses` times, found through, and read. -/
def handshake (misses : Nat) : List Call :=
  .write :: List.replicate misses (.check false) ++ [.check true, .read]

end Spi

def Wire.calls : Wire → List Call
  | tx _ => [.write]
  | checked misses hit =>
    List.replicate misses (.check false) ++ if hit then [.check true] else []
  | rx _ => [.read]

def Wire.callsOf (wires : List Wire) : List Call := wires.flatMap calls

def Kernel.calls (bus : Nat) (k : Kernel) : List Call := Wire.callsOf (k.wires bus)

theorem Wire.callsOf_append (ws ws' : List Wire) :
    Wire.callsOf (ws ++ ws') = Wire.callsOf ws ++ Wire.callsOf ws' := List.flatMap_append

namespace Spi

/-- Every byte written was read. -/
def Settled (log : List Call) : Prop := ∃ misses : List Nat, log = misses.flatMap handshake

/-- One byte is in flight, and every byte before it was read. -/
def Flying (log : List Call) : Prop :=
  ∃ done misses, Settled done ∧ log = done ++ .write :: List.replicate misses (.check false)

variable {log earlier : List Call}

theorem Settled.written (h : Settled log) : Flying (log ++ [.write]) := ⟨log, 0, h, rfl⟩

theorem Flying.missed (h : Flying log) (n : Nat) :
    Flying (log ++ List.replicate n (.check false)) := by
  obtain ⟨done, misses, settled, rfl⟩ := h
  refine ⟨done, misses + n, settled, ?_⟩
  rw [List.append_assoc, List.cons_append, List.replicate_append_replicate]

theorem Flying.landed (h : Flying log) (n : Nat) :
    Settled (log ++ (List.replicate n (.check false) ++ [.check true, .read])) := by
  obtain ⟨_, misses, ⟨counts, rfl⟩, missed⟩ := h.missed n
  refine ⟨counts ++ [misses], ?_⟩
  rw [← List.append_assoc, missed, List.flatMap_append]
  simp [handshake]

/-- What is missing of the last byte may still come. -/
theorem Flying.prefix_of_handshakes (h : Flying log) :
    ∃ misses : List Nat, log <+: misses.flatMap handshake := by
  obtain ⟨counts, settled⟩ := h.landed 0
  exact ⟨counts, settled ▸ List.prefix_append ..⟩

namespace Pass

/-- The calls up to now; `earlier` are those before the run. -/
def calls (earlier : List Call) (p : Pass) : List Call := earlier ++ Wire.callsOf p.wires.reverse

/-- By induction on the bytes to shift: a byte is written after the one before it was read. -/
theorem shift_flying (lanes : Lanes) (n : Nat) {p : Pass} (h : Flying (p.calls earlier)) :
    Flying ((p.shift lanes n).2.calls earlier) := by
  induction n generalizing p with
  | zero => exact h
  | succ n ih =>
    obtain ⟨misses, budget, controller, waited | ⟨byte, received⟩⟩ := p.receive_cases
    · simp only [Pass.shift, waited]
      simpa [calls, Wire.callsOf, Wire.calls] using h.missed misses
    · simp only [Pass.shift, received]
      refine ih ?_
      have written := (h.landed misses).written
      simpa [calls, Wire.callsOf, Wire.calls, keep_eq, step, transmit] using written

theorem run_calls (lanes : Lanes) {p : Pass} (h : Flying (p.calls earlier)) :
    ((p.run lanes).1 = false → Flying ((p.run lanes).2.calls earlier)) ∧
      ((p.run lanes).1 = true → Settled ((p.run lanes).2.calls earlier)) := by
  have shifted := shift_flying lanes (p.remaining - 1) h
  rcases ran : p.shift lanes (p.remaining - 1) with ⟨complete, p'⟩
  rw [ran] at shifted
  simp only [Pass.run, ran]
  cases complete with
  | false => exact ⟨fun _ => shifted, fun done => by cases done⟩
  | true =>
    obtain ⟨misses, budget, controller, waited | ⟨byte, received⟩⟩ := p'.receive_cases
    · simp only [waited]
      refine ⟨fun _ => ?_, fun done => by cases done⟩
      simpa [calls, Wire.callsOf, Wire.calls] using shifted.missed misses
    · simp only [received]
      refine ⟨fun stopped => (by cases stopped), fun _ => ?_⟩
      simpa [calls, Wire.callsOf, Wire.calls, keep_eq] using shifted.landed misses

end Pass

namespace Master

/-- The buffers still listed are those of the active lanes, pair by pair. -/
structure Listed (m : Master) : Prop where
  single : m.lanes.list = false → m.readList = [] ∧ m.writeList = []
  unread : m.lanes.read = false → m.readList = []
  unwritten : m.lanes.write = false → m.writeList = []
  paired : m.lanes.read = true → m.lanes.write = true → m.readList.length = m.writeList.length

/-- The calls made for a master go with what it is in the middle of. -/
structure Shaken (log : List Call) (m : Master) : Prop where
  listed : m.Listed
  done : m.status = .ok → Settled log ∧ m.readList = [] ∧ m.writeList = []
  flying : m.status = .inProgress → m.phase = .poll → Flying log
  between : m.status = .inProgress → m.phase = .reload → Settled log ∧ m.lanes.list = true

variable {m m' : Master} {memory : Memory}

theorem Shaken.others (h : m.Shaken log) (same : m.SameTransfer m') : m'.Shaken log := by
  obtain ⟨⟨single, unread, unwritten, paired⟩, done, flying, between⟩ := h
  refine ⟨⟨?_, ?_, ?_, ?_⟩, ?_, ?_, ?_⟩
  all_goals simp only [same.phase, same.lanes, same.status, same.readList, same.writeList]
  · exact single
  · exact unread
  · exact unwritten
  · exact paired
  · exact done
  · exact flying
  · exact between

/-- The first byte of a buffer was written. -/
theorem Listed.begun (h : m.Listed) (settled : Settled log) (n : Nat) :
    (m.begin n).Shaken (log ++ [.write]) where
  listed := ⟨h.single, h.unread, h.unwritten, h.paired⟩
  done ended := by cases ended
  flying _ _ := settled.written
  between _ reload := by cases reload

theorem listed_of_clean (clean : m.readList = [] ∧ m.writeList = []) : m.Listed := by
  refine ⟨fun _ => clean, fun _ => clean.1, fun _ => clean.2, fun _ _ => ?_⟩
  rw [clean.1, clean.2]
  rfl

theorem shaken_of_done (settled : Settled log) (done : m.status = .ok)
    (clean : m.readList = [] ∧ m.writeList = []) : m.Shaken log := by
  refine ⟨listed_of_clean clean, fun _ => ⟨settled, clean⟩, fun busy => ?_, fun busy => ?_⟩
  · cases done.symm.trans busy
  · cases done.symm.trans busy

/-- A transfer that is started over no other lists its own buffers only. -/
theorem listed_accept {t : Transfer} {first : UInt8} {n : Nat} (accepted : t.fault? = none)
    (clean : m.readList = [] ∧ m.writeList = [])
    (taken : m.accept memory t = (first, n, m')) : m'.Listed := by
  cases t with
  | write data =>
    cases taken
    exact listed_of_clean clean
  | read into =>
    cases taken
    exact listed_of_clean clean
  | exchange data into =>
    cases taken
    exact listed_of_clean clean
  | writeList data =>
    cases taken
    exact ⟨fun off => (by cases off), fun _ => clean.1, fun off => (by cases off),
      fun off => (by cases off)⟩
  | readList into =>
    cases taken
    exact ⟨fun off => (by cases off), fun off => (by cases off), fun _ => clean.2,
      fun _ off => (by cases off)⟩
  | exchangeList data into =>
    cases taken
    refine ⟨fun off => (by cases off), fun off => (by cases off), fun off => (by cases off),
      fun _ _ => ?_⟩
    have lengths := (Transfer.pairs_of_accepted accepted).1
    change into.tail.length = data.tail.length
    rw [List.length_tail, List.length_tail, lengths]

/-- A poll reads the byte in flight before it writes the next one, so the calls stay handshakes at
every stop. -/
theorem Shaken.poll (h : m.Shaken log) (memory : Memory) (busy : m.status = .inProgress)
    (phase : m.phase = .poll) :
    (m.poll memory).master.Shaken (log ++ Wire.callsOf (m.poll memory).wires.reverse) := by
  have flying : Flying ((m.pass memory).calls log) := by
    simpa [Pass.calls, pass, Wire.callsOf] using h.flying busy phase
  obtain ⟨stopped, through⟩ := Pass.run_calls m.lanes flying
  rcases ran : (m.pass memory).run m.lanes with ⟨complete, p⟩
  rw [ran] at stopped through
  obtain ⟨single, unread, unwritten, paired⟩ := h.listed
  simp only [Master.poll, ran]
  cases complete with
  | false =>
    refine ⟨⟨single, unread, unwritten, paired⟩, fun ended => ?_, fun _ _ => stopped rfl,
      fun _ reload => ?_⟩
    · cases busy.symm.trans ended
    · cases phase.symm.trans reload
  | true =>
    have settled := through rfl
    cases list : m.lanes.list with
    | true =>
      refine ⟨⟨single, unread, unwritten, paired⟩, fun ended => ?_, fun _ polling => ?_,
        fun _ _ => ⟨settled, list⟩⟩
      · cases busy.symm.trans ended
      · cases polling
    | false =>
      refine ⟨⟨single, unread, unwritten, paired⟩, fun _ => ⟨settled, single list⟩, fun still => ?_,
        fun still => ?_⟩
      · cases still
      · cases still

theorem Shaken.prefix_of_handshakes (h : m.Shaken log) :
    ∃ misses : List Nat, log <+: misses.flatMap handshake := by
  have settled : ∀ {log}, Settled log → ∃ misses, log <+: List.flatMap handshake misses :=
    fun ⟨misses, whole⟩ => ⟨misses, whole ▸ List.prefix_rfl⟩
  cases status : m.status with
  | ok => exact settled (h.done status).1
  | inProgress =>
    cases phase : m.phase with
    | poll => exact (h.flying status phase).prefix_of_handshakes
    | reload => exact settled (h.between status phase).1

/-- What loading a buffer does to the lists. -/
theorem advance_lists (memory : Memory) (m : Master) :
    (m.advance memory).2.lanes = m.lanes ∧
    ((m.advance memory).1 = none →
      (m.lanes.read = true ∧ m.readList = [] ∧ (m.advance memory).2 = m) ∨
      (m.lanes.write = true ∧ m.writeList = [] ∧ (m.advance memory).2.writeList = [] ∧
        (m.advance memory).2.readList = if m.lanes.read then m.readList.tail else m.readList)) ∧
    ((m.advance memory).1 ≠ none →
      (m.advance memory).2.readList = (if m.lanes.read then m.readList.tail else m.readList) ∧
      (m.advance memory).2.writeList =
        if m.lanes.write then m.writeList.tail else m.writeList) := by
  obtain ⟨controller, budget, phase, ⟨write, read, list⟩, status, remaining, into, data, readList,
    writeList, polls, yields⟩ := m
  cases read <;> cases write <;> cases readList <;> cases writeList <;> simp [advance, aim]

/-- When a list has run out, so has the other. -/
theorem Listed.ended (h : m.Listed) (memory : Memory) (ended : (m.advance memory).1 = none) :
    (m.advance memory).2.readList = [] ∧ (m.advance memory).2.writeList = [] := by
  obtain ⟨-, out, -⟩ := advance_lists memory m
  rcases out ended with ⟨reads, none_left, same⟩ | ⟨writes, none_left, empty, rest⟩
  · rw [same]
    refine ⟨none_left, ?_⟩
    cases writes : m.lanes.write with
    | false => exact h.unwritten writes
    | true =>
      have lengths := h.paired reads writes
      rw [none_left] at lengths
      exact List.length_eq_zero_iff.mp lengths.symm
  · refine ⟨?_, empty⟩
    rw [rest]
    cases reads : m.lanes.read with
    | false => exact h.unread reads
    | true =>
      have lengths := h.paired reads writes
      rw [none_left] at lengths
      rw [if_pos rfl, List.length_eq_zero_iff.mp lengths]
      rfl

/-- Loading a buffer takes one off the list of every active lane. -/
theorem Listed.loaded (h : m.Listed) (memory : Memory) (listed : m.lanes.list = true)
    (loaded : (m.advance memory).1 ≠ none) : (m.advance memory).2.Listed := by
  obtain ⟨lanes, -, rest⟩ := advance_lists memory m
  obtain ⟨reads, writes⟩ := rest loaded
  constructor
  all_goals rw [lanes]
  case single =>
    intro off
    rw [listed] at off
    cases off
  case unread =>
    intro off
    rw [reads, off, if_neg Bool.false_ne_true]
    exact h.unread off
  case unwritten =>
    intro off
    rw [writes, off, if_neg Bool.false_ne_true]
    exact h.unwritten off
  case paired =>
    intro reading writing
    rw [reads, writes, if_pos reading, if_pos writing, List.length_tail, List.length_tail,
      h.paired reading writing]

end Master

end Spi

namespace Kernel

theorem wires_add (q : QueueId) (t : TaskId) (bus : Nat) (k : Kernel) :
    (final (add q t) k).wires bus = k.wires bus := by
  rcases k.relinked_add q t with ⟨k', appended, events, added, relinked, queued⟩ | refused
  · rw [final_ok added]
    exact wires_of_trace relinked.trace fun e mem => by rw [queued e mem]; rfl
  · rw [final_error refused]

theorem wires_addOptional (q : QueueId) (t : Option TaskId) (bus : Nat) (k : Kernel) :
    (final (addOptional q t) k).wires bus = k.wires bus := by
  cases t with
  | none => rfl
  | some t => exact wires_add q t bus k

end Kernel

namespace Board

/-- The calls on a bus go with what its master is in the middle of. -/
def Shaken (bus : Nat) (b : Board) : Prop := (b.masters.get bus).Shaken (b.kernel.calls bus)

variable {b b₁ b' : Board} {bus : Nat}

theorem Shaken.same (h : Shaken bus b)
    (transfer : (b.masters.get bus).SameTransfer (b'.masters.get bus))
    (wires : b'.kernel.wires bus = b.kernel.wires bus) : Shaken bus b' := by
  rw [Shaken, Kernel.calls, wires]
  exact Master.Shaken.others h transfer

theorem Shaken.schedule (h : Shaken bus b) : Shaken bus (final (schedulePoll bus) b) := by
  rw [final_schedulePoll]
  exact h.same (.refl _) (Kernel.wires_add ..)

theorem Shaken.wake (h : Shaken bus b) : Shaken bus (final (wakeHolder bus) b) := by
  rw [final_wakeHolder]
  exact h.same (.refl _) (Kernel.wires_addOptional ..)

/-- The first byte of a buffer is written when all bytes before it were read. -/
theorem shaken_prime {m : Master} (listed : m.Listed) (settled : Settled (b.kernel.calls bus))
    (first : UInt8) (n : Nat) :
    Shaken bus (prime bus first n { b with masters := b.masters.set bus m }) := by
  have begun := listed.begun settled n
  rw [Shaken, Kernel.calls, wires_prime, masters_prime, Wire.callsOf_append, Bank.get_set_same]
  exact begun.others (by constructor <;> rfl)

theorem Shaken.start (h : Shaken bus b) (ready : (b.masters.get bus).status = .ok) (t : Transfer) :
    Shaken bus (final (start bus t) b) := by
  cases accepted : t.fault? with
  | some cause =>
    rw [final_error (start_refused accepted)]
    exact h
  | none =>
    rcases taken : (b.masters.get bus).accept b.memory t with ⟨first, n, m⟩
    obtain ⟨settled, clean⟩ := h.done ready
    rw [final, start_accepted accepted taken]
    exact (shaken_prime (Master.listed_accept accepted clean taken) settled first n).schedule

theorem shaken_polled (h : Shaken bus b) (busy : (b.masters.get bus).status = .inProgress)
    (phase : (b.masters.get bus).phase = .poll) : Shaken bus (b.polled bus) := by
  have polled := Master.Shaken.poll h b.memory busy phase
  rw [Shaken, masters_polled, Kernel.calls]
  rw [show (b.polled bus).kernel.wires bus = _ from Kernel.wires_traffic bus _,
    Wire.callsOf_append]
  exact polled

/-- A run of the poll task takes the calls on, from one buffer to the next and to the end of the
list. -/
theorem Shaken.run (h : Shaken bus b) (busy : (b.masters.get bus).status = .inProgress) :
    Shaken bus (final (runPoller bus) b) := by
  rw [final]
  cases pollerRun bus b with
  | polling phase _ ran =>
    rw [ran]
    exact (shaken_polled h busy phase).schedule
  | polled phase _ ran =>
    rw [ran]
    exact (shaken_polled h busy phase).wake
  | @loaded first n m phase advanced ran =>
    rw [ran]
    obtain ⟨settled, list⟩ := h.between busy phase
    have listed := h.listed.loaded b.memory list
    rw [advanced] at listed
    have listed := listed (Option.some_ne_none _)
    exact (shaken_prime listed settled first n).schedule
  | @ended m phase advanced ran =>
    rw [ran]
    obtain ⟨settled, list⟩ := h.between busy phase
    have clean := h.listed.ended b.memory (congrArg Prod.fst advanced)
    rw [advanced] at clean
    have master : (modifyMaster bus Master.finish
        { b with masters := b.masters.set bus m }).masters.get bus = m.finish := by
      simp [modifyMaster, Bank.get_modify]
    refine Shaken.wake ?_
    rw [Shaken, master]
    exact Master.shaken_of_done settled rfl clean

def IsFree (bus : Nat) (b : Board) : Prop := (b.masters.get bus).status = .ok

theorem Shaken.step (h : Shaken bus b) (driven : Driven bus b)
    (deed : Deed bus (IsFree bus) b b') : Shaken bus b' := by
  cases driven.outcome deed with
  | spared spared => exact h.same spared.transfer spared.kernel.wires
  | started t spared free same =>
    rw [same]
    exact (h.same spared.transfer spared.kernel.wires).start (spared.transfer.status.trans free) t
  | polled popped same =>
    rw [same]
    have before : Shaken bus _ := h.same (popped.masters ▸ .refl _) popped.wires
    exact before.run (popped.masters ▸ popped.busy)

theorem shaken_boot (p : Plan) (bus : Nat) : Shaken bus p.bootBoard := by
  obtain ⟨controller, budget, master⟩ := master_boot p bus
  rw [Shaken, master]
  exact Master.shaken_of_done ⟨[], rfl⟩ rfl ⟨rfl, rfl⟩

/-- As long as a transfer is only started when none is in progress, the calls on a bus are at every
moment the beginning of whole handshakes. They are whole handshakes, with no buffer left over, when
no transfer is in progress. -/
theorem calls_are_handshakes (p : Plan) (bus : Nat)
    (reached : Deeds bus (IsFree bus) p.bootBoard b) :
    (∀ seen, seen <+: b.kernel.calls bus → ∃ misses : List Nat, seen <+: misses.flatMap handshake) ∧
    ((b.masters.get bus).status = .ok →
      (∃ misses : List Nat, b.kernel.calls bus = misses.flatMap handshake) ∧
      (b.masters.get bus).readList = [] ∧ (b.masters.get bus).writeList = []) := by
  have shaken : Shaken bus b ∧ Driven bus b := by
    induction reached with
    | refl => exact ⟨shaken_boot p bus, driven_boot p bus⟩
    | tail _ deed ih => exact ⟨ih.1.step ih.2 deed, ih.2.step deed⟩
  obtain ⟨shaken, -⟩ := shaken
  refine ⟨fun seen begun => ?_, shaken.done⟩
  obtain ⟨misses, whole⟩ := Master.Shaken.prefix_of_handshakes shaken
  exact ⟨misses, begun.trans whole⟩

/-- Turns may follow at any time. -/
theorem deeds_turns {ready : Board → Prop} (reached : Deeds bus ready b b') (i n : Nat) :
    Deeds bus ready b ((fun b => final (Board.turn i) b)^[n] b') := by
  induction n generalizing b' with
  | zero => exact reached
  | succ n ih => exact ih (reached.tail (.turn i))

/-- Two buffers of a list and then another transfer, with a budget of one look: every run of the
poll task that finds the flag clear yields. -/
theorem list_and_next_transfer_shake_hands :
    let p : Plan := { buses := [{
      budget := ⟨1, by decide⟩
      hardware := .scripted (Controller.cycle #[false, true]) [] }] }
    let turns (n : Nat) (b : Board) : Board := (fun b => final (Board.turn 0) b)^[n] b
    let listed := turns 6 (final (Operation.start 0 (.writeList [[0x11], [0x22]])).run p.bootBoard)
    let b := turns 2 (final (Operation.start 0 (.write (.bytes [0x55]))).run listed)
    let begun : List Call := [.write, .check false, .check true, .read, .write]
    (∃ misses : List Nat, b.kernel.calls 0 = misses.flatMap handshake) ∧
      (b.masters.get 0).writeList = [] ∧ (b.masters.get 0).yields = 3 ∧
      begun <+: b.kernel.calls 0 ∧ ∃ misses : List Nat, begun <+: misses.flatMap handshake := by
  intro p turns listed b begun
  have free : (p.bootBoard.masters.get 0).status = .ok := by decide +kernel
  have started : Deeds 0 (IsFree 0) p.bootBoard
      (final (Operation.start 0 (.writeList [[0x11], [0x22]])).run p.bootBoard) :=
    .single (.operation (.start 0 (.writeList [[0x11], [0x22]])) trivial fun _ => free)
  have written : (listed.masters.get 0).status = .ok := by decide +kernel
  have again : Deeds 0 (IsFree 0) p.bootBoard
      (final (Operation.start 0 (.write (.bytes [0x55]))).run listed) :=
    (deeds_turns started 0 6).tail
      (.operation (.start 0 (.write (.bytes [0x55]))) trivial fun _ => written)
  have done : (b.masters.get 0).status = .ok := by decide +kernel
  obtain ⟨prefixes, whole⟩ := calls_are_handshakes p 0 (deeds_turns again 0 2)
  obtain ⟨handshakes, -, written_all⟩ := whole done
  have front : begun <+: b.kernel.calls 0 := by decide +kernel
  exact ⟨handshakes, written_all, by decide +kernel, front, prefixes begun front⟩

end Board

end CoopKernel
