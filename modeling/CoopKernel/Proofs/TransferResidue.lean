import CoopKernel.Proofs.BufferCosts
import CoopKernel.Proofs.RegisterHandshake

/-!
# The residue of a transfer

A run of the poll task counts the bytes of the buffer down in a variable of its
own. The residue that a bus shows is stored when a buffer is loaded, when a run
yields and when the transfer ends, and is then the number of bytes that are still
to come in. A run that gets the last byte of a buffer of a list stores nothing:
until the next run the residue stays what it was when that run began.
-/

namespace CoopKernel

open Spi Exec

namespace Wire

def countSent (wires : List Wire) : Nat := (sent wires).length

def countReceived (wires : List Wire) : Nat := (received wires).length

theorem countSent_append (ws more : List Wire) :
    countSent (ws ++ more) = countSent ws + countSent more := by
  simp [countSent, sent]

theorem countReceived_append (ws more : List Wire) :
    countReceived (ws ++ more) = countReceived ws + countReceived more := by
  simp [countReceived, received]

theorem countSent_reverse (ws : List Wire) : countSent ws.reverse = countSent ws := by
  simp [countSent, sent]

theorem countReceived_reverse (ws : List Wire) : countReceived ws.reverse = countReceived ws := by
  simp [countReceived, received]

@[simp] theorem countSent_tx (byte : UInt8) (ws : List Wire) :
    countSent (.tx byte :: ws) = countSent ws + 1 := rfl

@[simp] theorem countSent_rx (byte : UInt8) (ws : List Wire) :
    countSent (.rx byte :: ws) = countSent ws := rfl

@[simp] theorem countSent_checked (misses : Nat) (hit : Bool) (ws : List Wire) :
    countSent (.checked misses hit :: ws) = countSent ws := rfl

@[simp] theorem countReceived_tx (byte : UInt8) (ws : List Wire) :
    countReceived (.tx byte :: ws) = countReceived ws := rfl

@[simp] theorem countReceived_rx (byte : UInt8) (ws : List Wire) :
    countReceived (.rx byte :: ws) = countReceived ws + 1 := rfl

@[simp] theorem countReceived_checked (misses : Nat) (hit : Bool) (ws : List Wire) :
    countReceived (.checked misses hit :: ws) = countReceived ws := rfl

end Wire

namespace Spi

/-- The length of the buffer that the last byte sent is for, and the bytes that came in for it. The
first byte of an empty buffer is none of its own. -/
def current : List Nat → Nat → Nat → Nat × Nat
  | [], _, _ => (0, 0)
  | n :: lengths, sent, received =>
    if sent ≤ max n 1 then (n, received)
    else current lengths (sent - max n 1) (received - max n 1)

/-- The length of the current buffer, by the traffic since the transfer was started. -/
def currentLength (lengths : List Nat) (wires : List Wire) : Nat :=
  (current lengths (Wire.countSent wires) (Wire.countReceived wires)).1

def outstanding (lengths : List Nat) (wires : List Wire) : Nat :=
  currentLength lengths wires -
    (current lengths (Wire.countSent wires) (Wire.countReceived wires)).2

/-- The bytes on the wire that buffers of such lengths take. -/
def through (lengths : List Nat) : Nat := (lengths.map (max · 1)).sum

theorem current_eq (done : List Nat) (n : Nat) (rest : List Nat) {s r : Nat} (some : 0 < s)
    (within : s ≤ max n 1) :
    current (done ++ n :: rest) (through done + s) (through done + r) = (n, r) := by
  induction done with
  | nil => simp [current, through, within]
  | cons d done ih =>
    have more : ¬ through (d :: done) + s ≤ max d 1 := by
      rw [through, List.map_cons, List.sum_cons]
      omega
    have shift : ∀ k, through (d :: done) + k - max d 1 = through done + k := by
      intro k
      rw [through, List.map_cons, List.sum_cons, ← through]
      omega
    rw [List.cons_append, current, if_neg more, shift, shift, ih]

theorem through_concat (done : List Nat) (n : Nat) :
    through (done ++ [n]) = through done + max n 1 := by
  simp [through]

namespace Pass

/-- By induction on the bytes to shift: for each byte that comes in one is sent. -/
theorem shift_counts (lanes : Lanes) (n : Nat) (p : Pass) :
    ∃ k, Wire.countSent (p.shift lanes n).2.wires = Wire.countSent p.wires + k ∧
      Wire.countReceived (p.shift lanes n).2.wires = Wire.countReceived p.wires + k ∧
      (p.shift lanes n).2.remaining = p.remaining - k ∧
      ((p.shift lanes n).1 = true → k = n) ∧ ((p.shift lanes n).1 = false → k < n) := by
  induction n generalizing p with
  | zero => exact ⟨0, rfl, rfl, rfl, fun _ => rfl, fun stopped => by cases stopped⟩
  | succ n ih =>
    obtain ⟨misses, budget, controller, waited | ⟨byte, received⟩⟩ := p.receive_cases
    · simp only [shift, waited]
      refine ⟨0, ?_, ?_, rfl, fun done => (by cases done), fun _ => Nat.succ_pos n⟩
      · exact Wire.countSent_checked ..
      · exact Wire.countReceived_checked ..
    · simp only [shift, received]
      obtain ⟨k, sent, came, left, all, few⟩ := ih _
      refine ⟨k + 1, sent.trans ?_, came.trans ?_, left.trans ?_, fun done => ?_, fun stopped => ?_⟩
      · simp only [keep_eq, step, transmit, Wire.countSent_tx, Wire.countSent_rx,
          Wire.countSent_checked]
        omega
      · simp only [keep_eq, step, transmit, Wire.countReceived_tx, Wire.countReceived_rx,
          Wire.countReceived_checked]
        omega
      · simp only [keep_eq, step, transmit]
        omega
      · rw [all done]
      · have := few stopped
        omega

/-- A run that stops sent one byte for each that came in, and counted them. One that gets through
received the byte in flight as well. -/
theorem run_counts (lanes : Lanes) (p : Pass) :
    ((p.run lanes).1 = false → ∃ k < max p.remaining 1,
      Wire.countSent (p.run lanes).2.wires = Wire.countSent p.wires + k ∧
      Wire.countReceived (p.run lanes).2.wires = Wire.countReceived p.wires + k ∧
      (p.run lanes).2.remaining = p.remaining - k) ∧
    ((p.run lanes).1 = true →
      Wire.countSent (p.run lanes).2.wires + 1 = Wire.countSent p.wires + max p.remaining 1 ∧
      Wire.countReceived (p.run lanes).2.wires =
        Wire.countReceived p.wires + max p.remaining 1) := by
  obtain ⟨k, sent, came, left, all, few⟩ := shift_counts lanes (p.remaining - 1) p
  rcases shifted : p.shift lanes (p.remaining - 1) with ⟨complete, p₁⟩
  rw [shifted] at sent came left all few
  simp only at sent came left
  simp only [run, shifted]
  cases complete with
  | false =>
    have := few rfl
    exact ⟨fun _ => ⟨k, by omega, sent, came, left⟩, fun done => by cases done⟩
  | true =>
    have shifts := all rfl
    obtain ⟨misses, budget, controller, waited | ⟨byte, received⟩⟩ := p₁.receive_cases
    · simp only [waited]
      refine ⟨fun _ => ⟨k, by omega, ?_, ?_, left⟩, fun done => by cases done⟩
      · exact (Wire.countSent_checked ..).trans sent
      · exact (Wire.countReceived_checked ..).trans came
    · simp only [received]
      refine ⟨fun stopped => (by cases stopped), fun _ => ⟨?_, ?_⟩⟩
      · simp only [keep_eq, Wire.countSent_rx, Wire.countSent_checked]
        omega
      · simp only [keep_eq, Wire.countReceived_rx, Wire.countReceived_checked]
        omega

end Pass

namespace Master

/-- What a master has counted goes with the traffic since its transfer was started: `done` are the
buffers that are through, and `got` bytes of the next one came in and were counted. Between two
buffers those that came in with the last run were not. -/
inductive Metered (lengths : List Nat) (wires : List Wire) (m : Master) : Prop where
  | flying {done : List Nat} {n got : Nat} (busy : m.status = .inProgress)
    (moves : m.lanes.write = true ∨ m.lanes.read = true) (phase : m.phase = .poll)
    (split : lengths = done ++ n :: m.queued) (within : got < max n 1)
    (sent : Wire.countSent wires = through done + (got + 1))
    (received : Wire.countReceived wires = through done + got) (residue : m.remaining = n - got)
  | between {done : List Nat} {n got : Nat} {earlier run : List Wire}
    (busy : m.status = .inProgress) (moves : m.lanes.write = true ∨ m.lanes.read = true)
    (phase : m.phase = .reload)
    (list : m.lanes.list = true) (split : lengths = done ++ n :: m.queued) (within : got < max n 1)
    (whole : wires = earlier ++ run)
    (sentEarlier : Wire.countSent earlier = through done + (got + 1))
    (receivedEarlier : Wire.countReceived earlier = through done + got)
    (sent : Wire.countSent wires = through done + max n 1)
    (received : Wire.countReceived wires = through done + max n 1) (residue : m.remaining = n - got)
  | idle (ended : m.status = .ok) (residue : m.remaining = 0)

variable {lengths : List Nat} {wires : List Wire} {m m' : Master}

theorem Metered.others (h : m.Metered lengths wires) (same : m.SameTransfer m') :
    m'.Metered lengths wires := by
  have queued := same.queued
  cases h with
  | flying busy moves phase split within sent received residue =>
    refine .flying (same.status.trans busy) ?_ (same.phase.trans phase) ?_ within sent received
      (same.remaining.trans residue)
    · rw [same.lanes]
      exact moves
    · rw [queued]
      exact split
  | between busy moves phase list split within whole sent₁ received₁ sent received residue =>
    refine .between (same.status.trans busy) ?_ (same.phase.trans phase) ?_ ?_ within whole sent₁
      received₁ sent received (same.remaining.trans residue)
    · rw [same.lanes]
      exact moves
    · rw [same.lanes]
      exact list
    · rw [queued]
      exact split
  | idle ended residue => exact .idle (same.status.trans ended) (same.remaining.trans residue)

/-- The first byte of a buffer was sent. -/
theorem metered_begin {done : List Nat} {n : Nat} (byte : UInt8)
    (moves : m.lanes.write = true ∨ m.lanes.read = true)
    (split : lengths = done ++ n :: m.queued) (sent : Wire.countSent wires = through done)
    (received : Wire.countReceived wires = through done) :
    (m.begin n).Metered lengths (wires ++ [.tx byte]) := by
  refine .flying rfl moves rfl split (Nat.lt_of_lt_of_le Nat.zero_lt_one (Nat.le_max_right n 1))
    ?_ ?_ rfl
  · rw [Wire.countSent_append, sent]
    rfl
  · rw [Wire.countReceived_append, received]
    rfl

/-- A poll keeps the count in step with the traffic. A poll that ends a buffer of a list stores no
count: the old one is kept with the traffic that it went with. -/
theorem Metered.poll (h : m.Metered lengths wires) (memory : Memory) (busy : m.status = .inProgress)
    (phase : m.phase = .poll) :
    (m.poll memory).master.Metered lengths (wires ++ (m.poll memory).wires.reverse) := by
  cases h with
  | between _ _ reload => cases phase.symm.trans reload
  | idle ended => cases busy.symm.trans ended
  | @flying done n got _ moves _ split within sent received residue =>
    obtain ⟨stopped, complete⟩ := Pass.run_counts m.lanes (m.pass memory)
    rcases ran : (m.pass memory).run m.lanes with ⟨whole, p⟩
    rw [ran] at stopped complete
    have count : max m.remaining 1 = max n 1 - got := by omega
    simp only [Master.poll, ran]
    cases whole with
    | false =>
      obtain ⟨k, few, out, came, left⟩ := stopped rfl
      have few' : k < max m.remaining 1 := few
      have out' : Wire.countSent p.wires = k := out.trans (Nat.zero_add k)
      have came' : Wire.countReceived p.wires = k := came.trans (Nat.zero_add k)
      have left' : p.remaining = m.remaining - k := left
      have within' : got + k < max n 1 := by omega
      refine .flying busy moves phase split within' ?_ ?_ ?_
      · simp only [Bool.not_false, if_true]
        rw [Wire.countSent_append, Wire.countSent_reverse, sent, out']
        omega
      · simp only [Bool.not_false, if_true]
        rw [Wire.countReceived_append, Wire.countReceived_reverse, received, came']
        omega
      · change p.remaining = _
        omega
    | true =>
      obtain ⟨out, came⟩ := complete rfl
      have out' : Wire.countSent p.wires + 1 = max m.remaining 1 := out.trans (Nat.zero_add _)
      have came' : Wire.countReceived p.wires = max m.remaining 1 := came.trans (Nat.zero_add _)
      cases list : m.lanes.list with
      | true =>
        refine .between busy moves rfl list split within rfl sent received ?_ ?_ residue
        · simp only [Bool.not_true, Bool.false_eq_true, if_false, if_true]
          rw [Wire.countSent_append, Wire.countSent_reverse, sent]
          omega
        · simp only [Bool.not_true, Bool.false_eq_true, if_false, if_true]
          rw [Wire.countReceived_append, Wire.countReceived_reverse, received, came']
          omega
      | false => exact .idle rfl rfl

/-- The next buffer is loaded, or the transfer ends. -/
theorem Metered.reload (h : m.Metered lengths wires) (memory : Memory)
    (busy : m.status = .inProgress) (phase : m.phase = .reload) :
    (∃ m', m.advance memory = (none, m') ∧ m'.finish.Metered lengths wires) ∨
      ∃ byte n m', m.advance memory = (some (byte, n), m') ∧
        (m'.begin n).Metered lengths (wires ++ [.tx byte]) := by
  cases h with
  | flying _ _ polling => cases phase.symm.trans polling
  | idle ended => cases busy.symm.trans ended
  | @between done n _ _ _ _ moves _ list split _ _ _ _ sent received _ =>
    rcases advance_lengths memory m moves list with ⟨m', ended, -⟩ |
      ⟨byte, next, m', loaded, -, lanes, queued⟩
    · exact Or.inl ⟨m', ended, .idle rfl rfl⟩
    · refine Or.inr ⟨byte, next, m', loaded, metered_begin byte (lanes.symm ▸ moves) ?_
        (sent.trans (through_concat done n).symm) (received.trans (through_concat done n).symm)⟩
      rw [split, queued, List.append_assoc]
      rfl

/-- What the residue of a master shows of its transfer, by the traffic since that was started: the
bytes of the current buffer that did not come in, as long as a byte is in flight, and nothing when
the transfer is over. Between two buffers all bytes came in; the residue is still that from before
the last run, and not zero unless the buffer is empty. -/
inductive Shows (lengths : List Nat) (wires : List Wire) (m : Master) : Prop where
  | flying (busy : m.status = .inProgress)
    (inFlight : Wire.countSent wires = Wire.countReceived wires + 1)
    (exact : m.remaining = outstanding lengths wires)
  | between {earlier run : List Wire} (busy : m.status = .inProgress) (list : m.lanes.list = true)
    (landed : Wire.countSent wires = Wire.countReceived wires)
    (none_left : outstanding lengths wires = 0) (whole : wires = earlier ++ run)
    (inFlight : Wire.countSent earlier = Wire.countReceived earlier + 1)
    (same : currentLength lengths earlier = currentLength lengths wires)
    (stale : m.remaining = outstanding lengths earlier)
    (lags : 0 < m.remaining ↔ 0 < currentLength lengths wires)
  | idle (ended : m.status = .ok) (exact : m.remaining = 0)

theorem current_of_counts {done rest : List Nat} {n s r : Nat} (split : lengths = done ++ n :: rest)
    (some : 0 < s) (within : s ≤ max n 1) (sent : Wire.countSent wires = through done + s)
    (received : Wire.countReceived wires = through done + r) :
    currentLength lengths wires = n ∧ outstanding lengths wires = n - r := by
  have place := current_eq done n rest (r := r) some within
  simp only [outstanding, currentLength, split, sent, received, place, and_self]

theorem Metered.shows (h : m.Metered lengths wires) : m.Shows lengths wires := by
  cases h with
  | @flying done n got busy _ _ split within sent received residue =>
    obtain ⟨-, left⟩ := current_of_counts split (Nat.succ_pos got) within sent received
    exact .flying busy (by omega) (residue.trans left.symm)
  | @between done n got earlier run busy _ _ list split within whole sent₁ received₁ sent received
      residue =>
    obtain ⟨length₁, left₁⟩ := current_of_counts split (Nat.succ_pos got) within sent₁ received₁
    obtain ⟨length, left⟩ := current_of_counts split (by omega) le_rfl sent received
    refine .between busy list (by omega) (by omega) whole (by omega) (length₁.trans length.symm)
      (residue.trans left₁.symm) ?_
    rw [residue, length]
    omega
  | idle ended residue => exact .idle ended residue

end Master

end Spi

namespace Board

/-- What the master of the bus has counted goes with the traffic after `old`. -/
def Metered (bus : Nat) (lengths : List Nat) (old : List Wire) (b : Board) : Prop :=
  ∃ wires, b.kernel.wires bus = old ++ wires ∧ (b.masters.get bus).Metered lengths wires

variable {b b₁ b' : Board} {bus : Nat} {lengths : List Nat} {old : List Wire}

theorem Metered.same (h : Metered bus lengths old b)
    (transfer : (b.masters.get bus).SameTransfer (b'.masters.get bus))
    (wires : b'.kernel.wires bus = b.kernel.wires bus) : Metered bus lengths old b' := by
  obtain ⟨ws, split, metered⟩ := h
  exact ⟨ws, wires.trans split, metered.others transfer⟩

theorem Metered.schedule (h : Metered bus lengths old b) :
    Metered bus lengths old (final (schedulePoll bus) b) := by
  rw [final_schedulePoll]
  exact h.same (.refl _) (Kernel.wires_add ..)

theorem Metered.wake (h : Metered bus lengths old b) :
    Metered bus lengths old (final (wakeHolder bus) b) := by
  rw [final_wakeHolder]
  exact h.same (.refl _) (Kernel.wires_addOptional ..)

/-- The first byte of a buffer goes out. -/
theorem metered_prime {m : Master} {wires : List Wire} {first : UInt8} {n : Nat}
    (split : b.kernel.wires bus = old ++ wires)
    (begun : (m.begin n).Metered lengths (wires ++ [.tx first])) :
    Metered bus lengths old (prime bus first n { b with masters := b.masters.set bus m }) := by
  refine ⟨wires ++ [.tx first], ?_, ?_⟩
  · rw [wires_prime, split, List.append_assoc]
  · rw [masters_prime, Bank.get_set_same]
    exact begun.others (by constructor <;> rfl)

theorem metered_start {t : Transfer} (accepted : t.fault? = none) :
    Metered bus t.lengths (b.kernel.wires bus) (final (start bus t) b) := by
  obtain ⟨first, n, m, taken, -, moves, -, lengths⟩ :=
    Master.accept_lengths b.memory (b.masters.get bus) accepted
  rw [final, start_accepted accepted taken]
  have split : t.lengths = [] ++ n :: m.queued := lengths
  have begun : (m.begin n).Metered t.lengths ([] ++ [.tx first]) :=
    Master.metered_begin first moves split rfl rfl
  exact (metered_prime (List.append_nil _).symm begun).schedule

theorem metered_polled (h : Metered bus lengths old b)
    (busy : (b.masters.get bus).status = .inProgress)
    (phase : (b.masters.get bus).phase = .poll) : Metered bus lengths old (b.polled bus) := by
  obtain ⟨wires, split, metered⟩ := h
  have traffic : (b.polled bus).kernel.wires bus = _ := Kernel.wires_traffic bus _
  rw [split, List.append_assoc] at traffic
  refine ⟨_, traffic, ?_⟩
  rw [masters_polled]
  exact metered.poll b.memory busy phase

/-- A run of the poll task keeps the count in step with the traffic. -/
theorem Metered.run (h : Metered bus lengths old b)
    (busy : (b.masters.get bus).status = .inProgress) :
    Metered bus lengths old (final (runPoller bus) b) := by
  rw [final]
  cases pollerRun bus b with
  | polling phase _ ran =>
    rw [ran]
    exact (metered_polled h busy phase).schedule
  | polled phase _ ran =>
    rw [ran]
    exact (metered_polled h busy phase).wake
  | @loaded first n m phase advanced ran =>
    rw [ran]
    obtain ⟨wires, split, metered⟩ := h
    obtain ⟨_, ended, -⟩ | ⟨_, _, _, loaded, begun⟩ := metered.reload b.memory busy phase
    · rw [advanced] at ended
      cases ended
    · rw [advanced] at loaded
      cases loaded
      exact (metered_prime split begun).schedule
  | @ended m phase advanced ran =>
    rw [ran]
    obtain ⟨wires, split, -⟩ := h
    have master : (modifyMaster bus Master.finish
        { b with masters := b.masters.set bus m }).masters.get bus = m.finish := by
      simp [modifyMaster, Bank.get_modify]
    refine Metered.wake ⟨wires, split, ?_⟩
    rw [master]
    exact .idle rfl rfl

/-- Nobody starts another transfer meanwhile. -/
theorem Metered.step (h : Metered bus lengths old b) (driven : Driven bus b)
    (deed : Deed bus (fun _ => False) b b') : Metered bus lengths old b' := by
  cases driven.outcome deed with
  | spared spared => exact h.same spared.transfer spared.kernel.wires
  | started _ _ allowed _ => exact allowed.elim
  | polled popped same =>
    rw [same]
    have before : Metered bus lengths old _ := h.same (popped.masters ▸ .refl _) popped.wires
    exact before.run (popped.masters ▸ popped.busy)

/-- By induction on the deeds. -/
theorem Metered.deeds (h : Metered bus lengths old b) (driven : Driven bus b)
    (deeds : Deeds bus (fun _ => False) b b') : Metered bus lengths old b' := by
  have both : Metered bus lengths old b' ∧ Driven bus b' := by
    induction deeds with
    | refl => exact ⟨h, driven⟩
    | tail _ deed ih => exact ⟨ih.1.step ih.2 deed, ih.2.step deed⟩
  exact both.1

/-- The residue is nothing when no transfer is in progress. From the start of a transfer on it is
the number of bytes of the current buffer that did not come in, at every moment outside the runs of
the poll task but one: after the run that gets the last byte of a buffer of a list, and before the
next run, it is what it was before that run. -/
theorem residue_is_outstanding_but_between_buffers (p : Plan) (bus : Nat)
    (reached : Deeds bus (fun _ => True) p.bootBoard b) :
    ((b.masters.get bus).status = .ok → (b.masters.get bus).remaining = 0) ∧
    ∀ t, t.fault? = none → ∀ b', Deeds bus (fun _ => False) (final (start bus t) b) b' →
      ∃ wires, b'.kernel.wires bus = b.kernel.wires bus ++ wires ∧
        (b'.masters.get bus).Shows t.lengths wires := by
  have driven := (driven_boot p bus).deeds reached
  refine ⟨driven.idle, fun t accepted b' deeds => ?_⟩
  obtain ⟨wires, split, metered⟩ := (metered_start accepted).deeds (driven.start t) deeds
  exact ⟨wires, split, metered.shows⟩

/-- Runs of two looks, all of which find the flag set: three bytes take two runs, and the second one
leaves the residue as it was. -/
theorem last_byte_of_a_buffer_is_not_counted :
    let p : Plan := { buses := [{
      budget := ⟨2, by decide⟩
      hardware := .scripted (fun _ => true) [] }] }
    let started := final (start 0 (.writeList [[1, 2, 3], [4]])) p.bootBoard
    let yielded := final (Board.turn 0) started
    let landed := final (Board.turn 0) yielded
    (yielded.masters.get 0).Shows [3, 1] (yielded.kernel.wires 0) ∧
      (yielded.masters.get 0).remaining = 1 ∧
      (landed.masters.get 0).Shows [3, 1] (landed.kernel.wires 0) ∧
      (landed.masters.get 0).remaining = 1 := by
  intro p started yielded landed
  have once : Deeds 0 (fun _ => False) started yielded := .single (.turn 0)
  have twice : Deeds 0 (fun _ => False) started landed := once.tail (.turn 0)
  obtain ⟨-, all⟩ := residue_is_outstanding_but_between_buffers p 0 (.refl (a := p.bootBoard))
  obtain ⟨wires, split, shows⟩ := all (.writeList [[1, 2, 3], [4]]) rfl yielded once
  obtain ⟨wires', split', shows'⟩ := all (.writeList [[1, 2, 3], [4]]) rfl landed twice
  obtain rfl : yielded.kernel.wires 0 = wires := split
  obtain rfl : landed.kernel.wires 0 = wires' := split'
  exact ⟨shows, by decide +kernel, shows', by decide +kernel⟩

/-- All bytes of the only buffer came in with one run, and three still show. -/
theorem residue_of_a_buffer_that_is_through :
    let p : Plan := { buses := [{}] }
    let started := final (start 0 (.writeList [[1, 2, 3]])) p.bootBoard
    let b := final (Board.turn 0) started
    (b.masters.get 0).status = .inProgress ∧ (Wire.received (b.kernel.wires 0)).length = 3 ∧
      outstanding [3] (b.kernel.wires 0) = 0 ∧ (b.masters.get 0).remaining = 3 := by
  decide +kernel

end Board

end CoopKernel
