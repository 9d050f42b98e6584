import CoopKernel.Proofs.PollPass

/-!
# A master between runs of its poll task

What the registers of a master stand for: the beat in flight and the beats to
come, of the current buffer and of those still listed. Accepting a transfer,
a run of the poll task and loading the next buffer each keep this up.
-/

namespace CoopKernel.Spi

variable {kept : Nat → Prop} {start memory : Memory} {plan : List Beat} {wires : List Wire}

namespace Master

def ahead (m : Master) : List Beat :=
  line m.lanes (m.remaining - 1) m.write (m.lanes.filled m.read)

def later (m : Master) : List Beat :=
  match m.lanes with
  | ⟨true, false, true⟩ => m.writeList.flatMap fun d => buffer m.lanes d.length (.bytes d) {}
  | ⟨false, true, true⟩ => m.readList.flatMap fun i => buffer m.lanes i.length .empty i
  | ⟨true, true, true⟩ =>
    (m.writeList.zip m.readList).flatMap fun (d, i) => buffer m.lanes d.length (.bytes d) i
  | _ => []

def todo (m : Master) : List Beat :=
  match m.phase with
  | .poll => m.ahead ++ m.later
  | .reload => m.later

def air (m : Master) : Option (Option Nat) :=
  match m.phase with
  | .poll => some (m.lanes.into m.read)
  | .reload => none

structure InProgress (kept : Nat → Prop) (start : Memory) (plan : List Beat) (wires : List Wire)
    (memory : Memory) (m : Master) : Prop where
  busy : m.status = .inProgress
  moves : m.lanes.write = true ∨ m.lanes.read = true
  listed : m.phase = .reload → m.lanes.list = true
  underway : Underway kept start plan wires memory m.air m.todo

structure Finished (kept : Nat → Prop) (start : Memory) (plan : List Beat) (wires : List Wire)
    (memory : Memory) (m : Master) : Prop where
  done : m.status = .ok
  residue : m.remaining = 0
  complete : Underway kept start plan wires memory none []

variable {m : Master}

theorem later_of_single (single : m.lanes.list = false) : m.later = [] := by
  rw [later]
  split <;> rename_i lanes <;> first | rfl | (rw [lanes] at single; cases single)

/-- A run of the poll task in the middle of a buffer goes on with the plan, and finishes it exactly
when it reports the end. -/
theorem InProgress.poll (h : InProgress kept start plan wires memory m)
    (covers : Covers kept plan) (phase : m.phase = .poll) :
    let r := m.poll memory
    (r.ending ≠ .transferDone →
      InProgress kept start plan (wires ++ r.wires.reverse) r.memory r.master) ∧
      (r.ending = .transferDone →
        Finished kept start plan (wires ++ r.wires.reverse) r.memory r.master) := by
  obtain ⟨busy, moves, listed, underway⟩ := h
  have carries : (m.pass memory).Carries kept start plan wires m.later m.lanes := by
    simpa [Pass.Carries, Pass.ahead, pass, air, todo, ahead, phase] using underway
  obtain ⟨stopped, through⟩ := carries.run covers
  rcases ran : (m.pass memory).run m.lanes with ⟨complete, p⟩
  rw [ran] at stopped through
  simp only [Master.poll, ran]
  cases complete with
  | false =>
    refine ⟨fun _ => ⟨busy, moves, listed, ?_⟩, fun done => by cases done⟩
    simpa [air, todo, ahead, Pass.Carries, Pass.ahead, phase, later] using stopped rfl
  | true =>
    have received := through rfl
    cases list : m.lanes.list with
    | true =>
      refine ⟨fun _ => ⟨busy, moves, fun _ => list, ?_⟩, fun done => by cases done⟩
      simpa [air, todo, later] using received
    | false =>
      refine ⟨fun going => absurd rfl going, fun _ => ⟨rfl, rfl, ?_⟩⟩
      rw [later_of_single list] at received
      simpa using received

/-- A run stores in the cells of the transfer only. -/
theorem InProgress.poll_frame (h : InProgress kept start plan wires memory m)
    (phase : m.phase = .poll) {a : Nat} (miss : ∀ beat ∈ plan, beat.into ≠ some a) :
    (m.poll memory).memory.get a = memory.get a := by
  obtain ⟨busy, moves, listed, underway⟩ := h
  have rest : InProgress (fun _ => True) memory
      (m.air.toList.map (Beat.mk (.byte 0)) ++ m.todo) (m.air.toList.map fun _ => .tx 0) memory m :=
    ⟨busy, moves, listed, underway_rest memory m.air m.todo⟩
  have miss' : ∀ beat ∈ m.air.toList.map (Beat.mk (.byte 0)) ++ m.todo, beat.into ≠ some a := by
    intro beat mem into
    have inside : some a ∈ m.air.toList ++ m.todo.map Beat.into := by
      rcases List.mem_append.mp mem with flying | later
      · obtain ⟨slot, here, rfl⟩ := List.mem_map.mp flying
        exact List.mem_append_left _ (into ▸ here)
      · exact List.mem_append_right _ (List.mem_map.mpr ⟨beat, later, into⟩)
    obtain ⟨other, mem', into'⟩ := List.mem_map.mp (underway.slots inside)
    exact miss other mem' into'
  obtain ⟨stays, ends⟩ := rest.poll (fun _ _ _ _ => trivial) phase
  by_cases ending : (m.poll memory).ending = .transferDone
  · exact (ends ending).complete.frame trivial miss'
  · exact (stays ending).underway.frame trivial miss'

theorem status_of_done (done : (m.poll memory).ending = .transferDone) :
    (m.poll memory).master.status = .ok := by
  revert done
  simp only [Master.poll]
  split
  · intro done
    cases done
  · split
    · intro done
      cases done
    · intro _
      rfl

theorem status_of_going (going : (m.poll memory).ending ≠ .transferDone) :
    (m.poll memory).master.status = m.status := by
  revert going
  simp only [Master.poll]
  split
  · intro _
    rfl
  · split
    · intro _
      rfl
    · intro going
      exact absurd rfl going

/-- A buffer that was just loaded: its first beat is to be sent now, the others are to come. -/
theorem buffer_loaded (m : Master) (n : Nat) (write : Source) (read : Span)
    (cursor : m.lanes.write = true → m.write = write.rest)
    (target : m.lanes.read = true → m.read = read) :
    buffer m.lanes n write read ++ m.later =
      ⟨m.lanes.out write, m.lanes.into m.read⟩ :: (m.begin n).todo := by
  have into : m.lanes.into read = m.lanes.into m.read := by
    cases hr : m.lanes.read with
    | false => simp [Lanes.into, hr]
    | true => rw [target hr]
  have filled : line m.lanes (n - 1) (m.lanes.sent write) (m.lanes.filled read) =
      line m.lanes (n - 1) (m.lanes.sent write) (m.lanes.filled m.read) := by
    cases hr : m.lanes.read with
    | false => exact line_read_off hr ..
    | true => rw [target hr]
  have sent : line m.lanes (n - 1) (m.lanes.sent write) (m.lanes.filled m.read) =
      line m.lanes (n - 1) m.write (m.lanes.filled m.read) := by
    cases hw : m.lanes.write with
    | false => exact line_write_off hw ..
    | true => rw [cursor hw, Lanes.sent, if_pos hw]
  rw [buffer_succ, into, filled, sent]
  rfl

/-- Setting a transfer up leaves the master with all beats of the transfer but the first byte, which
goes out at once. -/
theorem accept_beats (memory : Memory) (m : Master) {t : Transfer} (accepted : t.fault? = none) :
    ∃ out n m', m.accept memory t = (out.value memory, n, m') ∧
      (m'.lanes.write = true ∨ m'.lanes.read = true) ∧
      t.beats = ⟨out, m'.lanes.into m'.read⟩ :: (m'.begin n).todo := by
  cases t with
  | write data =>
    let m' : Master := { m with lanes := { write := true }, write := data.rest }
    have loaded := buffer_loaded m' data.length data {} (fun _ => rfl) (fun off => by cases off)
    rw [later_of_single rfl, List.append_nil] at loaded
    exact ⟨data.next, data.length, m', by rw [value_next]; rfl, Or.inl rfl, loaded⟩
  | read into =>
    let m' : Master := { m with lanes := { read := true }, read := into }
    have loaded := buffer_loaded m' into.length .empty into (fun off => by cases off) (fun _ => rfl)
    rw [later_of_single rfl, List.append_nil] at loaded
    exact ⟨.byte 0, into.length, m', rfl, Or.inr rfl, loaded⟩
  | exchange data into =>
    let m' : Master :=
      { m with lanes := { write := true, read := true }, read := into, write := data.rest }
    have loaded := buffer_loaded m' data.length data into (fun _ => rfl) (fun _ => rfl)
    rw [later_of_single rfl, List.append_nil] at loaded
    exact ⟨data.next, data.length, m', by rw [value_next]; rfl, Or.inl rfl, loaded⟩
  | writeList data =>
    obtain _ | ⟨d, ds⟩ := data
    · cases accepted
    let m' : Master :=
      { m with lanes := { write := true, list := true }, writeList := ds, write := .bytes d.tail }
    have loaded := buffer_loaded m' d.length (.bytes d) {} (fun _ => rfl) (fun off => by cases off)
    exact ⟨(Source.bytes d).next, d.length, m', by rw [value_next]; rfl, Or.inl rfl, loaded⟩
  | readList into =>
    obtain _ | ⟨i, is⟩ := into
    · cases accepted
    let m' : Master :=
      { m with lanes := { read := true, list := true }, readList := is, read := i }
    have loaded := buffer_loaded m' i.length .empty i (fun off => by cases off) (fun _ => rfl)
    exact ⟨.byte 0, i.length, m', rfl, Or.inr rfl, loaded⟩
  | exchangeList data into =>
    obtain _ | ⟨d, ds⟩ := data
    · cases accepted
    obtain _ | ⟨i, is⟩ := into
    · cases accepted
    let m' : Master :=
      { m with
        lanes := ⟨true, true, true⟩, writeList := ds, readList := is
        read := i, write := .bytes d.tail }
    have loaded := buffer_loaded m' d.length (.bytes d) i (fun _ => rfl) (fun _ => rfl)
    exact ⟨(Source.bytes d).next, d.length, m', by rw [value_next]; rfl, Or.inl rfl, loaded⟩

/-- Either the lists have run out, or the next buffer is loaded. -/
theorem advance_beats (memory : Memory) (m : Master)
    (moves : m.lanes.write = true ∨ m.lanes.read = true) (list : m.lanes.list = true) :
    (∃ m', m.advance memory = (none, m') ∧ m.later = []) ∨
      ∃ out n m', m.advance memory = (some (out.value memory, n), m') ∧ m'.lanes = m.lanes ∧
        (∃ b, out = .byte b) ∧
        m.later = ⟨out, m'.lanes.into m'.read⟩ :: (m'.begin n).todo := by
  rcases hl : m.lanes with ⟨write, read, _⟩
  rw [hl] at moves list
  obtain rfl : _ = true := list
  cases read with
  | false =>
    obtain rfl : write = true := by simpa using moves
    rcases hd : m.writeList with _ | ⟨d, ds⟩
    · exact Or.inl ⟨m, by simp [advance, hl, hd], by simp [later, hl, hd]⟩
    let m' : Master := { m with writeList := ds, write := .bytes d.tail }
    have split : m.later = buffer m'.lanes d.length (.bytes d) {} ++ m'.later := by
      simp [later, m', hl, hd]
    have out : m'.lanes.out (.bytes d) = (Source.bytes d).next := by simp [Lanes.out, m', hl]
    refine Or.inr ⟨(Source.bytes d).next, d.length, m', ?_, hl, ?_, ?_⟩
    · simp [advance, hl, hd, value_next, aim, Source.rest, m']
    · cases d <;> exact ⟨_, rfl⟩
    · rw [split, buffer_loaded m' d.length (.bytes d) {} (fun _ => rfl), out]
      intro off
      rw [show m'.lanes = _ from hl] at off
      cases off
  | true =>
    rcases hi : m.readList with _ | ⟨i, is⟩
    · exact Or.inl ⟨m, by simp [advance, hl, hi], by cases write <;> simp [later, hl, hi]⟩
    cases write with
    | false =>
      let m' : Master := { m with readList := is, read := i }
      have split : m.later = buffer m'.lanes i.length .empty i ++ m'.later := by
        simp [later, m', hl, hi]
      have out : m'.lanes.out .empty = .byte 0 := by simp [Lanes.out, m', hl]
      refine Or.inr ⟨.byte 0, i.length, m', ?_, hl, ⟨0, rfl⟩, ?_⟩
      · simp [advance, hl, hi, Outgoing.value, m']
      · rw [split, buffer_loaded m' i.length .empty i ?_ (fun _ => rfl), out]
        intro off
        rw [show m'.lanes = _ from hl] at off
        cases off
    | true =>
      rcases hd : m.writeList with _ | ⟨d, ds⟩
      · exact Or.inl ⟨{ m with readList := is, read := i }, by simp [advance, hl, hi, hd],
          by simp [later, hl, hd]⟩
      let m' : Master :=
        { m with readList := is, read := i, writeList := ds, write := .bytes d.tail }
      have split : m.later = buffer m'.lanes d.length (.bytes d) i ++ m'.later := by
        simp [later, m', hl, hi, hd]
      have out : m'.lanes.out (.bytes d) = (Source.bytes d).next := by simp [Lanes.out, m', hl]
      refine Or.inr ⟨(Source.bytes d).next, d.length, m', ?_, hl, ?_, ?_⟩
      · simp [advance, hl, hi, hd, value_next, aim, Source.rest, m']
      · cases d <;> exact ⟨_, rfl⟩
      · rw [split, buffer_loaded m' d.length (.bytes d) i (fun _ => rfl) (fun _ => rfl), out]

/-- The registers of a transfer; the controller, the budget and the counters are left out. -/
structure SameTransfer (m m' : Master) : Prop where
  phase : m'.phase = m.phase
  lanes : m'.lanes = m.lanes
  status : m'.status = m.status
  remaining : m'.remaining = m.remaining
  read : m'.read = m.read
  write : m'.write = m.write
  readList : m'.readList = m.readList
  writeList : m'.writeList = m.writeList

theorem SameTransfer.refl (m : Master) : m.SameTransfer m := by
  constructor <;> rfl

variable {m' : Master} {memory' : Memory}

theorem SameTransfer.trans {m'' : Master} (h : m.SameTransfer m') (h' : m'.SameTransfer m'') :
    m.SameTransfer m'' where
  phase := h'.phase.trans h.phase
  lanes := h'.lanes.trans h.lanes
  status := h'.status.trans h.status
  remaining := h'.remaining.trans h.remaining
  read := h'.read.trans h.read
  write := h'.write.trans h.write
  readList := h'.readList.trans h.readList
  writeList := h'.writeList.trans h.writeList

theorem InProgress.others (h : InProgress kept start plan wires memory m)
    (same : m.SameTransfer m') (cells : ∀ a, kept a → memory'.get a = memory.get a) :
    InProgress kept start plan wires memory' m' := by
  obtain ⟨busy, moves, listed, underway⟩ := h
  obtain ⟨phase, lanes, status, remaining, read, write, readList, writeList⟩ := same
  have air : m'.air = m.air := by simp only [Master.air, phase, lanes, read]
  have todo : m'.todo = m.todo := by
    simp only [Master.todo, ahead, later, phase, lanes, remaining, read, write, readList, writeList]
  refine ⟨status.trans busy, lanes ▸ moves, ?_, ?_⟩
  · rw [phase, lanes]
    exact listed
  · rw [air, todo]
    exact underway.others cells

theorem Finished.others (h : Finished kept start plan wires memory m) (same : m.SameTransfer m')
    (cells : ∀ a, kept a → memory'.get a = memory.get a) :
    Finished kept start plan wires memory' m' :=
  ⟨same.status.trans h.done, same.remaining.trans h.residue, h.complete.others cells⟩

/-- An accepted transfer is in progress once its first byte is out. -/
theorem accept_inProgress (memory : Memory) (m : Master) {t : Transfer}
    (accepted : t.fault? = none) (covers : Covers kept t.beats) :
    ∃ b n m', m.accept memory t = (b, n, m') ∧
      InProgress kept memory t.beats [.tx b] memory (m'.begin n) := by
  obtain ⟨out, n, m', taken, moves, beats⟩ := accept_beats memory m accepted
  refine ⟨out.value memory, n, m', taken, rfl, moves, (fun phase => by cases phase), ?_⟩
  have begun : Underway kept memory t.beats [] memory none t.beats := underway_start t.beats
  rw [beats] at begun covers ⊢
  exact begun.launch covers (Or.inr rfl)

/-- Between two buffers of a list nothing is in flight. -/
theorem InProgress.reload (h : InProgress kept start plan wires memory m)
    (covers : Covers kept plan) (phase : m.phase = .reload) :
    (∃ m', m.advance memory = (none, m') ∧
      Finished kept start plan wires memory m'.finish) ∨
      ∃ b n m', m.advance memory = (some (b, n), m') ∧
        InProgress kept start plan (wires ++ [.tx b]) memory (m'.begin n) := by
  obtain ⟨busy, moves, listed, underway⟩ := h
  have air : m.air = none := by simp only [Master.air, phase]
  have todo : m.todo = m.later := by simp only [Master.todo, phase]
  rw [air, todo] at underway
  rcases advance_beats memory m moves (listed phase) with ⟨m', ended, none_later⟩ | next
  · rw [none_later] at underway
    exact Or.inl ⟨m', ended, rfl, rfl, underway⟩
  · obtain ⟨out, n, m', loaded, lanes, constant, later⟩ := next
    rw [later] at underway
    refine Or.inr ⟨out.value memory, n, m', loaded, rfl, ?_, (fun phase => by cases phase), ?_⟩
    · change m'.lanes.write = true ∨ m'.lanes.read = true
      rw [lanes]
      exact moves
    · exact underway.launch covers (Or.inl constant)

end Master

end CoopKernel.Spi
