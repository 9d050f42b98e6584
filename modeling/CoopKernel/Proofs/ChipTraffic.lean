import CoopKernel.Board.Flash
import CoopKernel.Proofs.TransferRun

/-!
# The traffic of a chip

An observer of a chip sees its settings loaded and unloaded, its select line and
the bytes that go out on its bus. A transfer of the chip's holder adds nothing
but the bytes it sends, whatever is done elsewhere while it runs, and the bytes
that come back are in the scratch cells when it has ended.
-/

namespace CoopKernel

open Spi

inductive ChipMark where
  | loaded (regs : UInt8)
  | selected
  | sent (byte : UInt8)
  | deselected
  | unloaded (regs : UInt8)
deriving DecidableEq, Repr

namespace Device

def opening (d : Device) : List ChipMark := [.loaded d.regs, .selected]

def closing (d : Device) : List ChipMark := [.deselected, .unloaded d.regs]

end Device

namespace Event

def mark? (d : Device) : Event → Option ChipMark
  | .loaded bus regs => if bus = d.bus then some (.loaded regs) else none
  | .unloaded bus regs => if bus = d.bus then some (.unloaded regs) else none
  | .selected line => if line = d.line then some .selected else none
  | .deselected line => if line = d.line then some .deselected else none
  | .wire bus w => if bus = d.bus then w.sent?.map .sent else none
  | _ => none

def isFraming : Event → Bool
  | loaded _ _ | unloaded _ _ | selected _ | deselected _ => true
  | _ => false

theorem mark_of_plain {e : Event} (d : Device) (plain : e.isFraming = false) :
    e.mark? d = (e.wire? d.bus).bind fun w => w.sent?.map .sent := by
  cases e with
  | wire bus w =>
    by_cases same : bus = d.bus <;> simp [mark?, wire?, same]
  | loaded _ _ => cases plain
  | unloaded _ _ => cases plain
  | selected _ => cases plain
  | deselected _ => cases plain
  | _ => rfl

end Event

namespace Kernel

variable {k k' : Kernel}

def marks (d : Device) (k : Kernel) : List ChipMark :=
  (k.trace.filterMap (Event.mark? d)).reverse

/-- The bytes that came in on the bus of a device. -/
def heard (d : Device) (k : Kernel) : List UInt8 := Wire.received (k.wires d.bus)

theorem marks_of_plain {events : List Event} (d : Device)
    (trace : k'.trace = events ++ k.trace) (plain : ∀ e ∈ events, e.isFraming = false) :
    ∃ wires, k'.wires d.bus = k.wires d.bus ++ wires ∧
      k'.marks d = k.marks d ++ (Wire.sent wires).map .sent := by
  refine ⟨(events.filterMap (Event.wire? d.bus)).reverse, ?_, ?_⟩
  · rw [wires, wires, trace, List.filterMap_append, List.reverse_append]
  · have sent : events.filterMap (Event.mark? d) =
        (events.filterMap (Event.wire? d.bus)).filterMap fun w => w.sent?.map .sent := by
      rw [List.filterMap_filterMap]
      exact List.filterMap_congr fun e mem => Event.mark_of_plain d (plain e mem)
    rw [marks, marks, trace, List.filterMap_append, List.reverse_append, sent, Wire.sent,
      List.map_filterMap, List.filterMap_reverse]

end Kernel

/-- The cells for the commands and responses of a chip. -/
def Chip.Owns (c : Chip) (a : Nat) : Prop := c.scratch ≤ a ∧ a < c.scratch + 5

namespace Board

variable {b b' b₁ : Board} {i bus : Nat} {d : Device} {c c' : Chip}
variable {said said' : List ChipMark} {got got' : List UInt8}

structure Plain (b b' : Board) : Prop where
  chips : b'.chips = b.chips
  trace : ∃ events, b'.kernel.trace = events ++ b.kernel.trace ∧
    ∀ e ∈ events, e.isFraming = false

theorem Plain.trans (h : Plain b b₁) (h' : Plain b₁ b') : Plain b b' := by
  obtain ⟨chips, events, trace, plain⟩ := h
  obtain ⟨chips', later, trace', plain'⟩ := h'
  refine ⟨chips'.trans chips, later ++ events, ?_, ?_⟩
  · rw [trace', trace, List.append_assoc]
  · intro e mem
    exact (List.mem_append.mp mem).elim (plain' e) (plain e)

theorem Requeued.plain (h : Requeued b b') : Plain b b' := by
  obtain ⟨k, events, rfl, relinked, queued⟩ := h
  refine ⟨rfl, events, relinked.trace, fun e mem => ?_⟩
  obtain ⟨q, t, rfl⟩ := queued e mem
  rfl

theorem plain_prime (bus : Nat) (first : UInt8) (n : Nat) (m : Master) :
    Plain b (prime bus first n { b with masters := b.masters.set bus m }) := by
  refine ⟨rfl, ?_⟩
  rw [kernel_prime, Kernel.putWorker, Kernel.expose]
  split
  · refine ⟨[.wire bus (.tx first), .exposed (.worker (.poll bus))], rfl, ?_⟩
    simp [Event.isFraming]
  · refine ⟨[.wire bus (.tx first)], rfl, ?_⟩
    simp [Event.isFraming]

theorem plain_polled (bus : Nat) (b : Board) : Plain b (b.polled bus) := by
  refine ⟨rfl, _, rfl, fun e mem => ?_⟩
  obtain ⟨w, -, rfl⟩ := List.mem_map.mp mem
  rfl

theorem plain_runPoller (ran : runPoller bus b = .ok () b') : Plain b b' := by
  cases pollerRun bus b with
  | polling _ _ same =>
    exact (plain_polled bus b).trans (requeued_schedulePoll (same.symm.trans ran)).plain
  | polled _ _ same =>
    exact (plain_polled bus b).trans (requeued_wakeHolder (same.symm.trans ran)).plain
  | @loaded first n m _ _ same =>
    exact (plain_prime bus first n m).trans (requeued_schedulePoll (same.symm.trans ran)).plain
  | @ended m _ _ same =>
    have finished : Plain b
        (modifyMaster bus Master.finish { b with masters := b.masters.set bus m }) :=
      ⟨rfl, [], rfl, fun e mem => by cases mem⟩
    exact finished.trans (requeued_wakeHolder (same.symm.trans ran)).plain

theorem plain_start {t : Transfer} (accepted : t.fault? = none)
    (ran : start bus t b = .ok () b') : Plain b b' := by
  rcases taken : (b.masters.get bus).accept b.memory t with ⟨first, n, m⟩
  rw [start_accepted accepted taken] at ran
  exact (plain_prime bus first n m).trans (requeued_schedulePoll ran).plain

/-- A run of the poll task of the chip's bus, or anything that leaves the chip, its scratch
cells and its bus alone. -/
inductive ChipTurn (i : Nat) : Board → Board → Prop where
  | others {b b' : Board} (apart : Apart (b.chip i).Owns (b.chip i).device.bus b b')
    (chip : b'.chip i = b.chip i)
    (marks : b'.kernel.marks (b.chip i).device = b.kernel.marks (b.chip i).device) :
    ChipTurn i b b'
  | poll {b b' : Board} (busy : (b.masters.get (b.chip i).device.bus).status = .inProgress)
    (ran : runPoller (b.chip i).device.bus b = .ok () b') : ChipTurn i b b'

abbrev ChipTurns (i : Nat) : Board → Board → Prop := Relation.ReflTransGen (ChipTurn i)

/-- The chip stayed as it was, and all it saw were the bytes on the wire. -/
structure Speaks (i : Nat) (b b' : Board) : Prop where
  chip : b'.chip i = b.chip i
  words : ∃ wires,
    b'.kernel.wires (b.chip i).device.bus = b.kernel.wires (b.chip i).device.bus ++ wires ∧
    b'.kernel.marks (b.chip i).device =
      b.kernel.marks (b.chip i).device ++ (Wire.sent wires).map .sent

theorem Plain.speaks (h : Plain b b') (i : Nat) : Speaks i b b' := by
  obtain ⟨chips, events, trace, plain⟩ := h
  refine ⟨?_, Kernel.marks_of_plain (b.chip i).device trace plain⟩
  rw [chip, chips, chip]

theorem Speaks.trans (h : Speaks i b b₁) (h' : Speaks i b₁ b') : Speaks i b b' := by
  obtain ⟨chip, wires, grown, marks⟩ := h
  obtain ⟨chip', more, grown', marks'⟩ := h'
  rw [chip] at grown' marks'
  refine ⟨chip'.trans chip, wires ++ more, ?_, ?_⟩
  · rw [grown', grown, List.append_assoc]
  · rw [marks', marks, Wire.sent_append, List.map_append, List.append_assoc]

theorem ChipTurn.speaks (turn : ChipTurn i b b') : Speaks i b b' := by
  cases turn with
  | others apart chip marks =>
    exact ⟨chip, [], by simpa using apart.wires, by simpa [Wire.sent] using marks⟩
  | poll busy ran => exact (plain_runPoller ran).speaks i

theorem ChipTurn.turn (turn : ChipTurn i b b') :
    Turn (b.chip i).Owns (b.chip i).device.bus b b' := by
  cases turn with
  | others apart chip marks => exact .others apart
  | poll busy ran => exact .poll busy ran

/-- By induction on the turns: the chip they are about does not change on the way. -/
theorem chipTurns_speak (turns : ChipTurns i b b') :
    Speaks i b b' ∧ Turns (b.chip i).Owns (b.chip i).device.bus b b' := by
  induction turns with
  | refl => exact ⟨⟨rfl, [], by simp [Wire.sent]⟩, .refl⟩
  | tail _ turn ih =>
    obtain ⟨speaks, turns⟩ := ih
    have next := turn.turn
    rw [speaks.chip] at next
    exact ⟨speaks.trans turn.speaks, turns.tail next⟩

/-- From one board to another: the chip as it is then, what was seen of it, and what it
answered. -/
structure Dialogue (i : Nat) (d : Device) (c : Chip) (said : List ChipMark) (got : List UInt8)
    (b b' : Board) : Prop where
  chip : b'.chip i = c
  marks : b'.kernel.marks d = b.kernel.marks d ++ said
  heard : b'.kernel.heard d = b.kernel.heard d ++ got

theorem Dialogue.trans (h : Dialogue i d c said got b b₁)
    (h' : Dialogue i d c' said' got' b₁ b') :
    Dialogue i d c' (said ++ said') (got ++ got') b b' where
  chip := h'.chip
  marks := by rw [h'.marks, h.marks, List.append_assoc]
  heard := by rw [h'.heard, h.heard, List.append_assoc]

/-- A transfer was started. When it is complete, `said` went out and `answer` holds of what came
back. -/
def Converses (i : Nat) (c : Chip) (said : List ChipMark)
    (answer : List UInt8 → Board → Prop) (b b₁ : Board) : Prop :=
  (b₁.masters.get c.device.bus).status = .inProgress ∧
    ∀ b₂, ChipTurns i b₁ b₂ → (b₂.masters.get c.device.bus).status = .ok →
      ∃ got, Dialogue i c.device c said got b b₂ ∧ answer got b₂

theorem Dialogue.converses {answer : List UInt8 → Board → Prop} {b₂ : Board}
    (h : Dialogue i c.device c said [] b b₁) (h' : Converses i c said' answer b₁ b₂) :
    Converses i c (said ++ said') answer b b₂ := by
  obtain ⟨busy, complete⟩ := h'
  refine ⟨busy, fun b₃ turns done => ?_⟩
  obtain ⟨got, talk, answered⟩ := complete b₃ turns done
  exact ⟨got, h.trans talk, answered⟩

/-- A transfer out of the scratch cells and into them. -/
theorem chip_transfer (i : Nat) (b : Board) {t : Transfer} (accepted : t.fault? = none)
    (full : t.Full) (separate : ∀ a ∈ t.lent, a ∉ t.targets)
    (inside : ∀ a, a ∈ t.lent ∨ a ∈ t.targets → (b.chip i).Owns a) :
    ∃ b₁, start (b.chip i).device.bus t b = .ok () b₁ ∧
      Converses i (b.chip i) ((t.outgoing b.memory).map .sent) (fun got b₂ =>
        got.length = (t.outgoing b.memory).length ∧
        ∀ k a, t.targets[k]? = some a → a ∉ t.targets.drop (k + 1) →
          got[k]? = some (b₂.memory.get a)) b b₁ := by
  have covers : Covers (b.chip i).Owns t.beats := by
    intro beat mem a out
    exact inside a (Or.inl (Transfer.lent_of_beat mem out))
  obtain ⟨b₁, started, serving⟩ := start_ok (b.chip i).device.bus b accepted covers
  have begun : Speaks i b b₁ := (plain_start accepted started).speaks i
  have busy : (b₁.masters.get (b.chip i).device.bus).status = .inProgress := by
    obtain ⟨wires, -, going⟩ := serving
    exact going.busy
  refine ⟨b₁, started, busy, fun b₂ turns done => ?_⟩
  obtain ⟨speaks, turns⟩ := chipTurns_speak turns
  rw [begun.chip] at turns
  obtain ⟨chip, wires, grown, marks⟩ := begun.trans speaks
  rcases turns_keep turns covers serving with ⟨all, -, going⟩ | ⟨all, split, finished⟩
  · rw [going.busy] at done
    cases done
  -- The chip and the transfer were followed apart, but they saw the same traffic.
  obtain rfl : wires = all := List.append_cancel_left (grown.symm.trans split)
  obtain ⟨out, count, stored, -⟩ := Transfer.of_complete accepted full separate
    (fun a mem => inside a (Or.inr mem)) finished.complete
  rw [out] at marks count
  refine ⟨Wire.received wires, ⟨chip, marks, ?_⟩, count, stored⟩
  rw [Kernel.heard, grown, Wire.received_append, Kernel.heard]

theorem store_before {start a : Nat} (before : a < start) (memory : Memory) (n : Nat)
    (bytes : List UInt8) : (Span.store memory ⟨start, n⟩ bytes).get a = memory.get a := by
  induction n generalizing start memory bytes with
  | zero => cases bytes <;> rfl
  | succ n ih =>
    cases bytes with
    | nil => rfl
    | cons byte bytes =>
      rw [Span.store, ih (by omega), Bank.get_set_ne _ _ (by omega)]

/-- What was stored in a span that it fits is there. -/
theorem load_store (memory : Memory) (start : Nat) (bytes : List UInt8) :
    Span.load ⟨start, bytes.length⟩ (Span.store memory ⟨start, bytes.length⟩ bytes) = bytes := by
  induction bytes generalizing memory start with
  | nil => rfl
  | cons byte bytes ih =>
    have first : (Span.store (memory.set start byte) ⟨start + 1, bytes.length⟩ bytes).get start =
        byte := by
      rw [store_before (Nat.lt_succ_self start), Bank.get_set_same]
    have rest := ih (memory.set start byte) (start + 1)
    simp only [Span.load, Span.addresses] at rest ⊢
    rw [List.length_cons, List.range'_succ, List.map_cons, Span.store, first, rest]

theorem outgoing_stored (memory : Memory) (start : Nat) {bytes : List UInt8}
    (some_bytes : bytes ≠ []) :
    (Transfer.write (.cells ⟨start, bytes.length⟩)).outgoing
      (Span.store memory ⟨start, bytes.length⟩ bytes) = bytes := by
  rw [Transfer.outgoing, Source.load, load_store, padded, if_neg (by simpa using some_bytes)]

theorem owns_of_write {n : Nat} (fits : n ≤ 5) (a : Nat)
    (mem : a ∈ (Transfer.write (.cells ⟨c.scratch, n⟩)).lent ∨
      a ∈ (Transfer.write (.cells ⟨c.scratch, n⟩)).targets) : c.Owns a := by
  rcases mem with lent | target
  · have inside : c.scratch ≤ a ∧ a < c.scratch + n := by
      simpa [Transfer.lent, Span.addresses, List.mem_range'_1] using lent
    exact ⟨inside.1, by omega⟩
  · cases target

/-- Bytes sent from the scratch cells; as many come back and are dropped. -/
theorem sendScratch_converses (now : b.chip i = c) (bytes : List UInt8) (some : bytes ≠ [])
    (fits : bytes.length ≤ 5) :
    ∃ b₁, sendScratch i bytes b = .ok () b₁ ∧
      Converses i c (bytes.map .sent) (fun got _ => got.length = bytes.length) b b₁ := by
  subst now
  let span : Span := ⟨(b.chip i).scratch, bytes.length⟩
  obtain ⟨b₁, started, busy, complete⟩ := chip_transfer i
    { b with memory := span.store b.memory bytes } (t := .write (.cells span)) rfl trivial
    (fun a _ mem => by cases mem) (owns_of_write fits)
  rw [outgoing_stored b.memory (b.chip i).scratch some] at complete
  refine ⟨b₁, started, busy, fun b₂ turns done => ?_⟩
  obtain ⟨got, talk, count, -⟩ := complete b₂ turns done
  exact ⟨got, ⟨talk.chip, talk.marks, talk.heard⟩, count⟩

/-- A response read into the scratch cells. -/
theorem readScratch_converses (now : b.chip i = c) (n : Nat) (some : n ≠ 0) (fits : n ≤ 5) :
    ∃ b₁, readScratch i n b = .ok () b₁ ∧
      Converses i c (List.replicate n (.sent 0))
        (fun got b₂ => got = (List.range n).map fun k => b₂.scratch i k) b b₁ := by
  subst now
  have out : (Transfer.read ⟨(b.chip i).scratch, n⟩).outgoing b.memory = List.replicate n 0 := by
    rw [Transfer.outgoing, padded, if_neg (by simpa using some)]
  obtain ⟨b₁, started, busy, complete⟩ := chip_transfer i b
    (t := .read ⟨(b.chip i).scratch, n⟩) rfl trivial (fun a mem => by cases mem) fun a mem => by
      rcases mem with lent | target
      · cases lent
      · have inside : (b.chip i).scratch ≤ a ∧ a < (b.chip i).scratch + n := by
          simpa [Transfer.targets, Span.addresses, List.mem_range'_1] using target
        exact ⟨inside.1, by omega⟩
  rw [out, List.map_replicate] at complete
  refine ⟨b₁, started, busy, fun b₂ turns done => ?_⟩
  obtain ⟨got, talk, count, stored⟩ := complete b₂ turns done
  refine ⟨got, talk, List.ext_getElem? fun k => ?_⟩
  rw [List.length_replicate] at count
  by_cases inside : k < n
  · have target : (Transfer.read ⟨(b.chip i).scratch, n⟩).targets[k]? =
        Option.some ((b.chip i).scratch + k) := by
      simp [Transfer.targets, Span.addresses, inside]
    rw [stored k _ target ?_, List.getElem?_map, List.getElem?_range inside, Option.map_some,
      scratch, talk.chip]
    simp [Transfer.targets, Span.addresses, List.mem_range'_1]
  · simp [count, inside]

end Board

end CoopKernel
