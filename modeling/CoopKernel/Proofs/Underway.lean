import CoopKernel.Proofs.Beats

/-!
# A transfer under way

Where a transfer stands between two accesses to the data register: the beats
that are through, the one whose byte is still out, and the beats to come. The
wire so far and the memory are functions of these and of the bytes received.

Memory is only followed on a set of cells, those that nobody else touches while
the transfer runs; elsewhere it may change at any time.
-/

namespace CoopKernel

namespace Wire

def sent? : Wire → Option UInt8
  | tx byte => some byte
  | _ => none

def received? : Wire → Option UInt8
  | rx byte => some byte
  | _ => none

def sent (wires : List Wire) : List UInt8 := wires.filterMap sent?

def received (wires : List Wire) : List UInt8 := wires.filterMap received?

@[simp] theorem sent_append (ws more : List Wire) : sent (ws ++ more) = sent ws ++ sent more :=
  List.filterMap_append

@[simp] theorem received_append (ws more : List Wire) :
    received (ws ++ more) = received ws ++ received more :=
  List.filterMap_append

end Wire

namespace Spi

open Wire (sent received)

/-- `air` is the beat in flight, known by the cell its reply goes to. -/
def Underway (kept : Nat → Prop) (start : Memory) (plan : List Beat) (wires : List Wire)
    (memory : Memory) (air : Option (Option Nat)) (todo : List Beat) : Prop :=
  ∃ before flying : List Beat,
    plan = before ++ flying ++ todo ∧ flying.map Beat.into = air.toList ∧
    before.length = (received wires).length ∧
    sent wires = clocked start (before ++ flying) (received wires) ∧
    ∀ a, kept a → memory.get a = (settle start before (received wires)).get a

def Covers (kept : Nat → Prop) (plan : List Beat) : Prop :=
  ∀ beat ∈ plan, ∀ a, beat.out = .cell a → kept a

variable {kept : Nat → Prop} {start memory memory' : Memory} {plan todo : List Beat}
variable {wires : List Wire} {air : Option (Option Nat)} {slot : Option Nat} {beat : Beat}

theorem get_deposit_congr {m m' : Memory} {a : Nat} (same : m.get a = m'.get a)
    (slot : Option Nat) (byte : UInt8) :
    (deposit m slot byte).get a = (deposit m' slot byte).get a := by
  cases slot with
  | none => exact same
  | some address =>
    simp only [deposit, Bank.get_set]
    split
    · rfl
    · exact same

theorem value_congr {m m' : Memory} {out : Outgoing}
    (same : ∀ a, out = .cell a → m.get a = m'.get a) : out.value m = out.value m' := by
  cases out with
  | byte b => rfl
  | cell a => exact same a rfl

theorem underway_start (plan : List Beat) : Underway kept start plan [] start none plan :=
  ⟨[], [], rfl, rfl, rfl, rfl, fun _ _ => by cases plan <;> rfl⟩

/-- Others may change every cell that is not kept. -/
theorem Underway.others (h : Underway kept start plan wires memory air todo)
    (same : ∀ a, kept a → memory'.get a = memory.get a) :
    Underway kept start plan wires memory' air todo := by
  obtain ⟨before, flying, split, slots, count, out, cells⟩ := h
  exact ⟨before, flying, split, slots, count, out, fun a ha => (same a ha).trans (cells a ha)⟩

theorem Underway.checked (h : Underway kept start plan wires memory air todo) (misses : Nat)
    (hit : Bool) : Underway kept start plan (wires ++ [.checked misses hit]) memory air todo := by
  have hs : sent [.checked misses hit] = [] := rfl
  have hr : received [.checked misses hit] = [] := rfl
  simp only [Underway, Wire.sent_append, Wire.received_append, hs, hr, List.append_nil]
  exact h

/-- The byte in flight comes back, and no byte follows it. -/
theorem Underway.land (h : Underway kept start plan wires memory (some slot) todo)
    (byte : UInt8) :
    Underway kept start plan (wires ++ [.rx byte]) (deposit memory slot byte) none todo := by
  obtain ⟨before, flying, split, slots, count, out, cells⟩ := h
  obtain ⟨last, rfl, rfl⟩ : ∃ last : Beat, flying = [last] ∧ last.into = slot := by
    simpa [List.map_eq_cons_iff] using slots
  have hs : sent (wires ++ [.rx byte]) = sent wires := by simp [sent, Wire.sent?]
  have hr : received (wires ++ [.rx byte]) = received wires ++ [byte] := Wire.received_append ..
  refine ⟨before ++ [last], [], by simpa using split, rfl, ?_, ?_, ?_⟩
  · simp [hr, count]
  · rw [hs, out, hr, List.append_nil]
    refine (clocked_receive start byte ?_).symm
    simp [count]
  · intro a ha
    rw [hr, settle_snoc start last byte count]
    exact get_deposit_congr (cells a ha) last.into byte

/-- With nothing in flight, the next byte goes out. A byte read from memory goes out this way
only as the first of all. -/
theorem Underway.launch (h : Underway kept start plan wires memory none (beat :: todo))
    (covers : Covers kept plan) (first : (∃ b, beat.out = .byte b) ∨ received wires = []) :
    Underway kept start plan (wires ++ [.tx (beat.out.value memory)]) memory
      (some beat.into) todo := by
  obtain ⟨before, flying, split, slots, count, out, cells⟩ := h
  obtain rfl : flying = [] := by simpa using slots
  have hs : sent (wires ++ [.tx (beat.out.value memory)]) =
      sent wires ++ [beat.out.value memory] := Wire.sent_append ..
  have hr : received (wires ++ [.tx (beat.out.value memory)]) = received wires := by
    simp [received, Wire.received?]
  rw [List.append_nil] at split out
  refine ⟨before, [beat], by simpa using split, rfl, by rw [hr, count], ?_, by rwa [hr]⟩
  rw [hs, hr, out, clocked_snoc start beat (Nat.le_of_eq count.symm)]
  congr 2
  rcases first with ⟨b, hb⟩ | none_yet
  · rw [hb]
    rfl
  · rw [none_yet] at cells
    rw [none_yet, List.take_nil]
    have mem : beat ∈ plan := by
      rw [split]
      simp
    exact value_congr fun a ha => cells a (covers beat mem a ha)

/-- The byte in flight comes back and the next one, loaded before, goes out. -/
theorem Underway.step (h : Underway kept start plan wires memory (some slot) (beat :: todo))
    (covers : Covers kept plan) (byte : UInt8) :
    Underway kept start plan (wires ++ [.rx byte, .tx (beat.out.value memory)])
      (deposit memory slot byte) (some beat.into) todo := by
  obtain ⟨before, flying, split, slots, count, out, cells⟩ := h
  obtain ⟨last, rfl, rfl⟩ : ∃ last : Beat, flying = [last] ∧ last.into = slot := by
    simpa [List.map_eq_cons_iff] using slots
  have hs : sent (wires ++ [.rx byte, .tx (beat.out.value memory)]) =
      sent wires ++ [beat.out.value memory] := Wire.sent_append ..
  have hr : received (wires ++ [.rx byte, .tx (beat.out.value memory)]) =
      received wires ++ [byte] := Wire.received_append ..
  have enough : (received wires ++ [byte]).length ≤ (before ++ [last]).length := by simp [count]
  refine ⟨before ++ [last], [beat], by simpa using split, rfl, by simp [hr, count], ?_, ?_⟩
  · rw [hs, hr, out, clocked_snoc start beat enough,
      clocked_receive start byte (by simp [count])]
    congr 2
    have shorter : (received wires ++ [byte]).take ((before ++ [last]).length - 1) =
        received wires := by
      rw [List.length_append, List.length_singleton, Nat.add_sub_cancel, count,
        List.take_left]
    have mem : beat ∈ plan := by
      rw [split]
      simp
    rw [shorter, settle_append start [last] (Nat.le_of_eq count.symm)]
    exact value_congr fun a ha => cells a (covers beat mem a ha)
  · intro a ha
    rw [hr, settle_snoc start last byte count]
    exact get_deposit_congr (cells a ha) last.into byte

/-- At the end every beat has sent its byte and received one. -/
theorem Underway.complete (h : Underway kept start plan wires memory none []) :
    (received wires).length = plan.length ∧ sent wires = clocked start plan (received wires) ∧
      ∀ a, kept a → memory.get a = (settle start plan (received wires)).get a := by
  obtain ⟨before, flying, split, slots, count, out, cells⟩ := h
  obtain rfl : flying = [] := by simpa using slots
  simp only [List.append_nil] at split out
  subst split
  exact ⟨count.symm, out, cells⟩

/-- What came back for the last beat that stores in a cell is there. -/
theorem Underway.stored (h : Underway kept start plan wires memory none []) {k a : Nat}
    (ha : kept a) (slot : (plan.map Beat.into)[k]? = some (some a))
    (last : some a ∉ (plan.map Beat.into).drop (k + 1)) :
    (received wires)[k]? = some (memory.get a) := by
  obtain ⟨count, -, cells⟩ := h.complete
  have inside : k < (received wires).length := by
    rw [count]
    simpa using (List.getElem?_eq_some_iff.mp slot).1
  have came : (received wires)[k]? = some (received wires)[k] := List.getElem?_eq_getElem inside
  rw [came, cells a ha, settle_hit slot ?_ came]
  intro beat mem into
  apply last
  rw [← List.map_drop]
  exact List.mem_map.mpr ⟨beat, mem, into⟩

/-- Until then, what has gone out is the front of it. -/
theorem Underway.so_far (h : Underway kept start plan wires memory air todo) :
    sent wires <+: clocked start plan (received wires) := by
  obtain ⟨before, flying, split, slots, count, out, cells⟩ := h
  rw [out, split]
  refine clocked_more start todo ?_
  rw [← count, List.length_append]
  exact Nat.le_add_right ..

/-- What is in flight or to come belongs to the plan. -/
theorem Underway.slots (h : Underway kept start plan wires memory air todo)
    {slot : Option Nat} (mem : slot ∈ air.toList ++ todo.map Beat.into) :
    slot ∈ plan.map Beat.into := by
  obtain ⟨before, flying, split, slots, count, out, cells⟩ := h
  rw [split, List.append_assoc, List.map_append, List.map_append, slots]
  exact List.mem_append_right _ mem

/-- The rest of a transfer, seen as a transfer that starts now. -/
theorem underway_rest (memory : Memory) (air : Option (Option Nat)) (todo : List Beat) :
    Underway (fun _ => True) memory (air.toList.map (Beat.mk (.byte 0)) ++ todo)
      (air.toList.map fun _ => .tx 0) memory air todo := by
  refine ⟨[], air.toList.map (Beat.mk (.byte 0)), rfl, ?_, ?_, ?_, fun a _ => ?_⟩
  · cases air <;> rfl
  · cases air <;> rfl
  · cases air <;> rfl
  · cases air <;> rfl

theorem Underway.frame (h : Underway kept start plan wires memory air todo) {a : Nat}
    (ha : kept a) (miss : ∀ beat ∈ plan, beat.into ≠ some a) : memory.get a = start.get a := by
  obtain ⟨before, flying, split, slots, count, out, cells⟩ := h
  rw [cells a ha]
  refine settle_miss fun beat mem => miss beat ?_
  rw [split]
  exact List.mem_append_left _ (List.mem_append_left _ mem)

end Spi

end CoopKernel
