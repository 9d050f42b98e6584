import CoopKernel.Proofs.TransferRun
import Mathlib.Data.List.GetD

/-!
# Exchanges between overlapping windows

An exchange that sends from memory and stores into it. A byte is loaded one beat
before it is sent, and the byte that comes back is stored one beat after, so a
window that is filled two cells or more behind the cells that are sent overtakes
nothing, and one that lies two cells or more ahead overwrites what is still to
be sent.
-/

namespace CoopKernel

namespace Spi

variable {memory start : Memory} {received bytes : List UInt8} {n w r k a : Nat}

def windowBeats (n w r : Nat) : List Beat :=
  (List.range n).map fun k => ⟨.cell (w + k), some (r + k)⟩

theorem line_windows {lanes : Lanes} (write : lanes.write = true) (read : lanes.read = true)
    (n w r : Nat) : line lanes n (.cells ⟨w, n⟩) ⟨r, n⟩ = windowBeats n w r := by
  induction n generalizing w r with
  | zero => rfl
  | succ n ih =>
    have later := ih (w + 1) (r + 1)
    simp only [line, Lanes.out, Lanes.into, Lanes.sent, Lanes.filled, write, read, if_true,
      Source.next, Source.rest, Span.first?, Span.rest, later]
    simp only [windowBeats, List.range_succ_eq_map, List.map_cons, List.map_map]
    refine congrArg _ (List.map_congr_left fun k _ => ?_)
    simp [Nat.add_comm, Nat.add_left_comm]

theorem exchange_beats (w r : Nat) (some_cells : n ≠ 0) :
    (Transfer.exchange (.cells ⟨w, n⟩) ⟨r, n⟩).beats = windowBeats n w r := by
  change buffer _ n _ _ = _
  rw [buffer_of_ne some_cells, line_windows rfl rfl]

/-- Bytes that have not come back yet leave their cells alone. -/
theorem settle_taken (few : bytes.length ≤ n) :
    settle memory (windowBeats n w r) bytes =
      settle memory (windowBeats bytes.length w r) bytes := by
  have split : windowBeats n w r = windowBeats bytes.length w r ++
      (windowBeats n w r).drop bytes.length := by
    nth_rewrite 1 [← List.take_append_drop bytes.length (windowBeats n w r)]
    rw [windowBeats, ← List.map_take, List.take_range, Nat.min_eq_left few, windowBeats]
  rw [split]
  exact settle_append memory _ (by simp [windowBeats])

theorem settle_before (few : bytes.length ≤ n) (outside : a < r ∨ r + bytes.length ≤ a) :
    (settle memory (windowBeats n w r) bytes).get a = memory.get a := by
  rw [settle_taken few]
  refine settle_miss fun beat mem => ?_
  obtain ⟨j, inside, rfl⟩ := List.mem_map.mp mem
  rw [List.mem_range] at inside
  intro same
  have : r + j = a := Option.some.inj same
  omega

theorem settle_stored (inside : k < n) (came : k < bytes.length) :
    (settle memory (windowBeats n w r) bytes).get (r + k) = bytes[k] := by
  have slot : ((windowBeats n w r).map Beat.into)[k]? = some (some (r + k)) := by
    simp [windowBeats, inside]
  refine settle_hit slot ?_ (List.getElem?_eq_getElem came)
  intro beat mem same
  obtain ⟨j, hj, rfl⟩ := List.mem_iff_getElem.mp mem
  simp only [windowBeats, List.getElem_drop, List.getElem_map, List.getElem_range,
    Option.some.injEq] at same
  omega

/-- What the beats send: a cell that is filled before it is sent gives the byte that came back. -/
theorem clocked_windows (all : received.length = n) :
    clocked start (windowBeats n w r) received = (List.range n).map fun k =>
      if w + 2 ≤ r ∧ r ≤ w + k then received.getD (w + k - r) 0 else start.get (w + k) := by
  refine List.ext_getElem (by simp [clocked, windowBeats]) fun k hk hk' => ?_
  have inside : k < n := by simpa using hk'
  have few : (received.take (k - 1)).length ≤ n := by
    simp only [List.length_take]
    omega
  have listed : k < (windowBeats n w r).length := by simpa [windowBeats] using inside
  have out : (windowBeats n w r)[k].out = .cell (w + k) := by simp [windowBeats]
  simp only [clocked, List.getElem_mapIdx, List.getElem_map, List.getElem_range, out,
    Outgoing.value]
  split
  · rename_i ahead
    have came : w + k - r < (received.take (k - 1)).length := by
      simp only [List.length_take]
      omega
    have cell : w + k = r + (w + k - r) := by omega
    have there : w + k - r < received.length := by omega
    nth_rewrite 1 [cell]
    rw [settle_stored (by omega) came, List.getElem_take, List.getD_eq_getElem _ _ there]
  · refine settle_before few ?_
    simp only [List.length_take]
    omega

end Spi

namespace Board

open Spi

variable {kept : Nat → Prop} {b₁ b₂ : Board} {bus : Nat}

/-- What a finished exchange between two windows of one memory left behind: the k-th byte that came
back is in the k-th cell of the read window, and every cell of the write window was sent as it was
at the start, or as it is now if it lies in a read window that starts two cells later or more. -/
structure Exchanged (bus n w r : Nat) (b b₂ : Board) : Prop where
  wires : ∃ wires, b₂.kernel.wires bus = b.kernel.wires bus ++ wires ∧
    (Wire.received wires).length = max n 1 ∧
    (∀ k < n, (Wire.received wires)[k]? = some (b₂.memory.get (r + k))) ∧
    Wire.sent wires = padded ((List.range n).map fun k =>
      if w + 2 ≤ r ∧ r ≤ w + k then b₂.memory.get (w + k) else b.memory.get (w + k)) ∧
    (r < w + 2 ∨ w + n ≤ r → Wire.sent wires = padded ((Span.mk w n).load b.memory))

theorem padded_map {α : Type} (f : α → UInt8) {list : List α} (some_left : list ≠ []) :
    padded (list.map f) = list.map f := by
  simp [padded, some_left]

theorem load_window (memory : Memory) (w n : Nat) :
    (Span.mk w n).load memory = (List.range n).map fun k => memory.get (w + k) := by
  rw [Span.load, Span.addresses, List.range'_eq_map_range, List.map_map]
  rfl

/-- From the beats of the exchange. -/
theorem exchanged_of_complete {n w r : Nat} {b : Board} {wires : List Wire}
    (stored : ∀ k < n, kept (r + k))
    (split : b₂.kernel.wires bus = b.kernel.wires bus ++ wires)
    (complete : Underway kept b.memory (Transfer.exchange (.cells ⟨w, n⟩) ⟨r, n⟩).beats wires
      b₂.memory none []) : Exchanged bus n w r b b₂ := by
  obtain ⟨count, out, cells⟩ := complete.complete
  refine ⟨wires, split, ?_⟩
  rcases Nat.eq_zero_or_pos n with rfl | some_cells
  · have zero : Wire.sent wires = [0] := by
      rw [out]
      rfl
    refine ⟨count, fun k none_left => absurd none_left (by omega), zero, fun _ => zero⟩
  · rw [exchange_beats w r (by omega)] at count out cells
    have all : (Wire.received wires).length = n := by simpa [windowBeats] using count
    have back : ∀ k < n, b₂.memory.get (r + k) = (Wire.received wires).getD k 0 := by
      intro k inside
      have came : k < (Wire.received wires).length := by omega
      rw [cells _ (stored k inside), settle_stored inside came, List.getD_eq_getElem _ _ came]
    have some_left : List.range n ≠ [] := by simp; omega
    have sent : Wire.sent wires = (List.range n).map fun k =>
        if w + 2 ≤ r ∧ r ≤ w + k then b₂.memory.get (w + k) else b.memory.get (w + k) := by
      rw [out, clocked_windows all]
      refine List.map_congr_left fun k inside => ?_
      rw [List.mem_range] at inside
      refine if_ctx_congr Iff.rfl (fun ahead => ?_) fun _ => rfl
      have cell : r + (w + k - r) = w + k := by omega
      rw [← back (w + k - r) (by omega), cell]
    refine ⟨by omega, ?_, ?_, ?_⟩
    · intro k inside
      have came : k < (Wire.received wires).length := by omega
      rw [back k inside, List.getElem?_eq_getElem came, List.getD_eq_getElem _ _ came]
    · rw [padded_map _ some_left]
      exact sent
    · intro apart
      rw [load_window, padded_map _ some_left, sent]
      refine List.map_congr_left fun k inside => if_neg ?_
      rw [List.mem_range] at inside
      omega

/-- However the windows lie, whatever the ready flag and the budget do. -/
theorem exchange_between_windows (kept : Nat → Prop) (bus : Nat) (b : Board) (n w r : Nat)
    (own : ∀ k < n, kept (w + k) ∧ kept (r + k)) :
    ∃ b₁, Board.start bus (.exchange (.cells ⟨w, n⟩) ⟨r, n⟩) b = .ok () b₁ ∧
      (b₁.masters.get bus).status = .inProgress ∧
      ∀ b₂, Turns kept bus b₁ b₂ → (b₂.masters.get bus).status = .ok →
        Exchanged bus n w r b b₂ := by
  have accepted : (Transfer.exchange (.cells ⟨w, n⟩) ⟨r, n⟩).fault? = none := if_pos rfl
  have covers : Covers kept (Transfer.exchange (.cells ⟨w, n⟩) ⟨r, n⟩).beats := by
    intro beat mem a out
    have lent : a ∈ List.range' w n := Transfer.lent_of_beat mem out
    obtain ⟨k, inside, rfl⟩ := List.mem_range'.mp lent
    simpa using (own k inside).1
  obtain ⟨b₁, started, busy, ended⟩ := start_complete bus b accepted covers
  refine ⟨b₁, started, busy, fun b₂ turns done => ?_⟩
  obtain ⟨wires, split, complete⟩ := ended b₂ turns done
  exact exchanged_of_complete (fun k inside => (own k inside).2) split complete

/-- A read window one cell after the write window still sends the old bytes. -/
theorem exchange_one_cell_later :
    let bus : BusPlan :=
      { budget := ⟨1, by decide⟩, hardware := .scripted (fun n => n % 2 = 1) [0xa1, 0xa2, 0xa3] }
    let b := ({ buses := [bus], buffers := [[1, 2, 3, 4]] } : Plan).bootBoard
    ∃ b₂, transferRuns 0 (.exchange (.cells ⟨0, 3⟩) ⟨1, 3⟩) 6 b = some b₂ ∧
      Exchanged 0 3 0 1 b b₂ ∧ Wire.sent (b₂.kernel.wires 0) = [1, 2, 3] := by
  intro bus b
  obtain ⟨b₁, started, -, ended⟩ := exchange_between_windows (fun _ => True) 0 b 3 0 1
    fun _ _ => ⟨trivial, trivial⟩
  have seen : (transferRuns 0 (.exchange (.cells ⟨0, 3⟩) ⟨1, 3⟩) 6 b).map (fun b₂ =>
      ((b₂.masters.get 0).status, Wire.sent (b₂.kernel.wires 0))) = some (.ok, [1, 2, 3]) := by
    decide +kernel
  obtain ⟨b₂, ran, both⟩ := Option.map_eq_some_iff.mp seen
  obtain ⟨done, sent⟩ := Prod.mk.inj both
  exact ⟨b₂, ran, ended b₂ (turns_of_transferRuns ran started) done, sent⟩

/-- Two cells later, the third byte that goes out is the first that came back. -/
theorem exchange_two_cells_later :
    let bus : BusPlan := { hardware := .scripted (fun _ => true) [0xa1, 0xa2, 0xa3] }
    let b := ({ buses := [bus], buffers := [[1, 2, 3, 4, 5]] } : Plan).bootBoard
    ∃ b₂, transferRuns 0 (.exchange (.cells ⟨0, 3⟩) ⟨2, 3⟩) 1 b = some b₂ ∧
      (b₂.masters.get 0).status = .ok ∧ (Span.mk 0 3).load b.memory = [1, 2, 3] ∧
      Wire.sent (b₂.kernel.wires 0) = [1, 2, 0xa1] := by
  intro bus b
  have seen : (transferRuns 0 (.exchange (.cells ⟨0, 3⟩) ⟨2, 3⟩) 1 b).map (fun b₂ =>
      ((b₂.masters.get 0).status, Wire.sent (b₂.kernel.wires 0))) = some (.ok, [1, 2, 0xa1]) := by
    decide +kernel
  obtain ⟨b₂, ran, both⟩ := Option.map_eq_some_iff.mp seen
  obtain ⟨done, sent⟩ := Prod.mk.inj both
  exact ⟨b₂, ran, done, by decide, sent⟩

end Board

end CoopKernel
