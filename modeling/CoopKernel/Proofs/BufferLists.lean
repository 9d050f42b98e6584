import CoopKernel.Proofs.TransferRun

/-!
# Lists of buffers against single buffers

A transfer of a list takes up one buffer after the other, and a transfer of one
buffer runs through it without a stop. Both do the same when the single buffer is
made up of the buffers of the list, with one zero, or one spare cell, in place of
each empty one: an empty buffer is clocked like an empty transfer.
-/

namespace CoopKernel

namespace Spi

/-- The cells that the bytes of a buffer go to. What comes back for an empty one is dropped. -/
def Span.slots (s : Span) : List (Option Nat) :=
  if s.length = 0 then [none] else s.addresses.map some

/-- The bytes of all buffers, with a zero for an empty one. -/
def joinedBytes (data : List (List UInt8)) : List UInt8 := data.flatMap padded

def joinedSlots (into : List Span) : List (Option Nat) := into.flatMap Span.slots

variable {memory : Memory} {lanes : Lanes} {n : Nat} {data : List (List UInt8)} {into : List Span}

theorem length_padded (bytes : List UInt8) : (padded bytes).length = max bytes.length 1 := by
  cases bytes with
  | nil => rfl
  | cons b bytes => simp [padded]

theorem padded_of_ne {bytes : List UInt8} (some_left : bytes ≠ []) : padded bytes = bytes := by
  simp [padded, some_left]

theorem Span.length_slots (s : Span) : s.slots.length = max s.length 1 := by
  rw [slots]
  split
  · rename_i empty
    simp [empty]
  · simp [Span.addresses]
    omega

theorem flatMap_ne {α β : Type} {f : α → List β} {list : List α} (some_left : list ≠ [])
    (each : ∀ a, f a ≠ []) : list.flatMap f ≠ [] := by
  obtain ⟨a, rest, rfl⟩ := List.exists_cons_of_ne_nil some_left
  rw [List.flatMap_cons]
  exact List.append_ne_nil_of_left_ne_nil (each a) _

theorem joinedBytes_ne (some_buffers : data ≠ []) : joinedBytes data ≠ [] := by
  refine flatMap_ne some_buffers fun d => List.ne_nil_of_length_pos ?_
  rw [length_padded]
  omega

theorem length_joinedSlots_ne (some_buffers : into ≠ []) : (joinedSlots into).length ≠ 0 := by
  have slots : joinedSlots into ≠ [] := by
    refine flatMap_ne some_buffers fun i => List.ne_nil_of_length_pos ?_
    rw [Span.length_slots]
    omega
  simpa using slots

/-- Buffers of the same lengths take the same number of beats. -/
theorem length_joined (same : data.map List.length = into.map Span.length) :
    (joinedBytes data).length = (joinedSlots into).length := by
  induction data generalizing into with
  | nil =>
    have : into = [] := by simpa using same.symm
    subst this
    rfl
  | cons d data ih =>
    obtain _ | ⟨i, into⟩ := into
    · cases same
    obtain ⟨first, rest⟩ := List.cons.inj same
    have later := ih rest
    simp only [joinedBytes, joinedSlots] at later ⊢
    rw [List.flatMap_cons, List.flatMap_cons, List.length_append, List.length_append,
      length_padded, Span.length_slots, first, later]

theorem joinedBytes_of_full (full : ∀ d ∈ data, d ≠ []) : joinedBytes data = data.flatten := by
  rw [joinedBytes, ← List.flatMap_id]
  exact List.flatMap_congr fun d mem => padded_of_ne (full d mem)

theorem joinedSlots_of_full (full : ∀ i ∈ into, i.length ≠ 0) :
    joinedSlots into = (into.flatMap Span.addresses).map some := by
  rw [joinedSlots, List.map_flatMap]
  exact List.flatMap_congr fun i mem => if_neg (full i mem)

theorem buffer_slots (on : lanes.read = true) (write : Source) {read : Span}
    (length : read.length = n) : (buffer lanes n write read).map Beat.into = read.slots := by
  cases n with
  | zero =>
    obtain ⟨first, _ | n⟩ := read
    · change [lanes.into ⟨first, 0⟩] = [none]
      rw [Lanes.into, if_pos on]
      rfl
    · cases length
  | succ n =>
    rw [buffer_of_ne n.succ_ne_zero, line_into_on on write length, Span.slots, if_neg (by omega)]

namespace Transfer

theorem writeList_out (data : List (List UInt8)) :
    (writeList data).beats.map (fun beat => beat.out.value memory) = joinedBytes data := by
  rw [beats, List.map_flatMap, joinedBytes]
  exact List.flatMap_congr fun d _ => buffer_out_on rfl {} rfl

theorem readList_slots (into : List Span) :
    (readList into).beats.map Beat.into = joinedSlots into := by
  rw [beats, List.map_flatMap, joinedSlots]
  exact List.flatMap_congr fun i _ => buffer_slots rfl .empty rfl

theorem readList_out (into : List Span) :
    (readList into).beats.map (fun beat => beat.out.value memory) =
      List.replicate (joinedSlots into).length 0 := by
  rw [List.eq_replicate_iff]
  constructor
  · rw [← readList_slots, List.length_map, List.length_map]
  · intro byte mem
    rw [beats, List.map_flatMap] at mem
    obtain ⟨i, -, inside⟩ := List.mem_flatMap.mp mem
    rw [buffer, line_out_off rfl] at inside
    exact List.eq_of_mem_replicate inside

theorem exchangeList_out (lengths : data.length = into.length) :
    (exchangeList data into).beats.map (fun beat => beat.out.value memory) =
      joinedBytes data := by
  have first : (data.zip into).map Prod.fst = data := List.map_fst_zip (Nat.le_of_eq lengths)
  rw [beats, List.map_flatMap, joinedBytes]
  nth_rewrite 2 [← first]
  rw [List.flatMap_map]
  exact List.flatMap_congr fun p _ => buffer_out_on rfl p.2 rfl

theorem exchangeList_slots (accepted : (exchangeList data into).fault? = none) :
    (exchangeList data into).beats.map Beat.into = joinedSlots into := by
  obtain ⟨lengths, pairs⟩ := pairs_of_accepted accepted
  have second : (data.zip into).map Prod.snd = into :=
    List.map_snd_zip (Nat.le_of_eq lengths.symm)
  rw [beats, List.map_flatMap, joinedSlots]
  nth_rewrite 2 [← second]
  rw [List.flatMap_map]
  exact List.flatMap_congr fun p mem => buffer_slots rfl (.bytes p.1) (pairs p.1 p.2 mem).symm

theorem exchangeList_accepted (some_buffers : data ≠ [])
    (same : data.map List.length = into.map Span.length) :
    (exchangeList data into).fault? = none := by
  have lengths : data.length = into.length := by simpa using congrArg List.length same
  have some_into : into ≠ [] := by
    rintro rfl
    exact some_buffers (List.length_eq_zero_iff.mp lengths)
  have pairs : ∀ p ∈ data.zip into, p.1.length = p.2.length := by
    clear some_buffers lengths some_into
    induction data generalizing into with
    | nil => simp
    | cons d data ih =>
      obtain _ | ⟨i, into⟩ := into
      · simp
      obtain ⟨first, rest⟩ := List.cons.inj same
      intro p mem
      rcases List.mem_cons.mp mem with rfl | later
      · exact first
      · exact ih rest p later
  have taken : ¬ (data.isEmpty || into.isEmpty) = true := by simp [some_buffers, some_into]
  rw [fault?, if_neg taken, if_neg (not_not.mpr lengths)]
  exact if_pos (List.all_eq_true.mpr fun p mem => decide_eq_true (pairs p mem))

theorem single_write_out {bytes : List UInt8} (some_left : bytes ≠ []) :
    (write (.bytes bytes)).beats.map (fun beat => beat.out.value memory) = bytes :=
  (buffer_out_on rfl {} rfl).trans (padded_of_ne some_left)

theorem single_exchange_out (into : Span) {bytes : List UInt8} (some_left : bytes ≠ []) :
    (exchange (.bytes bytes) into).beats.map (fun beat => beat.out.value memory) = bytes :=
  (buffer_out_on rfl into rfl).trans (padded_of_ne some_left)

theorem single_read_out (start : Nat) (some_left : n ≠ 0) :
    (read ⟨start, n⟩).beats.map (fun beat => beat.out.value memory) = List.replicate n 0 := by
  change (buffer _ n _ _).map _ = _
  rw [buffer_of_ne some_left]
  exact line_out_off rfl ..

theorem single_read_slots (start : Nat) (some_left : n ≠ 0) :
    (read ⟨start, n⟩).beats.map Beat.into = (List.range' start n).map some :=
  (buffer_slots rfl .empty rfl).trans (if_neg some_left)

theorem single_exchange_slots (start : Nat) {bytes : List UInt8} (same : bytes.length = n)
    (some_left : n ≠ 0) : (exchange (.bytes bytes) ⟨start, n⟩).beats.map Beat.into =
      (List.range' start n).map some :=
  (buffer_slots rfl (.bytes bytes) same.symm).trans (if_neg some_left)

end Transfer

end Spi

namespace Board

open Spi

variable {kept kept' : Nat → Prop} {bus : Nat} {t t' : Transfer} {slots : List (Option Nat)}

/-- Two transfers on boards of their own, the second one with the cells from `s` on: both start, and
however they go on, once both have ended they have sent the same bytes and received as many. If they
received the same bytes, then the cells that the first one filled hold what the cells of the second
one hold, place by place. -/
def Agree (kept kept' : Nat → Prop) (bus : Nat) (t t' : Transfer) (slots : List (Option Nat))
    (s : Nat) : Prop :=
  ∀ b c : Board, ∃ b₁ c₁, Board.start bus t b = .ok () b₁ ∧ Board.start bus t' c = .ok () c₁ ∧
    ∀ b₂ c₂, Turns kept bus b₁ b₂ → (b₂.masters.get bus).status = .ok →
      Turns kept' bus c₁ c₂ → (c₂.masters.get bus).status = .ok →
      ∃ ws ws', b₂.kernel.wires bus = b.kernel.wires bus ++ ws ∧
        c₂.kernel.wires bus = c.kernel.wires bus ++ ws' ∧ Wire.sent ws = Wire.sent ws' ∧
        (Wire.received ws).length = (Wire.received ws').length ∧
        (Wire.received ws = Wire.received ws' → ∀ k a, slots[k]? = some (some a) →
          some a ∉ slots.drop (k + 1) → b₂.memory.get a = c₂.memory.get (s + k))

/-- A transfer of bytes that cannot change meanwhile, by its beats. -/
theorem constant_transfer (bus : Nat) (b : Board) (accepted : t.fault? = none)
    (constant : t.lent = []) :
    ∃ b₁, Board.start bus t b = .ok () b₁ ∧
      ∀ b₂, Turns kept bus b₁ b₂ → (b₂.masters.get bus).status = .ok →
        ∃ ws, b₂.kernel.wires bus = b.kernel.wires bus ++ ws ∧
          Wire.sent ws = t.beats.map (fun beat => beat.out.value b.memory) ∧
          (Wire.received ws).length = t.beats.length ∧
          ∀ k a, kept a → (t.beats.map Beat.into)[k]? = some (some a) →
            some a ∉ (t.beats.map Beat.into).drop (k + 1) →
            (Wire.received ws)[k]? = some (b₂.memory.get a) := by
  have no_cell : ∀ beat ∈ t.beats, ∀ a, beat.out ≠ .cell a := by
    intro beat mem a out
    have lent := Transfer.lent_of_beat mem out
    rw [constant] at lent
    cases lent
  have covers : Covers kept t.beats := fun beat mem a out => absurd out (no_cell beat mem a)
  obtain ⟨b₁, started, -, ended⟩ := start_complete bus b accepted covers
  refine ⟨b₁, started, fun b₂ turns done => ?_⟩
  obtain ⟨ws, split, complete⟩ := ended b₂ turns done
  obtain ⟨count, out, -⟩ := complete.complete
  refine ⟨ws, split, ?_, count, fun k a ha => complete.stored ha⟩
  rw [out]
  exact clocked_constant fun beat mem a cell => absurd cell (no_cell beat mem a)

/-- Two transfers whose beats send the same bytes. -/
theorem agree_of_beats {s : Nat} (accepted : t.fault? = none) (accepted' : t'.fault? = none)
    (constant : t.lent = []) (constant' : t'.lent = [])
    (same : ∀ memory memory', t.beats.map (fun beat => beat.out.value memory) =
      t'.beats.map fun beat => beat.out.value memory')
    (filled : ∀ k a, slots[k]? = some (some a) → kept a ∧ kept' (s + k))
    (into : slots = [] ∨ t.beats.map Beat.into = slots ∧
      t'.beats.map Beat.into = (List.range' s slots.length).map some) :
    Agree kept kept' bus t t' slots s := by
  intro b c
  obtain ⟨b₁, started, ended⟩ := constant_transfer bus b accepted constant
  obtain ⟨c₁, started', ended'⟩ := constant_transfer bus c accepted' constant'
  refine ⟨b₁, c₁, started, started', fun b₂ c₂ turns done turns' done' => ?_⟩
  obtain ⟨ws, split, sent, count, stored⟩ := ended b₂ turns done
  obtain ⟨ws', split', sent', count', stored'⟩ := ended' c₂ turns' done'
  refine ⟨ws, ws', split, split', ?_, ?_, ?_⟩
  · rw [sent, sent']
    exact same b.memory c.memory
  · rw [count, count']
    simpa using congrArg List.length (same b.memory c.memory)
  · intro received k a slot last
    rcases into with rfl | ⟨into, into'⟩
    · cases slot
    · obtain ⟨ours, theirs⟩ := filled k a slot
      have inside : k < slots.length := (List.getElem?_eq_some_iff.mp slot).1
      have here := stored k a ours (into ▸ slot) (into ▸ last)
      have there := stored' k (s + k) theirs
      rw [into'] at there
      have cell : ((List.range' s slots.length).map some)[k]? = some (some (s + k)) := by
        simp [inside]
      have once : some (s + k) ∉ ((List.range' s slots.length).map some).drop (k + 1) := by
        rw [← List.map_drop, List.drop_range']
        intro mem
        obtain ⟨a', later, same⟩ := List.mem_map.mp mem
        have behind := (List.mem_range'_1.mp later).1
        have : a' = s + k := Option.some.inj same
        omega
      rw [received, there cell once] at here
      exact (Option.some.inj here).symm

theorem filled_slots {s : Nat} (ours : ∀ a, some a ∈ slots → kept a)
    (theirs : ∀ k < slots.length, kept' (s + k)) :
    ∀ k a, slots[k]? = some (some a) → kept a ∧ kept' (s + k) := fun k a slot =>
  ⟨ours a (List.mem_of_getElem? slot), theirs k (List.getElem?_eq_some_iff.mp slot).1⟩

/-- A list of buffers, of any lengths, does what one buffer does that has its bytes, with a zero or
a spare cell for each empty buffer; where no buffer is empty, that is the concatenation. -/
theorem lists_agree_with_single_buffers (kept kept' : Nat → Prop) (bus : Nat) :
    (∀ data, data ≠ [] →
      Agree kept kept' bus (.writeList data) (.write (.bytes (joinedBytes data))) [] 0) ∧
    (∀ into s, into ≠ [] → (∀ a, some a ∈ joinedSlots into → kept a) →
      (∀ k < (joinedSlots into).length, kept' (s + k)) →
      Agree kept kept' bus (.readList into) (.read ⟨s, (joinedSlots into).length⟩)
        (joinedSlots into) s) ∧
    (∀ data into s, data ≠ [] → data.map List.length = into.map Span.length →
      (∀ a, some a ∈ joinedSlots into → kept a) →
      (∀ k < (joinedSlots into).length, kept' (s + k)) →
      Agree kept kept' bus (.exchangeList data into)
        (.exchange (.bytes (joinedBytes data)) ⟨s, (joinedSlots into).length⟩)
        (joinedSlots into) s) ∧
    (∀ data, (∀ d ∈ data, d ≠ []) → joinedBytes data = data.flatten) ∧
    ∀ into, (∀ i ∈ into, i.length ≠ 0) →
      joinedSlots into = (into.flatMap Span.addresses).map some := by
  refine ⟨?_, ?_, ?_, fun data => joinedBytes_of_full, fun into => joinedSlots_of_full⟩
  · intro data some_buffers
    have accepted : (Transfer.writeList data).fault? = none := by
      simp [Transfer.fault?, some_buffers]
    refine agree_of_beats accepted rfl rfl rfl ?_ (fun k a slot => by cases slot) (Or.inl rfl)
    intro memory memory'
    rw [Transfer.writeList_out, Transfer.single_write_out (joinedBytes_ne some_buffers)]
  · intro into s some_buffers ours theirs
    have accepted : (Transfer.readList into).fault? = none := by
      simp [Transfer.fault?, some_buffers]
    have cells := length_joinedSlots_ne some_buffers
    refine agree_of_beats accepted rfl rfl rfl ?_ (filled_slots ours theirs)
      (Or.inr ⟨Transfer.readList_slots into, Transfer.single_read_slots s cells⟩)
    intro memory memory'
    rw [Transfer.readList_out, Transfer.single_read_out s cells]
  · intro data into s some_buffers same ours theirs
    have accepted := Transfer.exchangeList_accepted some_buffers same
    have lengths : data.length = into.length := by simpa using congrArg List.length same
    have cells : (joinedSlots into).length ≠ 0 := by
      rw [← length_joined same]
      exact fun none_left => joinedBytes_ne some_buffers (List.length_eq_zero_iff.mp none_left)
    refine agree_of_beats accepted (if_pos (length_joined same)) rfl rfl ?_
      (filled_slots ours theirs) (Or.inr ⟨Transfer.exchangeList_slots accepted,
        Transfer.single_exchange_slots s (length_joined same) cells⟩)
    intro memory memory'
    rw [Transfer.exchangeList_out lengths,
      Transfer.single_exchange_out _ (joinedBytes_ne some_buffers)]

/-- A list with an empty buffer between two of one byte, and one buffer of three bytes. -/
theorem list_with_an_empty_buffer :
    let bus : BusPlan := { hardware := .scripted (fun n => n % 2 = 1) [0xa1, 0xa2, 0xa3] }
    let b := ({ buses := [bus], buffers := [[0, 0, 0, 0, 0]] } : Plan).bootBoard
    ∃ b₂ c₂, transferRuns 0 (.readList [⟨0, 1⟩, ⟨1, 0⟩, ⟨1, 1⟩]) 6 b = some b₂ ∧
      transferRuns 0 (.read ⟨2, 3⟩) 1 b = some c₂ ∧
      Wire.sent (b₂.kernel.wires 0) = Wire.sent (c₂.kernel.wires 0) ∧
      b₂.memory.get 0 = c₂.memory.get 2 ∧ b₂.memory.get 1 = c₂.memory.get 4 := by
  intro bus b
  obtain ⟨-, lists, -⟩ := lists_agree_with_single_buffers (fun _ => True) (fun _ => True) 0
  obtain ⟨b₁, c₁, started, started', ended⟩ := lists [⟨0, 1⟩, ⟨1, 0⟩, ⟨1, 1⟩] 2 (by decide)
    (fun _ _ => trivial) (fun _ _ => trivial) b b
  have list_run : (transferRuns 0 (.readList [⟨0, 1⟩, ⟨1, 0⟩, ⟨1, 1⟩]) 6 b).map (fun b₂ =>
      ((b₂.masters.get 0).status, Wire.received (b₂.kernel.wires 0))) =
      some (.ok, [0xa1, 0xa2, 0xa3]) := by decide +kernel
  have single_run : (transferRuns 0 (.read ⟨2, 3⟩) 1 b).map (fun c₂ =>
      ((c₂.masters.get 0).status, Wire.received (c₂.kernel.wires 0))) =
      some (.ok, [0xa1, 0xa2, 0xa3]) := by decide +kernel
  obtain ⟨b₂, ran, both⟩ := Option.map_eq_some_iff.mp list_run
  obtain ⟨done, came⟩ := Prod.mk.inj both
  obtain ⟨c₂, ran', both'⟩ := Option.map_eq_some_iff.mp single_run
  obtain ⟨done', came'⟩ := Prod.mk.inj both'
  obtain ⟨ws, ws', split, split', sent, -, cells⟩ := ended b₂ c₂
    (turns_of_transferRuns ran started) done (turns_of_transferRuns ran' started') done'
  have whole : b₂.kernel.wires 0 = ws := split
  have whole' : c₂.kernel.wires 0 = ws' := split'
  rw [whole] at came
  rw [whole'] at came'
  have filled := cells (came.trans came'.symm)
  refine ⟨b₂, c₂, ran, ran', ?_, filled 0 0 (by decide) (by decide), filled 2 1 (by decide)
    (by decide)⟩
  rw [whole, whole']
  exact sent

/-- An empty buffer at the front of a list puts a zero on the wire. -/
theorem empty_buffer_sends_a_zero :
    let b := ({ buses := [{}] } : Plan).bootBoard
    let data : List (List UInt8) := [[], [0x55]]
    (transferRuns 0 (.writeList data) 4 b).map (fun b₂ => ((b₂.masters.get 0).status,
        Wire.sent (b₂.kernel.wires 0))) = some (.ok, [0, 0x55]) ∧
      (transferRuns 0 (.write (.bytes data.flatten)) 1 b).map (fun b₂ =>
        ((b₂.masters.get 0).status, Wire.sent (b₂.kernel.wires 0))) = some (.ok, [0x55]) := by
  decide +kernel

end Board

end CoopKernel
