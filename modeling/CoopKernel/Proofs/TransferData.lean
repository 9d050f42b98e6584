import CoopKernel.Proofs.Underway

/-!
# What a transfer sends and stores

The beats of a transfer send its write buffers one after the other, or as many
zeros as it reads, and store into the cells of its read buffers one after the
other. A single empty buffer is the exception: it sends one zero, and what comes
back is dropped.
-/

namespace CoopKernel.Spi

def padded (bytes : List UInt8) : List UInt8 := if bytes.isEmpty then [0] else bytes

namespace Transfer

def outgoing (memory : Memory) : Transfer → List UInt8
  | .write data | .exchange data _ => padded (data.load memory)
  | .read into => padded (List.replicate into.length 0)
  | .writeList data | .exchangeList data _ => data.flatten
  | .readList into => into.flatMap fun i => List.replicate i.length 0

def targets : Transfer → List Nat
  | .write _ | .writeList _ => []
  | .read into | .exchange _ into => into.addresses
  | .readList into | .exchangeList _ into => into.flatMap Span.addresses

def Full : Transfer → Prop
  | .write _ | .read _ | .exchange _ _ => True
  | .writeList data | .exchangeList data _ => ∀ d ∈ data, d ≠ []
  | .readList into => ∀ i ∈ into, i.length ≠ 0

end Transfer

variable {memory : Memory} {lanes : Lanes}

theorem load_next (memory : Memory) {source : Source} {n : Nat} (length : source.length = n + 1) :
    source.load memory = source.next.value memory :: source.rest.load memory ∧
      source.rest.length = n := by
  cases source with
  | bytes data =>
    obtain _ | ⟨b, data⟩ := data
    · cases length
    exact ⟨rfl, Nat.succ.inj length⟩
  | cells span =>
    obtain ⟨first, _ | n'⟩ := span
    · cases length
    exact ⟨rfl, Nat.succ.inj length⟩

theorem line_out_on (on : lanes.write = true) {n : Nat} {write : Source} (read : Span)
    (length : write.length = n) :
    (line lanes n write read).map (fun beat => beat.out.value memory) = write.load memory := by
  induction n generalizing write read with
  | zero =>
    cases write with
    | bytes data => exact (List.length_eq_zero_iff.mp length).symm
    | cells span =>
      obtain ⟨first, _ | n'⟩ := span
      · rfl
      · cases length
  | succ n ih =>
    obtain ⟨load, rest⟩ := load_next memory length
    simp only [line, Lanes.out, Lanes.sent, on, if_true, List.map_cons, load, ih _ rest]

theorem line_out_off (off : lanes.write = false) (n : Nat) (write : Source) (read : Span) :
    (line lanes n write read).map (fun beat => beat.out.value memory) = List.replicate n 0 := by
  induction n generalizing write read with
  | zero => rfl
  | succ n ih =>
    rw [line, List.map_cons, ih, List.replicate_succ, Lanes.out, off]
    rfl

theorem line_into_on (on : lanes.read = true) {n : Nat} (write : Source) {read : Span}
    (length : read.length = n) :
    (line lanes n write read).map Beat.into = read.addresses.map some := by
  obtain ⟨first, m⟩ := read
  obtain rfl : n = m := length.symm
  induction n generalizing write first with
  | zero => rfl
  | succ n ih =>
    have later := ih (lanes.sent write) (first + 1) rfl
    simp only [line, Lanes.into, Lanes.filled, on, if_true, List.map_cons, Span.rest]
    rw [later]
    rfl

theorem line_into_off (off : lanes.read = false) (n : Nat) (write : Source) (read : Span) :
    (line lanes n write read).map Beat.into = List.replicate n none := by
  induction n generalizing write read with
  | zero => rfl
  | succ n ih =>
    rw [line, List.map_cons, ih, List.replicate_succ, Lanes.into, off]
    rfl

theorem buffer_of_ne {n : Nat} (full : n ≠ 0) (write : Source) (read : Span) :
    buffer lanes n write read = line lanes n write read := by
  have : max n 1 = n := by omega
  rw [buffer, this]

theorem buffer_out_on (on : lanes.write = true) {n : Nat} {write : Source} (read : Span)
    (length : write.length = n) :
    (buffer lanes n write read).map (fun beat => beat.out.value memory) =
      padded (write.load memory) := by
  cases n with
  | zero =>
    have none_left : write.load memory = [] := by
      rw [← line_out_on on read length, line, List.map_nil]
    have zero : write.next.value memory = 0 := by
      cases write with
      | bytes data =>
        obtain rfl : data = [] := List.length_eq_zero_iff.mp length
        rfl
      | cells span =>
        obtain ⟨first, _ | n⟩ := span
        · rfl
        · cases length
    rw [none_left]
    change [(lanes.out write).value memory] = [0]
    rw [Lanes.out, if_pos on, zero]
  | succ n =>
    rw [buffer_of_ne n.succ_ne_zero, line_out_on on read length, (load_next memory length).1]
    rfl

theorem buffer_into_on (on : lanes.read = true) {n : Nat} (write : Source) {read : Span}
    (length : read.length = n) :
    ∃ j, (buffer lanes n write read).map Beat.into =
      read.addresses.map some ++ List.replicate j none := by
  cases n with
  | zero =>
    obtain ⟨first, _ | n⟩ := read
    · refine ⟨1, ?_⟩
      change [lanes.into ⟨first, 0⟩] = [none]
      rw [Lanes.into, if_pos on]
      rfl
    · cases length
  | succ n =>
    refine ⟨0, ?_⟩
    rw [buffer_of_ne n.succ_ne_zero, line_into_on on write length]
    simp

theorem line_cells {n : Nat} {write : Source} {read : Span} {beat : Beat} {a : Nat}
    (mem : beat ∈ line lanes n write read) (out : beat.out = .cell a) :
    ∃ span, write = .cells span ∧ a ∈ span.addresses := by
  induction n generalizing write read with
  | zero => cases mem
  | succ n ih =>
    cases on : lanes.write with
    | false =>
      rw [line, Lanes.out, Lanes.sent, on] at mem
      rcases List.mem_cons.mp mem with rfl | later
      · cases out
      · exact ih later
    | true =>
      rw [line, Lanes.out, Lanes.sent, on] at mem
      cases write with
      | bytes data =>
        rcases List.mem_cons.mp mem with rfl | later
        · cases data <;> cases out
        · obtain ⟨span, same, -⟩ := ih later
          cases same
      | cells span =>
        refine ⟨span, rfl, ?_⟩
        obtain ⟨first, _ | m⟩ := span
        · rcases List.mem_cons.mp mem with rfl | later
          · cases out
          · obtain ⟨span, same, inside⟩ := ih later
            cases same
            exact inside
        · rw [Span.addresses, List.range'_succ]
          rcases List.mem_cons.mp mem with rfl | later
          · cases out
            exact List.mem_cons_self
          · obtain ⟨span, same, inside⟩ := ih later
            cases same
            exact List.mem_cons_of_mem first inside

namespace Transfer

theorem pairs_of_accepted {data : List (List UInt8)} {into : List Span}
    (accepted : (exchangeList data into).fault? = none) :
    data.length = into.length ∧ ∀ d i, (d, i) ∈ data.zip into → d.length = i.length := by
  simp only [fault?] at accepted
  split at accepted
  · cases accepted
  split at accepted
  · cases accepted
  split at accepted
  · rename_i lengths pairs
    refine ⟨by simpa using lengths, fun d i mem => ?_⟩
    simpa using List.all_eq_true.mp pairs (d, i) mem
  · cases accepted

/-- Without empty buffers the beats send the outgoing bytes one by one. -/
theorem beats_out {t : Transfer} (accepted : t.fault? = none) (full : t.Full) :
    t.beats.map (fun beat => beat.out.value memory) = t.outgoing memory := by
  cases t with
  | write data => exact buffer_out_on rfl {} rfl
  | read into =>
    rw [beats, buffer, line_out_off rfl, outgoing]
    cases into.length with
    | zero => rfl
    | succ n =>
      have : max (n + 1) 1 = n + 1 := by omega
      rw [this]
      rfl
  | exchange data into => exact buffer_out_on rfl into rfl
  | writeList data =>
    rw [beats, List.map_flatMap, outgoing, ← List.flatMap_id]
    refine List.flatMap_congr fun d hd => ?_
    have filled : d.length ≠ 0 := fun h => full d hd (List.length_eq_zero_iff.mp h)
    rw [buffer_of_ne filled]
    exact line_out_on rfl {} rfl
  | readList into =>
    rw [beats, List.map_flatMap, outgoing]
    refine List.flatMap_congr fun i hi => ?_
    rw [buffer_of_ne (full i hi)]
    exact line_out_off rfl ..
  | exchangeList data into =>
    obtain ⟨lengths, pairs⟩ := pairs_of_accepted accepted
    rw [beats, List.map_flatMap, outgoing]
    have first : (data.zip into).map Prod.fst = data :=
      List.map_fst_zip (Nat.le_of_eq lengths)
    nth_rewrite 2 [← first]
    rw [← List.flatMap_def]
    refine List.flatMap_congr ?_
    rintro ⟨d, i⟩ mem
    have filled : d.length ≠ 0 := fun h =>
      full d (List.of_mem_zip mem).1 (List.length_eq_zero_iff.mp h)
    change (buffer ⟨true, true, true⟩ d.length (.bytes d) i).map _ = d
    rw [buffer_of_ne filled]
    exact line_out_on rfl i rfl

/-- Without empty buffers the beats fill the targets one by one, and drop what comes in after them.
-/
theorem beats_into {t : Transfer} (accepted : t.fault? = none) (full : t.Full) :
    ∃ j, t.beats.map Beat.into = t.targets.map some ++ List.replicate j none := by
  cases t with
  | write data => exact ⟨_, line_into_off rfl ..⟩
  | read into => exact buffer_into_on rfl .empty rfl
  | exchange data into =>
    simp only [fault?] at accepted
    split at accepted
    · rename_i lengths
      exact buffer_into_on rfl data lengths.symm
    · cases accepted
  | writeList data =>
    refine ⟨_, List.eq_replicate_of_mem fun slot mem => ?_⟩
    rw [beats, List.map_flatMap] at mem
    obtain ⟨d, -, inside⟩ := List.mem_flatMap.mp mem
    rw [buffer, line_into_off rfl] at inside
    exact List.eq_of_mem_replicate inside
  | readList into =>
    refine ⟨0, ?_⟩
    rw [beats, List.map_flatMap, targets, List.map_flatMap, List.replicate_zero, List.append_nil]
    refine List.flatMap_congr fun i hi => ?_
    rw [buffer_of_ne (full i hi)]
    exact line_into_on rfl .empty rfl
  | exchangeList data into =>
    refine ⟨0, ?_⟩
    obtain ⟨lengths, pairs⟩ := pairs_of_accepted accepted
    have second : (data.zip into).map Prod.snd = into :=
      List.map_snd_zip (Nat.le_of_eq lengths.symm)
    rw [beats, List.map_flatMap, targets, List.replicate_zero, List.append_nil]
    nth_rewrite 2 [← second]
    rw [List.flatMap_map, List.map_flatMap]
    refine List.flatMap_congr ?_
    rintro ⟨d, i⟩ mem
    have filled : d.length ≠ 0 := fun h =>
      full d (List.of_mem_zip mem).1 (List.length_eq_zero_iff.mp h)
    change (buffer ⟨true, true, true⟩ d.length (.bytes d) i).map _ = i.addresses.map some
    rw [buffer_of_ne filled]
    exact line_into_on rfl (.bytes d) (pairs d i mem).symm

theorem lent_of_beat {t : Transfer} {beat : Beat} {a : Nat} (mem : beat ∈ t.beats)
    (out : beat.out = .cell a) : a ∈ t.lent := by
  cases t with
  | write data =>
    obtain ⟨span, rfl, inside⟩ := line_cells mem out
    exact inside
  | exchange data into =>
    obtain ⟨span, rfl, inside⟩ := line_cells mem out
    exact inside
  | read into =>
    obtain ⟨span, same, -⟩ := line_cells mem out
    cases same
  | writeList data =>
    obtain ⟨d, -, inside⟩ := List.mem_flatMap.mp mem
    obtain ⟨span, same, -⟩ := line_cells inside out
    cases same
  | readList into =>
    obtain ⟨i, -, inside⟩ := List.mem_flatMap.mp mem
    obtain ⟨span, same, -⟩ := line_cells inside out
    cases same
  | exchangeList data into =>
    obtain ⟨⟨d, i⟩, -, inside⟩ := List.mem_flatMap.mp mem
    obtain ⟨span, same, -⟩ := line_cells inside out
    cases same

theorem target_of_beat {t : Transfer} {beat : Beat} {a : Nat} (accepted : t.fault? = none)
    (full : t.Full) (mem : beat ∈ t.beats) (into : beat.into = some a) : a ∈ t.targets := by
  obtain ⟨j, slots⟩ := beats_into accepted full
  have slot : some a ∈ t.beats.map Beat.into := List.mem_map.mpr ⟨beat, mem, into⟩
  rw [slots] at slot
  simpa using slot

theorem clocked_outgoing {t : Transfer} (start : Memory) (received : List UInt8)
    (accepted : t.fault? = none) (full : t.Full) (separate : ∀ a ∈ t.lent, a ∉ t.targets) :
    clocked start t.beats received = t.outgoing start := by
  rw [clocked_constant, beats_out accepted full]
  intro beat mem a out other mem' into
  exact separate a (lent_of_beat mem out) (target_of_beat accepted full mem' into)

/-- The whole of a finished transfer, for buffers that do not overlap: what went out, how much
came back, and where it is. -/
theorem of_complete {kept : Nat → Prop} {start memory : Memory} {t : Transfer} {wires : List Wire}
    (accepted : t.fault? = none) (full : t.Full) (separate : ∀ a ∈ t.lent, a ∉ t.targets)
    (stored : ∀ a ∈ t.targets, kept a)
    (complete : Underway kept start t.beats wires memory none []) :
    Wire.sent wires = t.outgoing start ∧
      (Wire.received wires).length = (Wire.sent wires).length ∧
      (∀ k a, t.targets[k]? = some a → a ∉ t.targets.drop (k + 1) →
        (Wire.received wires)[k]? = some (memory.get a)) ∧
      ∀ a, kept a → a ∉ t.targets → memory.get a = start.get a := by
  obtain ⟨count, out, cells⟩ := complete.complete
  have same : (Wire.sent wires).length = t.beats.length := by simp [out, clocked]
  refine ⟨out.trans (clocked_outgoing start _ accepted full separate), count.trans same.symm,
    ?_, ?_⟩
  · intro k a target last
    obtain ⟨j, slots⟩ := beats_into accepted full
    have slot : (t.beats.map Beat.into)[k]? = some (some a) := by
      rw [slots, List.getElem?_append_left (by simpa using (List.getElem?_eq_some_iff.mp target).1),
        List.getElem?_map, target]
      rfl
    refine complete.stored (stored a (List.mem_of_getElem? target)) slot fun later => ?_
    rw [slots, List.drop_append] at later
    rcases List.mem_append.mp later with here | padding
    · rw [← List.map_drop] at here
      obtain ⟨_, again, same⟩ := List.mem_map.mp here
      cases same
      exact last again
    · cases List.eq_of_mem_replicate (List.mem_of_mem_drop padding)
  · intro a ha miss
    rw [cells a ha]
    exact settle_miss fun beat mem into => miss (target_of_beat accepted full mem into)

end Transfer

end CoopKernel.Spi
