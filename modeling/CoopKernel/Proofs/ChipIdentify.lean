import CoopKernel.Proofs.ChipCalls
import CoopKernel.Proofs.ChipConversations

/-!
# Identifying a chip

How many calls an identification takes is a matter of the status bytes alone: the
calls go through four stages, and each stage fixes what the chip has seen, what it
has answered and where the answer is.
-/

namespace CoopKernel.Board

variable {b b₁ : Board} {i k n : Nat} {r : Nat → UInt8} {c : Chip}

/-- The chip `c` is identified; its answers are `r`, and its first `k` status bytes are busy. -/
inductive Stage (i : Nat) (c : Chip) (r : Nat → UInt8) (k : Nat) (b : Board) :
    Nat → Board → Prop where
  | opening (now : b.chip i = c) : Stage i c r k b 0 b
  | statusAsked {b₁ : Board} (talk : Dialogue i c.device { c with step := .identifyFetchStatus }
      (c.device.asked Flash.Opcode.status 0) (firsts r 1) b b₁) : Stage i c r k b 1 b₁
  | statusRead {j : Nat} {b₁ : Board} (few : j ≤ k)
    (talk : Dialogue i c.device { c with step := .identifyGotStatus }
      (c.device.asked Flash.Opcode.status (j + 1)) (firsts r (j + 2)) b b₁)
    (answer : b₁.scratch i 0 = r (j + 1)) : Stage i c r k b (j + 2) b₁
  | idAsked {b₁ : Board} (talk : Dialogue i c.device
      { c with protect := r (k + 1) &&& Flash.protectBit ≠ 0, step := .identifyFetchId }
      (c.device.session Flash.Opcode.status (k + 1) ++ c.device.asked Flash.Opcode.id 0)
      (firsts r (k + 3)) b b₁) : Stage i c r k b (k + 3) b₁
  | idRead {b₁ : Board} (talk : Dialogue i c.device
      { c with protect := r (k + 1) &&& Flash.protectBit ≠ 0, step := .identifyGotId }
      (c.device.session Flash.Opcode.status (k + 1) ++ c.device.asked Flash.Opcode.id 4)
      (firsts r (k + 7)) b b₁)
    (answers : ∀ j < 4, b₁.scratch i j = r (k + 3 + j)) : Stage i c r k b (k + 4) b₁

/-- Every call before the last goes one stage on, as soon as its transfer is complete. -/
theorem Stage.next (idle : (b.chip i).step = .idle)
    (busy : ∀ j, 1 ≤ j → j ≤ k → r j &&& Flash.readyBit = 0)
    (ready : r (k + 1) &&& Flash.readyBit ≠ 0) (stage : Stage i (b.chip i) r k b n b₁)
    (early : n < k + 4) :
    Advances (identifyChip i) i r b (Stage i (b.chip i) r k b (n + 1)) b₁ := by
  cases stage with
  | opening now =>
    obtain ⟨b₂, called, going, complete⟩ := identify_idle now idle
    refine ⟨b₂, called, going, fun b₃ turns done follows => ?_⟩
    obtain ⟨got, talk, one⟩ := complete b₃ turns done
    have start : Dialogue i (b.chip i).device (b.chip i) [] (firsts r 0) b b :=
      dialogue_quiet now rfl
    obtain ⟨-, whole⟩ := start.follows talk follows
    rw [one] at whole
    exact .statusAsked whole
  | statusAsked talk =>
    obtain ⟨b₂, called, going, complete⟩ := identify_fetchStatus talk.chip rfl
    refine ⟨b₂, called, going, fun b₃ turns done follows => ?_⟩
    obtain ⟨got, more, rfl⟩ := complete b₃ turns done
    obtain ⟨answer, whole⟩ := talk.follows more follows
    exact .statusRead (Nat.zero_le k) whole (by simpa using answer)
  | @statusRead j _ few talk answer =>
    -- Either the byte just read is busy and another is read, or it is the first ready one.
    rcases Nat.lt_or_eq_of_le few with fewer | rfl
    · have still : b₁.scratch i 0 &&& Flash.readyBit = 0 := by
        rw [answer]
        exact busy (j + 1) (by omega) (by omega)
      obtain ⟨b₂, called, going, complete⟩ := identify_busy talk.chip rfl still
      refine ⟨b₂, called, going, fun b₃ turns done follows => ?_⟩
      obtain ⟨got, more, rfl⟩ := complete b₃ turns done
      obtain ⟨answer, whole⟩ := talk.follows more follows
      rw [Device.asked_snoc] at whole
      exact .statusRead fewer whole (by simpa using answer)
    · rw [← answer] at ready
      obtain ⟨b₂, called, going, complete⟩ := identify_ready talk.chip rfl ready
      refine ⟨b₂, called, going, fun b₃ turns done follows => ?_⟩
      obtain ⟨got, more, one⟩ := complete b₃ turns done
      obtain ⟨-, whole⟩ := talk.follows more follows
      rw [one, ← List.append_assoc, answer] at whole
      exact .idAsked whole
  | idAsked talk =>
    obtain ⟨b₂, called, going, complete⟩ := identify_fetchId talk.chip rfl
    refine ⟨b₂, called, going, fun b₃ turns done follows => ?_⟩
    obtain ⟨got, more, rfl⟩ := complete b₃ turns done
    obtain ⟨answers, whole⟩ := talk.follows more follows
    rw [List.append_assoc, Device.asked_more] at whole
    rw [List.length_map, List.length_range] at answers
    exact .idRead whole fun j inside => List.map_inj_left.mp answers j (List.mem_range.mpr inside)
  | idRead talk answers => omega

/-- The call that finds the id bytes ends the conversation. -/
theorem Stage.last (stage : Stage i c r k b n b₁) (late : n = k + 4) :
    ∃ b₂, identifyChip i b₁ = .ok .done b₂ ∧
      Dialogue i c.device
        (({ c with protect := r (k + 1) &&& Flash.protectBit ≠ 0, step := .idle } : Chip).identified
          (r (k + 3)) (r (k + 4)))
        (c.device.session Flash.Opcode.status (k + 1) ++ c.device.session Flash.Opcode.id 4)
        (firsts r (k + 7)) b b₂ := by
  cases stage with
  | idRead talk answers =>
    obtain ⟨b₂, called, more⟩ := identify_gotId talk.chip rfl
    rw [answers 0 (by omega), answers 1 (by omega)] at more
    have whole := talk.trans more
    rw [List.append_assoc, List.append_nil] at whole
    exact ⟨b₂, called, whole⟩
  | opening => omega
  | statusAsked => omega
  | statusRead => omega
  | idAsked => omega

/-- From an idle chip whose first `k` status bytes are busy, `k + 4` calls answer pending and the
next one is the last. The chip is selected once for the status and once for the id, and what it
says of itself then is what the status and the id bytes say. -/
theorem identification_takes_two_sessions (idle : (b.chip i).step = .idle)
    (busy : ∀ j, 1 ≤ j → j ≤ k → r j &&& Flash.readyBit = 0)
    (ready : r (k + 1) &&& Flash.readyBit ≠ 0) (calls : Calls (identifyChip i) i r b n b₁) :
    n ≤ k + 4 ∧
    (n < k + 4 → ∃ b₂, identifyChip i b₁ = .ok .pending b₂ ∧
      (b₂.masters.get (b.chip i).device.bus).status = .inProgress) ∧
    (n = k + 4 → ∃ b₂, identifyChip i b₁ = .ok .done b₂ ∧
      b₂.kernel.marks (b.chip i).device = b.kernel.marks (b.chip i).device ++
        ((b.chip i).device.session 0xd7 (k + 1) ++ (b.chip i).device.session 0x9f 4) ∧
      (b₂.chip i).step = .idle ∧
      (b₂.chip i).protect = (r (k + 1)).toNat.testBit 1 ∧
      ((b₂.chip i).valid = true ↔ r (k + 3) = 0x1f ∧ r (k + 4) &&& 0xe0 = 0x20 ∧
        2 ≤ Flash.density (r (k + 4)) ∧ Flash.density (r (k + 4)) ≤ 8) ∧
      ((b₂.chip i).valid = true →
        (b₂.chip i).size.toNat = 32 * 1024 * 2 ^ (Flash.density (r (k + 4))).toNat ∧
        Flash.pageSizes[(Flash.density (r (k + 4))).toNat]? = some (b₂.chip i).pageSize)) := by
  obtain ⟨few, stage⟩ := calls.through (S := Stage i (b.chip i) r k b) (.opening rfl)
    (Stage.next idle busy ready) fun stage => (stage.last rfl).imp fun _ last => last.1
  refine ⟨few, fun early => ?_, fun late => ?_⟩
  · obtain ⟨b₂, called, going, -⟩ := stage.next idle busy ready early
    exact ⟨b₂, called, going⟩
  · obtain ⟨b₂, called, talk⟩ := stage.last late
    refine ⟨b₂, called, talk.marks, ?_, ?_, ?_, ?_⟩
    · rw [talk.chip, Chip.identified_step]
    · rw [talk.chip, Chip.identified_protect, ← Flash.protected_eq]
    · rw [talk.chip, Chip.identified_valid, Flash.recognises_iff]
    · intro valid
      rw [talk.chip, Chip.identified_valid] at valid
      rw [talk.chip]
      exact Chip.identified_geometry _ valid

/-- One busy status byte, then a chip of eight megabytes: five calls answer pending. -/
theorem sixth_call_identifies :
    let replies : List UInt8 := [0xff, 0x02, 0x82, 0xff, 0x1f, 0x28, 0, 0]
    let bus : BusPlan := { hardware := .scripted (fun n => n % 2 = 1) replies }
    let b := ({ buses := [bus], chips := [⟨0, .mode0, 1000000⟩] } : Plan).bootBoard
    ∃ b₁ b₂, callRounds (identifyChip 0) 0 (replies.getD · 0) b 5 = some b₁ ∧
      identifyChip 0 b₁ = .ok .done b₂ ∧
      b₂.kernel.marks (b.chip 0).device =
        (b.chip 0).device.session 0xd7 2 ++ (b.chip 0).device.session 0x9f 4 ∧
      (b₂.chip 0).size.toNat = 8 * 1024 * 1024 ∧ (b₂.chip 0).pageSize = 1024 := by
  intro replies bus b
  have five : (callRounds (identifyChip 0) 0 (replies.getD · 0) b 5).isSome = true := by
    decide +kernel
  obtain ⟨b₁, ran⟩ := Option.isSome_iff_exists.mp five
  obtain ⟨-, -, last⟩ := identification_takes_two_sessions (k := 1) (r := (replies.getD · 0))
    (by decide +kernel) (by decide) (by decide) (calls_of_callRounds ran)
  obtain ⟨b₂, called, marks, -, -, valid, geometry⟩ := last rfl
  obtain ⟨size, pageSize⟩ := geometry (valid.mpr (by decide))
  refine ⟨b₁, b₂, ran, called, marks, size.trans (by decide), ?_⟩
  exact Option.some.inj (pageSize.symm.trans (by decide))

end CoopKernel.Board
