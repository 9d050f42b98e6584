import CoopKernel.Proofs.ChipCalls
import CoopKernel.Proofs.ChipConversations

/-!
# Waiting for a chip

Every round of a wait is a session of its own: the chip is selected, asked for
one status byte, and deselected by the call that looks at the answer. The same
scratch cell holds the question and then the answer, and the next round begins
with a call that has already read the last answer out of it.
-/

namespace CoopKernel

namespace Device

/-- The status read over and over, every time in a session of its own. -/
def statusReads (d : Device) (n : Nat) : List ChipMark :=
  (List.replicate n (d.session Flash.Opcode.status 1)).flatten

theorem statusReads_succ (d : Device) (n : Nat) : d.statusReads (n + 1) =
    d.statusReads n ++ d.asked Flash.Opcode.status 1 ++ d.closing := by
  rw [statusReads, List.replicate_succ', List.flatten_append, List.flatten_singleton, statusReads,
    List.append_assoc, session]

end Device

namespace Board

variable {b b₁ b₂ : Board} {i k n : Nat} {r : Nat → UInt8} {c : Chip}

theorem await_idle (now : b.chip i = c) (at_step : c.step = .idle) :
    ∃ b₁, awaitChip i b = .ok .pending b₁ ∧
      Converses i { c with step := .waitFetchStatus } (c.device.asked Flash.Opcode.status 0)
        (fun got _ => got.length = 1) b b₁ := by
  obtain ⟨b₁, opened, conversed⟩ := openConversation_converses now .waitFetchStatus
  refine ⟨b₁, ?_, conversed⟩
  rw [awaitChip, Exec.get_bind, now, at_step]
  exact Exec.bind_ok opened

theorem await_fetchStatus (now : b.chip i = c) (at_step : c.step = .waitFetchStatus) :
    ∃ b₁, awaitChip i b = .ok .pending b₁ ∧
      Converses i { c with step := .waitGotStatus } [.sent 0]
        (fun got b₂ => got = [b₂.scratch i 0]) b b₁ := by
  obtain ⟨b₁, started, conversed⟩ := fetch_converses now .waitGotStatus 1 (by simp) (by simp)
  refine ⟨b₁, ?_, conversed⟩
  rw [awaitChip, Exec.get_bind, now, at_step]
  exact Exec.bind_ok started

/-- After a busy status byte the chip is left and selected anew. -/
theorem await_busy (now : b.chip i = c) (at_step : c.step = .waitGotStatus)
    (busy : b.scratch i 0 &&& Flash.readyBit = 0) :
    ∃ b₁, awaitChip i b = .ok .pending b₁ ∧
      Converses i { c with step := .waitFetchStatus }
        (c.device.closing ++ c.device.asked Flash.Opcode.status 0)
        (fun got _ => got.length = 1) b b₁ := by
  have closed := dialogue_deselect now
  obtain ⟨b₁, opened, going, complete⟩ := openConversation_converses closed.chip .waitFetchStatus
  have kept : (deselectChip i b).scratch i 0 = b.scratch i 0 := rfl
  refine ⟨b₁, ?_, going, fun b₂ turns done => ?_⟩
  · rw [awaitChip, Exec.get_bind, now, at_step]
    simp only [Exec.modify_bind, Exec.get_bind, kept, busy, if_true]
    exact Exec.bind_ok opened
  · obtain ⟨got, talk, one⟩ := complete b₂ turns done
    exact ⟨got, closed.trans talk, one⟩

theorem await_ready (now : b.chip i = c) (at_step : c.step = .waitGotStatus)
    (ready : b.scratch i 0 &&& Flash.readyBit ≠ 0) :
    ∃ b₁, awaitChip i b = .ok .done b₁ ∧
      Dialogue i c.device { c with step := .idle } c.device.closing [] b b₁ := by
  have closed := dialogue_deselect now
  have stepped := dialogue_setStep (d := c.device) closed.chip .idle
  have kept : (deselectChip i b).scratch i 0 = b.scratch i 0 := rfl
  refine ⟨setStep i .idle (deselectChip i b), ?_, by simpa using closed.trans stepped⟩
  rw [awaitChip, Exec.get_bind, now, at_step]
  simp only [Exec.modify_bind, Exec.get_bind, kept, if_neg ready]
  rfl

/-- The chip `c` is waited for; its answers are `r`. Every round takes two of them, and up to `k`
rounds are over. -/
inductive Round (i : Nat) (c : Chip) (r : Nat → UInt8) (k : Nat) (b : Board) :
    Nat → Board → Prop where
  | opening (now : b.chip i = c) : Round i c r k b 0 b
  | statusAsked {j : Nat} {b₁ : Board} (few : j ≤ k)
    (talk : Dialogue i c.device { c with step := .waitFetchStatus }
      (c.device.statusReads j ++ c.device.asked Flash.Opcode.status 0) (firsts r (2 * j + 1))
      b b₁) : Round i c r k b (2 * j + 1) b₁
  | statusRead {j : Nat} {b₁ : Board} (few : j ≤ k)
    (talk : Dialogue i c.device { c with step := .waitGotStatus }
      (c.device.statusReads j ++ c.device.asked Flash.Opcode.status 1) (firsts r (2 * j + 2))
      b b₁)
    (answer : b₁.scratch i 0 = r (2 * j + 1)) : Round i c r k b (2 * j + 2) b₁

/-- Every call before the last either opens a round or reads the byte of the one that is open. -/
theorem Round.next (idle : (b.chip i).step = .idle)
    (busy : ∀ j < k, r (2 * j + 1) &&& Flash.readyBit = 0)
    (round : Round i (b.chip i) r k b n b₁) (early : n < 2 * k + 2) :
    Advances (awaitChip i) i r b (Round i (b.chip i) r k b (n + 1)) b₁ := by
  cases round with
  | opening now =>
    obtain ⟨b₂, called, going, complete⟩ := await_idle now idle
    refine ⟨b₂, called, going, fun b₃ turns done follows => ?_⟩
    obtain ⟨got, talk, one⟩ := complete b₃ turns done
    have start : Dialogue i (b.chip i).device (b.chip i) [] (firsts r 0) b b :=
      dialogue_quiet now rfl
    obtain ⟨-, whole⟩ := start.follows talk follows
    rw [one] at whole
    exact .statusAsked (Nat.zero_le k) whole
  | @statusAsked j _ few talk =>
    obtain ⟨b₂, called, going, complete⟩ := await_fetchStatus talk.chip rfl
    refine ⟨b₂, called, going, fun b₃ turns done follows => ?_⟩
    obtain ⟨got, more, rfl⟩ := complete b₃ turns done
    obtain ⟨answer, whole⟩ := talk.follows more follows
    rw [List.append_assoc, Device.asked_snoc] at whole
    exact .statusRead few whole (by simpa using answer)
  | @statusRead j _ few talk answer =>
    -- The byte of the last round would be ready, but there is a call before the last one left.
    have fewer : j < k := by omega
    have still : b₁.scratch i 0 &&& Flash.readyBit = 0 := by
      rw [answer]
      exact busy j fewer
    obtain ⟨b₂, called, going, complete⟩ := await_busy talk.chip rfl still
    refine ⟨b₂, called, going, fun b₃ turns done follows => ?_⟩
    obtain ⟨got, more, one⟩ := complete b₃ turns done
    obtain ⟨-, whole⟩ := talk.follows more follows
    rw [one, ← List.append_assoc, ← Device.statusReads_succ] at whole
    exact .statusAsked fewer whole

/-- The call that finds a ready byte ends the wait, and the chip is as it was before. -/
theorem Round.last (idle : c.step = .idle) (ready : r (2 * k + 1) &&& Flash.readyBit ≠ 0)
    (round : Round i c r k b n b₁) (late : n = 2 * k + 2) :
    ∃ b₂, awaitChip i b₁ = .ok .done b₂ ∧
      Dialogue i c.device c (c.device.statusReads (k + 1)) (firsts r (2 * k + 2)) b b₂ := by
  cases round with
  | @statusRead j _ few talk answer =>
    obtain rfl : j = k := by omega
    rw [← answer] at ready
    obtain ⟨b₂, called, more⟩ := await_ready talk.chip rfl ready
    have whole := talk.trans more
    have same : { c with step := .idle } = c := by rw [← idle]
    rw [← Device.statusReads_succ, List.append_nil, same] at whole
    exact ⟨b₂, called, whole⟩
  | opening => omega
  | statusAsked => omega

/-- From an idle chip that is busy for `k` rounds, `2 * k + 2` calls answer pending and the next
one is the last. The status is read in `k + 1` sessions, and at the end the chip is as it was at
the beginning. -/
theorem waiting_takes_one_session_a_round (idle : (b.chip i).step = .idle)
    (busy : ∀ j < k, r (2 * j + 1) &&& Flash.readyBit = 0)
    (ready : r (2 * k + 1) &&& Flash.readyBit ≠ 0)
    (calls : Calls (awaitChip i) i r b n b₁) :
    n ≤ 2 * k + 2 ∧
    (n < 2 * k + 2 → ∃ b₂, awaitChip i b₁ = .ok .pending b₂ ∧
      (b₂.masters.get (b.chip i).device.bus).status = .inProgress) ∧
    (n = 2 * k + 2 → ∃ b₂, awaitChip i b₁ = .ok .done b₂ ∧
      b₂.kernel.marks (b.chip i).device = b.kernel.marks (b.chip i).device ++
        (List.replicate (k + 1) ((b.chip i).device.session 0xd7 1)).flatten ∧
      b₂.chip i = b.chip i) := by
  obtain ⟨few, round⟩ := calls.through (S := Round i (b.chip i) r k b) (.opening rfl)
    (Round.next idle busy) fun round => (round.last idle ready rfl).imp fun _ last => last.1
  refine ⟨few, fun early => ?_, fun late => ?_⟩
  · obtain ⟨b₂, called, going, -⟩ := round.next idle busy early
    exact ⟨b₂, called, going⟩
  · obtain ⟨b₂, called, talk⟩ := round.last idle ready late
    exact ⟨b₂, called, talk.marks, talk.chip⟩

/-- One busy status byte before the ready one: the fifth call finds it. -/
theorem fifth_call_finds_the_chip_ready :
    let replies : List UInt8 := [0xff, 0x02, 0xff, 0x82]
    let bus : BusPlan := { hardware := .scripted (fun n => n % 2 = 1) replies }
    let b := ({ buses := [bus], chips := [⟨0, .mode0, 1000000⟩] } : Plan).bootBoard
    ∃ b₁ b₂, callRounds (awaitChip 0) 0 (replies.getD · 0) b 4 = some b₁ ∧
      awaitChip 0 b₁ = .ok .done b₂ ∧
      b₂.kernel.marks (b.chip 0).device =
        (b.chip 0).device.session 0xd7 1 ++ (b.chip 0).device.session 0xd7 1 ∧
      b₂.chip 0 = b.chip 0 := by
  intro replies bus b
  have four : (callRounds (awaitChip 0) 0 (replies.getD · 0) b 4).isSome = true := by
    decide +kernel
  obtain ⟨b₁, ran⟩ := Option.isSome_iff_exists.mp four
  obtain ⟨-, -, last⟩ := waiting_takes_one_session_a_round (k := 1) (r := (replies.getD · 0))
    (by decide +kernel) (by decide) (by decide) (calls_of_callRounds ran)
  obtain ⟨b₂, called, marks, same⟩ := last rfl
  exact ⟨b₁, b₂, ran, called, marks, same⟩

end Board

end CoopKernel
