import CoopKernel.Proofs.ChipTraffic

/-!
# Conversations with a chip

The holder of a bus calls an operation again after each transfer, until it answers
that it is done. The calls go through the stages of the operation one by one, and
a stage that is kept by every call fixes what the chip has said and been told.
-/

namespace CoopKernel.Board

open Flash (Progress)

variable {b b₁ b₂ : Board} {i n : Nat} {r : Nat → UInt8} {d : Device} {c c' : Chip}
variable {said said' : List ChipMark} {got : List UInt8}

def firsts (r : Nat → UInt8) (n : Nat) : List UInt8 := (List.range n).map r

theorem firsts_add (r : Nat → UInt8) (n m : Nat) :
    firsts r (n + m) = firsts r n ++ (List.range m).map fun j => r (n + j) := by
  simp [firsts, List.range_add, Function.comp_def]

/-- What came in from a device since `b` is the beginning of a stream. -/
def Follows (r : Nat → UInt8) (d : Device) (b b' : Board) : Prop :=
  ∃ n, b'.kernel.heard d = b.kernel.heard d ++ firsts r n

/-- Calls of one operation from `b` on, each after the transfer of the one before it is complete.
So far all of them, `n` calls, have answered that there is more to do. -/
inductive Calls (x : Exec Board Progress) (i : Nat) (r : Nat → UInt8) (b : Board) :
    Nat → Board → Prop where
  | opening : Calls x i r b 0 b
  | call {n : Nat} {b₁ b₂ b₃ : Board} (before : Calls x i r b n b₁)
    (called : x b₁ = .ok .pending b₂) (turns : ChipTurns i b₂ b₃)
    (complete : (b₃.masters.get (b.chip i).device.bus).status = .ok)
    (answered : Follows r (b.chip i).device b b₃) : Calls x i r b (n + 1) b₃

/-- A call answers that there is more to do. When its transfer is complete, `P` holds. -/
def Advances (x : Exec Board Progress) (i : Nat) (r : Nat → UInt8) (b : Board)
    (P : Board → Prop) (b₁ : Board) : Prop :=
  ∃ b₂, x b₁ = .ok .pending b₂ ∧
    (b₂.masters.get (b.chip i).device.bus).status = .inProgress ∧
    ∀ b₃, ChipTurns i b₂ b₃ → (b₃.masters.get (b.chip i).device.bus).status = .ok →
      Follows r (b.chip i).device b b₃ → P b₃

/-- By induction on the calls: they go through the stages of their operation, and none is made
after the last stage. -/
theorem Calls.through {x : Exec Board Progress} {S : Nat → Board → Prop} {last : Nat}
    (first : S 0 b) (next : ∀ {n b₁}, S n b₁ → n < last → Advances x i r b (S (n + 1)) b₁)
    (ends : ∀ {b₁}, S last b₁ → ∃ b₂, x b₁ = .ok .done b₂) (calls : Calls x i r b n b₁) :
    n ≤ last ∧ S n b₁ := by
  induction calls with
  | opening => exact ⟨Nat.zero_le _, first⟩
  | call _ called turns complete answered ih =>
    obtain ⟨few, stage⟩ := ih
    -- A call from the last stage would have answered done.
    rcases Nat.lt_or_eq_of_le few with early | rfl
    · obtain ⟨b₂, same, -, after⟩ := next stage early
      rw [called] at same
      cases same
      exact ⟨early, after _ turns complete answered⟩
    · obtain ⟨b₂, same⟩ := ends stage
      rw [called] at same
      cases same

theorem Dialogue.follows (h : Dialogue i d c said (firsts r n) b b₁)
    (h' : Dialogue i d c' said' got b₁ b₂) (follows : Follows r d b b₂) :
    got = (List.range got.length).map (fun j => r (n + j)) ∧
      Dialogue i d c' (said ++ said') (firsts r (n + got.length)) b b₂ := by
  have whole := h.trans h'
  obtain ⟨m, heard⟩ := follows
  rw [whole.heard] at heard
  have stream : firsts r n ++ got = firsts r m := List.append_cancel_left heard
  have count : m = n + got.length := by simpa [firsts] using (congrArg List.length stream).symm
  rw [stream, count] at whole
  rw [count, firsts_add] at stream
  exact ⟨List.append_cancel_left stream, whole⟩

theorem chipTurns_of_pollRuns (ran : pollRuns (b.chip i).device.bus n b = some b₁) :
    ChipTurns i b b₁ := by
  induction n generalizing b with
  | zero =>
    cases ran
    exact .refl
  | succ n ih =>
    rw [pollRuns] at ran
    split at ran
    · rename_i busy
      split at ran
      · rename_i b' first
        rw [← ((plain_runPoller first).speaks i).chip] at ran
        exact .head (.poll busy first) (ih ran)
      · cases ran
    · cases ran

/-- Calls of one operation with one run of the poll task after each, as long as that completes the
transfer and the answers begin a stream. -/
def callRounds (x : Exec Board Progress) (i : Nat) (r : Nat → UInt8) (b : Board) :
    Nat → Option Board
  | 0 => some b
  | n + 1 =>
    (callRounds x i r b n).bind fun b₁ =>
      match x b₁ with
      | .ok .pending b₂ => (pollRuns (b₂.chip i).device.bus 1 b₂).filter fun b₃ =>
          (b₃.masters.get (b.chip i).device.bus).status = .ok &&
          b₃.kernel.heard (b.chip i).device = b.kernel.heard (b.chip i).device ++
            firsts r ((b₃.kernel.heard (b.chip i).device).length -
              (b.kernel.heard (b.chip i).device).length)
      | _ => none

theorem calls_of_callRounds {x : Exec Board Progress} (ran : callRounds x i r b n = some b₁) :
    Calls x i r b n b₁ := by
  induction n generalizing b₁ with
  | zero =>
    cases ran
    exact .opening
  | succ n ih =>
    obtain ⟨b₂, before, ran⟩ := Option.bind_eq_some_iff.mp ran
    split at ran
    · rename_i b₃ called
      obtain ⟨polled, checked⟩ := Option.filter_eq_some_iff.mp ran
      simp only [Bool.and_eq_true, decide_eq_true_eq] at checked
      exact .call (ih before) called (chipTurns_of_pollRuns polled) checked.1 ⟨_, checked.2⟩
    · cases ran

end CoopKernel.Board
