import CoopKernel.Console.Terminal

/-!
# The interrupt flag around console output

Draining disables interrupts, and restores the caller's flag for every wait and
at the end. As long as the transmitter keeps the flag when it is offered a byte,
every operation of a channel and of the terminal leaves the flag as it was found,
however prints nest. What happens during a wait has no part in it.
-/

namespace CoopKernel

variable {σ : Type}

/-- If the operation returns, then with the flag as it was. -/
def Line.Keeps (f : Line σ → Option (Line σ)) : Prop :=
  ∀ l l', f l = some l' → l'.cpu.enabled = l.cpu.enabled

def Channel.Keeps (f : Channel σ → Option (Channel σ)) : Prop :=
  ∀ c c', f c = some c' → c'.cpu.enabled = c.cpu.enabled

namespace Transmitter

def Quiet (t : Transmitter σ) : Prop :=
  ∀ byte l {ok l'}, t.put byte l = some (ok, l') → l'.cpu.enabled = l.cpu.enabled

variable {t : Transmitter σ}

/-- Bytes are offered with interrupts disabled, and so they stay after each byte. -/
theorem send_disabled (quiet : t.Quiet) (saved : Bool) (byte : UInt8) (offers : Nat)
    {l l' : Line σ} (off : l.cpu.enabled = false) (ran : send t saved byte offers l = some l') :
    l'.cpu.enabled = false := by
  induction offers generalizing l with
  | zero => cases ran
  | succ offers ih =>
    rw [send] at ran
    cases offered : t.put byte l with
    | none =>
      rw [offered] at ran
      cases ran
    | some answer =>
      obtain ⟨taken, l₁⟩ := answer
      rw [offered] at ran
      cases taken with
      | true =>
        cases ran
        exact (quiet _ l offered).trans off
      | false =>
        dsimp only at ran
        split at ran
        · cases ran
        · rename_i l₂ waited
          exact ih (l := l₂.disable) rfl ran

theorem drain_disabled (quiet : t.Quiet) (saved : Bool) (n : Nat) {c c' : Channel σ}
    (off : c.cpu.enabled = false) (ran : drain t saved n c = some c') :
    c'.cpu.enabled = false := by
  induction n generalizing c with
  | zero =>
    cases ran
    exact off
  | succ n ih =>
    rw [drain] at ran
    split at ran
    · cases ran
      exact off
    · split at ran
      · cases ran
      · rename_i l sent
        exact ih (send_disabled quiet saved _ _ off sent) ran

theorem commit_keeps (quiet : t.Quiet) : Channel.Keeps t.commit := by
  intro c c' ran
  obtain ⟨c₁, drained, rest⟩ := Option.bind_eq_some_iff.mp ran
  have off : c₁.cpu.enabled = false := drain_disabled quiet _ _ rfl drained
  cases rest
  change (c₁.cpu.restore c.cpu.enabled).enabled = c.cpu.enabled
  rw [Cpu.enabled_restore, off, Bool.or_false]

end Transmitter

structure Backend.Quiet (b : Backend σ) : Prop where
  commit : Channel.Keeps b.commit
  free : ∀ {goal c ok c'}, b.free goal c = some (ok, c') → c'.cpu.enabled = c.cpu.enabled

theorem Transmitter.Quiet.backend {t : Transmitter σ} (quiet : t.Quiet) : t.backend.Quiet where
  commit := commit_keeps quiet
  free := by
    intro goal c ok c' ran
    obtain ⟨c₁, committed, rest⟩ := Option.bind_eq_some_iff.mp ran
    obtain ⟨-, rfl⟩ := Prod.mk.inj (Option.some.inj rest)
    exact commit_keeps quiet c c₁ committed

namespace Channel

variable {b : Backend σ}

theorem Keeps.bind {f g : Channel σ → Option (Channel σ)} (hf : Keeps f) (hg : Keeps g) :
    Keeps fun c => (f c).bind g := by
  intro c c' ran
  obtain ⟨c₁, first, second⟩ := Option.bind_eq_some_iff.mp ran
  exact (hg c₁ c' second).trans (hf c c₁ first)

theorem keeps_some : Keeps (some : Channel σ → Option (Channel σ)) := by
  rintro c c' ⟨⟩
  rfl

theorem enabled_store (bytes : List UInt8) (c : Channel σ) :
    (c.store bytes).2.cpu.enabled = c.cpu.enabled := by
  change (c.cpu.disable.restore c.cpu.enabled).enabled = c.cpu.enabled
  rw [Cpu.enabled_restore, Cpu.enabled_disable, Bool.or_false]

theorem ensureRoom_keeps (quiet : b.Quiet) {needed : Nat} {c c' : Channel σ} {ok : Bool}
    (ran : ensureRoom b needed c = some (ok, c')) : c'.cpu.enabled = c.cpu.enabled := by
  rw [ensureRoom] at ran
  split at ran
  · exact quiet.free ran
  · cases ran
    rfl

/-- Each round of a write keeps the flag, whether it stores, asks for room or gives up. -/
theorem writeRounds_keeps (quiet : b.Quiet) (rounds : Nat) (bytes : List UInt8) :
    Keeps (writeRounds b rounds bytes) := by
  intro c c' ran
  induction rounds generalizing bytes c with
  | zero =>
    cases ran
    rfl
  | succ rounds ih =>
    obtain _ | ⟨first, rest⟩ := bytes
    · cases ran
      rfl
    rw [writeRounds] at ran
    · split at ran
      · cases ran
      · rename_i c₁ room
        cases ran
        exact ensureRoom_keeps quiet room
      · rename_i c₁ room
        have same := (enabled_store (first :: rest) c₁).trans (ensureRoom_keeps quiet room)
        dsimp only at ran
        split at ran
        · cases ran
          exact same
        · exact (ih _ _ ran).trans same
    · intro none_left
      cases none_left

theorem write_keeps (quiet : b.Quiet) (bytes : List UInt8) : Keeps (write b bytes) :=
  writeRounds_keeps quiet bytes.length bytes

theorem writeLines_keeps (quiet : b.Quiet) (lines : List (List UInt8)) :
    Keeps (writeLines b lines) := by
  induction lines with
  | nil => exact keeps_some
  | cons line rest ih => exact (write_keeps quiet lineEnd).bind ((write_keeps quiet line).bind ih)

theorem writeText_keeps (quiet : b.Quiet) (text : List UInt8) : Keeps (writeText b text) :=
  (write_keeps quiet _).bind (writeLines_keeps quiet _)

theorem writePieces_keeps (quiet : b.Quiet) (pieces : List (List UInt8)) :
    Keeps (writePieces b pieces) := by
  induction pieces with
  | nil => exact keeps_some
  | cons piece rest ih => exact (writeText_keeps quiet piece).bind ih

end Channel

namespace Terminal

variable {print : Line Terminal → Option (Line Terminal)}

theorem transmitter_quiet (keeps : Line.Keeps print) (i : Nat) :
    (transmitter print i).Quiet := by
  intro byte l ok l' ran
  simp only [transmitter] at ran
  split at ran
  · cases ran
    rfl
  · split at ran
    · obtain ⟨printed, first, rest⟩ := Option.bind_eq_some_iff.mp ran
      cases rest
      have same := keeps _ printed first
      exact same
    · cases ran
      rfl

theorem operate_keeps (keeps : Line.Keeps print) (i : Nat)
    {f : Backend Terminal → Channel Terminal → Option (Channel Terminal)}
    (channel : ∀ b : Backend Terminal, b.Quiet → Channel.Keeps (f b)) :
    Line.Keeps (operate print i f) := by
  intro l l' ran
  obtain ⟨c, operated, rest⟩ := Option.bind_eq_some_iff.mp ran
  cases rest
  exact channel _ (transmitter_quiet keeps i).backend _ c operated

/-- By induction on how far prints nest. -/
theorem print_keeps (depth : Nat) (pieces : List (List UInt8)) :
    Line.Keeps (Terminal.print depth pieces) := by
  induction depth generalizing pieces with
  | zero =>
    intro l l' ran
    unfold Terminal.print at ran
    split at ran
    · cases ran
      rfl
    · cases installed : l.hardware.installed with
      | none =>
        rw [installed] at ran
        cases ran
        rfl
      | some i =>
        rw [installed] at ran
        cases ran
  | succ depth ih =>
    intro l l' ran
    unfold Terminal.print at ran
    split at ran
    · cases ran
      rfl
    · cases installed : l.hardware.installed with
      | none =>
        rw [installed] at ran
        cases ran
        rfl
      | some i =>
        rw [installed] at ran
        obtain ⟨l₁, operated, rest⟩ := Option.bind_eq_some_iff.mp ran
        cases rest
        have same := operate_keeps (ih interjection) i
          (fun b quiet => (Channel.writePieces_keeps quiet pieces).bind quiet.commit) _ l₁ operated
        exact same

theorem message_keeps (level : Level) (pieces : List (List UInt8)) :
    Line.Keeps (message level pieces) := by
  intro l l' ran
  rw [message] at ran
  split at ran
  · exact print_keeps 1 pieces l l' ran
  · cases ran
    rfl

end Terminal

end CoopKernel
