import CoopKernel.Console.Stream.Contents
import CoopKernel.Console.Transmitter

/-!
# Draining into a transmitter that refuses finitely often

A transmitter may refuse a byte and may be looked at in vain, but only finitely
often. Such a transmitter takes every byte of a stream, once and in order. What
it has taken is read off its state; how often it refuses is up to it.
-/

namespace CoopKernel.Transmitter

variable {σ : Type}

/-- Looks at a transmitter: `n` of them find no room, and then one does. -/
inductive Waits (t : Transmitter σ) : Nat → Line σ → Line σ → Prop where
  | room {l l' : Line σ} (looked : t.hasRoom l = some (true, l')) : Waits t 0 l l'
  | again {n : Nat} {l l₁ l' : Line σ} (looked : t.hasRoom l = some (false, l₁))
      (waits : Waits t n l₁ l') : Waits t (n + 1) l l'

/-- Offers of a byte: `n` of them are refused, each refusal is followed by a wait for room under
the caller's flag, and then the byte is taken. -/
inductive Takes (t : Transmitter σ) (saved : Bool) (byte : UInt8) :
    Nat → Line σ → Line σ → Prop where
  | taken {l l' : Line σ} (offered : t.put byte l = some (true, l')) : Takes t saved byte 0 l l'
  | refused {n looks : Nat} {l l₁ l₂ l' : Line σ} (offered : t.put byte l = some (false, l₁))
      (waits : Waits t looks (l₁.restore saved) l₂) (few : looks ≤ t.patience l₁.hardware)
      (takes : Takes t saved byte n l₂.disable l') : Takes t saved byte (n + 1) l l'

/-- In a fine state every byte is refused finitely often, and the transmitter's patience bounds
the refusals. `taken` lists the bytes taken so far: a refusal or a look does not change it. -/
structure Patient (t : Transmitter σ) (fine : σ → Prop) (taken : σ → List UInt8) : Prop where
  offer : ∀ {byte l ok l'}, fine l.hardware → t.put byte l = some (ok, l') →
    fine l'.hardware ∧ taken l'.hardware = taken l.hardware ++ if ok then [byte] else []
  look : ∀ {l room l'}, fine l.hardware → t.hasRoom l = some (room, l') →
    fine l'.hardware ∧ taken l'.hardware = taken l.hardware
  finite : ∀ saved byte l, fine l.hardware →
    ∃ n l', Takes t saved byte n l l' ∧ n ≤ t.patience l.hardware

variable {t : Transmitter σ} {fine : σ → Prop} {taken : σ → List UInt8}
variable {saved : Bool} {byte : UInt8} {l l' : Line σ}

theorem awaitRoom_of_waits {n looks : Nat} (waits : Waits t n l l') (enough : n < looks) :
    awaitRoom t looks l = some l' := by
  induction waits generalizing looks with
  | room looked =>
    obtain _ | looks := looks
    · omega
    · simp only [awaitRoom, looked]
  | again looked _ ih =>
    obtain _ | looks := looks
    · omega
    · simp only [awaitRoom, looked]
      exact ih (by omega)

theorem send_of_takes {n offers : Nat} (takes : Takes t saved byte n l l') (enough : n < offers) :
    send t saved byte offers l = some l' := by
  induction takes generalizing offers with
  | taken offered =>
    obtain _ | offers := offers
    · omega
    · simp only [send, offered]
  | refused offered waits few _ ih =>
    obtain _ | offers := offers
    · omega
    · have room := awaitRoom_of_waits waits (Nat.lt_succ_of_le few)
      simp only [send, offered, Line.restore] at room ⊢
      rw [room]
      exact ih (by omega)

namespace Patient

theorem waits (patient : t.Patient fine taken) {n : Nat} (waits : Waits t n l l')
    (start : fine l.hardware) : fine l'.hardware ∧ taken l'.hardware = taken l.hardware := by
  induction waits with
  | room looked => exact patient.look start looked
  | again looked _ ih =>
    obtain ⟨still, same⟩ := patient.look start looked
    obtain ⟨last, same'⟩ := ih still
    exact ⟨last, same'.trans same⟩

theorem takes (patient : t.Patient fine taken) {n : Nat} (takes : Takes t saved byte n l l')
    (start : fine l.hardware) :
    fine l'.hardware ∧ taken l'.hardware = taken l.hardware ++ [byte] := by
  induction takes with
  | taken offered => exact patient.offer start offered
  | refused offered waits _ _ ih =>
    obtain ⟨refused, same⟩ := patient.offer start offered
    obtain ⟨room, same'⟩ := patient.waits waits refused
    obtain ⟨last, grown⟩ := ih room
    refine ⟨last, ?_⟩
    have unchanged := same'.trans (same.trans (List.append_nil _))
    exact grown.trans (congrArg (· ++ [_]) unchanged)

theorem send (patient : t.Patient fine taken) (saved : Bool) (byte : UInt8)
    (start : fine l.hardware) :
    ∃ l', Transmitter.send t saved byte (t.patience l.hardware + 1) l = some l' ∧
      fine l'.hardware ∧ taken l'.hardware = taken l.hardware ++ [byte] := by
  obtain ⟨n, l', takes, few⟩ := patient.finite saved byte l start
  exact ⟨l', send_of_takes takes (Nat.lt_succ_of_le few), patient.takes takes start⟩

/-- By induction on the bytes to send: each leaves the stream and is taken. -/
theorem drain (patient : t.Patient fine taken) (saved : Bool) (n : Nat) {c : Channel σ}
    (start : fine c.hardware) :
    ∃ c', Transmitter.drain t saved n c = some c' ∧ fine c'.hardware ∧
      taken c'.hardware = taken c.hardware ++ c.stream.contents.take n ∧
      c'.stream.contents = c.stream.contents.drop n := by
  induction n generalizing c with
  | zero => exact ⟨c, rfl, start, (List.append_nil _).symm, rfl⟩
  | succ n ih =>
    cases popped : c.stream.pop with
    | none =>
      have empty := c.stream.pop_eq_none_iff.mp popped
      refine ⟨c, ?_, start, ?_, ?_⟩
      · simp only [Transmitter.drain, popped]
      · simp [empty]
      · simp [empty]
    | some first =>
      obtain ⟨byte, rest⟩ := first
      have split := Stream.contents_of_pop popped
      obtain ⟨l, sent, still, grown⟩ := patient.send saved byte (l := c.toLine) start
      obtain ⟨c', drained, last, all, left⟩ := ih (c := { l with stream := rest }) still
      refine ⟨c', ?_, last, ?_, ?_⟩
      · simp only [Transmitter.drain, popped, sent]
        exact drained
      · rw [all, grown, split, List.take_succ_cons, List.append_assoc]
        rfl
      · rw [left, split, List.drop_succ_cons]

/-- All that was buffered is taken. -/
theorem commit (patient : t.Patient fine taken) {c : Channel σ} (start : fine c.hardware) :
    ∃ c', t.commit c = some c' ∧ fine c'.hardware ∧
      taken c'.hardware = taken c.hardware ++ c.stream.contents ∧ c'.stream.contents = [] := by
  obtain ⟨c', drained, last, all, left⟩ :=
    patient.drain c.cpu.enabled c.stream.held (c := { c with cpu := c.cpu.disable }) start
  refine ⟨{ c' with cpu := c'.cpu.restore c.cpu.enabled }, ?_, last, ?_, ?_⟩
  · simp only [Transmitter.commit, drained]
    rfl
  · rw [all]
    change _ ++ c.stream.contents.take c.stream.held = _
    rw [← Stream.length_contents, List.take_length]
  · rw [left]
    change c.stream.contents.drop c.stream.held = []
    rw [← Stream.length_contents, List.drop_length]

end Patient

end CoopKernel.Transmitter
