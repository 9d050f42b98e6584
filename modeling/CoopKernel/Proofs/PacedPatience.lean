import CoopKernel.Console.Terminal
import CoopKernel.Proofs.PatientDrain

/-!
# The patience that a paced UART asks for

A paced UART refuses a byte while it is busy and then a counted number of times.
A transmitter whose state shows such a UART, on its own or as one of the consoles
of a terminal, is patient: looks use up the one count, refusals the other.
-/

namespace CoopKernel

namespace PacedUart

theorem current_countDown (counts : List Nat) :
    current (countDown counts) = current counts - 1 := by
  cases counts <;> rfl

theorem look_busy {u : PacedUart} (enabled : Bool) (busy : 0 < current u.busy) :
    (u.look enabled).1 = false ∧ current (u.look enabled).2.busy = current u.busy - 1 ∧
      (u.look enabled).2.rejects = u.rejects := by
  simp [look, busy, note, current_countDown]

theorem look_room {u : PacedUart} (enabled : Bool) (free : current u.busy = 0) :
    (u.look enabled).1 = true ∧ (u.look enabled).2.busy = u.busy ∧
      (u.look enabled).2.rejects = u.rejects := by
  simp [look, free, note]

theorem sent_look (u : PacedUart) (enabled : Bool) : (u.look enabled).2.sent = u.sent := by
  rw [look]
  split <;> rfl

theorem sent_refuse {u u' : PacedUart} {byte : UInt8} {enabled : Bool}
    (refused : u.refuse? byte enabled = some u') : u'.sent = u.sent := by
  rw [refuse?] at refused
  split at refused
  · cases refused
    rfl
  · split at refused
    · cases refused
      rfl
    · cases refused

end PacedUart

namespace Transmitter

open PacedUart

variable {σ : Type}

/-- The answers of a transmitter, in a fine state, are those of the UART that the state shows. -/
structure Paced (t : Transmitter σ) (fine : σ → Prop) (view : σ → PacedUart) : Prop where
  refuse : ∀ {byte l u}, fine l.hardware → (view l.hardware).refuse? byte l.cpu.enabled = some u →
    ∃ l', t.put byte l = some (false, l') ∧ fine l'.hardware ∧ view l'.hardware = u
  accept : ∀ {byte l}, fine l.hardware → (view l.hardware).refuse? byte l.cpu.enabled = none →
    ∃ l', t.put byte l = some (true, l') ∧ fine l'.hardware ∧
      view l'.hardware = ((view l.hardware).note (.put byte l.cpu.enabled)).accept byte
  look : ∀ {l}, fine l.hardware → ∃ l', t.hasRoom l =
    some (((view l.hardware).look l.cpu.enabled).1, l') ∧ fine l'.hardware ∧
      view l'.hardware = ((view l.hardware).look l.cpu.enabled).2
  patience : ∀ s, t.patience s = (view s).patience

variable {t : Transmitter σ} {fine : σ → Prop} {view : σ → PacedUart}

namespace Paced

/-- As many looks in vain as the UART is busy for. -/
theorem waits (paced : t.Paced fine view) {b : Nat} {l : Line σ} (start : fine l.hardware)
    (busy : current (view l.hardware).busy = b) :
    ∃ l', Waits t b l l' ∧ fine l'.hardware ∧ current (view l'.hardware).busy = 0 ∧
      (view l'.hardware).rejects = (view l.hardware).rejects := by
  induction b generalizing l with
  | zero =>
    obtain ⟨l', looked, still, seen⟩ := paced.look start
    obtain ⟨room, same, rejects⟩ := look_room l.cpu.enabled busy
    rw [room] at looked
    refine ⟨l', .room looked, still, ?_, ?_⟩
    · rw [seen, same, busy]
    · rw [seen, rejects]
  | succ b ih =>
    obtain ⟨l₁, looked, still, seen⟩ := paced.look start
    have positive : 0 < current (view l.hardware).busy := by omega
    obtain ⟨none_yet, fewer, rejects⟩ := look_busy l.cpu.enabled positive
    rw [none_yet] at looked
    obtain ⟨l', waits, last, free, same⟩ := ih still (by rw [seen, fewer]; omega)
    exact ⟨l', .again looked waits, last, free, same.trans (by rw [seen, rejects])⟩

/-- A UART with room refuses a byte as often as its count says. -/
theorem takes (paced : t.Paced fine view) (saved : Bool) (byte : UInt8) {r : Nat} {l : Line σ}
    (start : fine l.hardware) (free : current (view l.hardware).busy = 0)
    (rejects : current (view l.hardware).rejects = r) : ∃ l', Takes t saved byte r l l' := by
  induction r generalizing l with
  | zero =>
    have accepts : (view l.hardware).refuse? byte l.cpu.enabled = none := by
      simp [refuse?, free, rejects]
    obtain ⟨l', offered, -⟩ := paced.accept start accepts
    exact ⟨l', .taken offered⟩
  | succ r ih =>
    let fewer : PacedUart := { view l.hardware with rejects := countDown (view l.hardware).rejects }
    have refuses : (view l.hardware).refuse? byte l.cpu.enabled =
        some (fewer.note (.rejected byte l.cpu.enabled)) := by
      simp [refuse?, free, rejects, fewer]
    obtain ⟨l₁, offered, still, seen⟩ := paced.refuse start refuses
    have room : current (view (l₁.restore saved).hardware).busy = 0 := by
      change current (view l₁.hardware).busy = 0
      rw [seen]
      exact free
    obtain ⟨l₂, waits, fine₂, free₂, same⟩ := paced.waits (l := l₁.restore saved) still room
    have left : current (view l₂.disable.hardware).rejects = r := by
      change current (view l₂.hardware).rejects = r
      rw [same]
      change current (view l₁.hardware).rejects = r
      rw [seen]
      change current (countDown (view l.hardware).rejects) = r
      rw [current_countDown, rejects]
      omega
    obtain ⟨l', later⟩ := ih (l := l₂.disable) fine₂ free₂ left
    exact ⟨l', .refused offered waits (Nat.zero_le _) later⟩

/-- A busy UART refuses the byte once and is waited for. What it refuses after that it refuses out
of a number that runs out. -/
theorem finite (paced : t.Paced fine view) (saved : Bool) (byte : UInt8) (l : Line σ)
    (start : fine l.hardware) : ∃ n l', Takes t saved byte n l l' ∧ n ≤ t.patience l.hardware := by
  rw [paced.patience]
  by_cases busy : 0 < current (view l.hardware).busy
  · have refuses : (view l.hardware).refuse? byte l.cpu.enabled =
        some ((view l.hardware).note (.busy byte l.cpu.enabled)) := by
      simp [refuse?, busy]
    obtain ⟨l₁, offered, still, seen⟩ := paced.refuse start refuses
    have same : current (view l₁.hardware).busy = current (view l.hardware).busy ∧
        (view l₁.hardware).rejects = (view l.hardware).rejects := by
      rw [seen]
      exact ⟨rfl, rfl⟩
    obtain ⟨l₂, waits, fine₂, free₂, rejects⟩ :=
      paced.waits (l := l₁.restore saved) still same.1
    have few : current (view l.hardware).busy ≤ t.patience l₁.hardware := by
      rw [paced.patience, PacedUart.patience, same.1]
      omega
    obtain ⟨l', later⟩ := paced.takes saved byte (l := l₂.disable) fine₂ free₂ rfl
    refine ⟨_, l', .refused offered waits few later, ?_⟩
    change current (view l₂.hardware).rejects + 1 ≤ _
    rw [rejects]
    change current (view l₁.hardware).rejects + 1 ≤ _
    rw [same.2, PacedUart.patience]
    omega
  · obtain ⟨l', takes⟩ := paced.takes saved byte start (by omega) rfl
    refine ⟨_, l', takes, ?_⟩
    rw [PacedUart.patience]
    omega

theorem patient (paced : t.Paced fine view) : t.Patient fine fun s => (view s).sent.toList where
  offer := by
    intro byte l ok l' start offered
    cases answer : (view l.hardware).refuse? byte l.cpu.enabled with
    | some u =>
      obtain ⟨l₁, refused, still, seen⟩ := paced.refuse start answer
      rw [refused] at offered
      cases offered
      refine ⟨still, ?_⟩
      rw [seen, sent_refuse answer]
      exact (List.append_nil _).symm
    | none =>
      obtain ⟨l₁, accepted, still, seen⟩ := paced.accept start answer
      rw [accepted] at offered
      cases offered
      refine ⟨still, ?_⟩
      rw [seen]
      exact Array.toList_push
  look := by
    intro l room l' start looked
    obtain ⟨l₁, answered, still, seen⟩ := paced.look start
    rw [answered] at looked
    cases looked
    refine ⟨still, ?_⟩
    rw [seen, sent_look]
  finite := paced.finite

end Paced

end Transmitter

theorem PacedUart.paced : PacedUart.transmitter.Paced (fun _ => True) id where
  refuse := by
    intro byte l u _ refused
    refine ⟨{ l with hardware := u }, ?_, trivial, rfl⟩
    simp only [id] at refused
    simp only [PacedUart.transmitter, refused]
  accept := by
    intro byte l _ accepts
    refine ⟨l.modify fun u => (u.note (.put byte l.cpu.enabled)).accept byte, ?_, trivial, rfl⟩
    simp only [id] at accepts
    simp only [PacedUart.transmitter, accepts]
  look := by
    intro l _
    exact ⟨{ l with hardware := (l.hardware.look l.cpu.enabled).2 }, rfl, trivial, rfl⟩
  patience _ := rfl

theorem PacedUart.patient :
    PacedUart.transmitter.Patient (fun _ => True) fun u => u.sent.toList := paced.patient

end CoopKernel
