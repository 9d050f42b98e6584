import CoopKernel.Board.Basic
import CoopKernel.Proofs.ConsoleOutput

/-!
# Messages always get through

A print holds the terminal, so a UART that prints in the middle of it cannot
keep it from ending. However long the UART of the installed console stays busy,
a message is printed whole and flushed, and nothing but this console and the
interrupt flag takes part in it.
-/

namespace CoopKernel

namespace Terminal

open PacedUart (note accept)

@[simp] theorem uart_setUart (i : Nat) (u : PacedUart) (t : Terminal) :
    (t.setUart i u).uart i = u := by
  simp [setUart, uart, Bank.get_modify]

theorem consoles_setUart {i j : Nat} (other : j ≠ i) (u : PacedUart) (t : Terminal) :
    (t.setUart i u).consoles.get j = t.consoles.get j := by
  simp [setUart, Bank.get_modify, other]

theorem consoles_setStream {i j : Nat} (other : j ≠ i) (s : Stream) (t : Terminal) :
    (t.setStream i s).consoles.get j = t.consoles.get j := by
  simp [setStream, Bank.get_modify, other]

theorem console_setStream (i : Nat) (s : Stream) (t : Terminal) :
    (t.setStream i s).consoles.get i = { t.consoles.get i with stream := s } := by
  simp [setStream, Bank.get_modify]

/-- What the UART of a console has accepted and what is still buffered for it. -/
def output (i : Nat) (t : Terminal) : List UInt8 :=
  (t.uart i).sent.toList ++ (t.consoles.get i).stream.contents

/-- A channel that is opened on a console has passed on what the console shows. -/
theorem passed_open (i : Nat) (l : Line Terminal) :
    Channel.passed (fun t => (t.uart i).sent.toList)
      { l with stream := (l.hardware.consoles.get i).stream } = output i l.hardware := rfl

/-- A print that finds the terminal held is dropped. -/
theorem print_held (depth : Nat) (pieces : List (List UInt8)) {l : Line Terminal}
    (held : l.hardware.locked = true) : print depth pieces l = some l := by
  unfold print
  exact if_pos held

/-- At most one console has changed, and its UART prints as before. -/
structure Beside (i : Nat) (t t' : Terminal) : Prop where
  installed : t'.installed = t.installed
  others : ∀ j ≠ i, t'.consoles.get j = t.consoles.get j
  reenters : (t'.uart i).reenters = (t.uart i).reenters

variable {i : Nat} {t t' : Terminal} {u : PacedUart} {l : Line Terminal}

theorem Beside.refl : Beside i t t := ⟨rfl, fun _ _ => rfl, rfl⟩

theorem Beside.setUart (h : Beside i t t') (same : u.reenters = (t'.uart i).reenters) :
    Beside i t (t'.setUart i u) where
  installed := h.installed
  others j other := (consoles_setUart other u t').trans (h.others j other)
  reenters := by
    rw [uart_setUart, same]
    exact h.reenters

theorem Beside.setStream (h : Beside i t t') (s : Stream) : Beside i t (t'.setStream i s) where
  installed := h.installed
  others j other := (consoles_setStream other s t').trans (h.others j other)
  reenters := by
    rw [uart, console_setStream]
    exact h.reenters

theorem reenters_refuse {byte : UInt8} {enabled : Bool} {u' : PacedUart}
    (refused : u.refuse? byte enabled = some u') : u'.reenters = u.reenters := by
  rw [PacedUart.refuse?] at refused
  split at refused
  · cases refused
    rfl
  · split at refused
    · cases refused
      rfl
    · cases refused

theorem reenters_look (u : PacedUart) (enabled : Bool) :
    (u.look enabled).2.reenters = u.reenters := by
  rw [PacedUart.look]
  split <;> rfl

/-- The line when a byte is about to be accepted. -/
def offered (i : Nat) (byte : UInt8) (l : Line Terminal) : Line Terminal :=
  l.modify (modifyUart i (note (.put byte l.cpu.enabled)))

/-- A UART answers as it would on its own if what it prints comes to an end. -/
theorem paced_of {print : Line Terminal → Option (Line Terminal)} {fine : Terminal → Prop}
    (waits : ∀ t u, fine t → u.reenters = (t.uart i).reenters → u.sent = (t.uart i).sent →
      fine (t.setUart i u))
    (accepts : ∀ byte l, fine l.hardware → ∃ printed,
      (if (l.hardware.uart i).reenters then print (offered i byte l) else
        some (offered i byte l)) = some printed ∧
      fine (printed.hardware.modifyUart i (accept byte)) ∧
      printed.hardware.uart i = (l.hardware.uart i).note (.put byte l.cpu.enabled)) :
    (transmitter print i).Paced fine (uart i) where
  refuse := by
    intro byte l u start refused
    refine ⟨l.modify (setUart i u), ?_, ?_, uart_setUart ..⟩
    · simp only [transmitter, refused]
    · exact waits _ u start (reenters_refuse refused) (PacedUart.sent_refuse refused)
  accept := by
    intro byte l start free
    obtain ⟨printed, ran, still, seen⟩ := accepts byte l start
    refine ⟨printed.modify (modifyUart i (accept byte)), ?_, still, ?_⟩
    · simp only [transmitter, free]
      split at ran
      · rename_i reenters
        rw [if_pos reenters]
        exact congrArg (Option.bind · _) ran
      · rename_i alone
        rw [if_neg alone]
        exact congrArg (Option.bind · _) ran
    · change ((printed.hardware.modifyUart i (accept byte)).uart i) = _
      rw [modifyUart, uart_setUart, seen]
  look := by
    intro l start
    refine ⟨l.modify (setUart i ((l.hardware.uart i).look l.cpu.enabled).2), rfl, ?_,
      uart_setUart ..⟩
    exact waits _ _ start (reenters_look ..) (PacedUart.sent_look ..)
  patience _ := rfl

/-- While the terminal is held, what a UART prints is dropped. -/
theorem paced_held (depth i : Nat) (message : List (List UInt8)) (t : Terminal) :
    (transmitter (print depth message) i).Paced
      (fun t' => t'.locked = true ∧ Beside i t t') (uart i) := by
  refine paced_of ?_ ?_
  · rintro t' u ⟨held, beside⟩ same -
    exact ⟨held, beside.setUart same⟩
  · rintro byte l ⟨held, beside⟩
    have dropped : print depth message (offered i byte l) = some (offered i byte l) :=
      print_held depth message held
    have noted : Beside i t (offered i byte l).hardware := beside.setUart rfl
    refine ⟨offered i byte l, ?_, ⟨held, noted.setUart rfl⟩, uart_setUart ..⟩
    rw [dropped]
    exact ite_self _

/-- A message has gone out through one console, all of it and at once. -/
structure Printed (i : Nat) (pieces : List (List UInt8)) (t t' : Terminal) : Prop where
  unlocked : t'.locked = false
  beside : Beside i t t'
  sent : (t'.uart i).sent.toList = output i t ++ pieces.flatMap Channel.expand
  flushed : (t'.consoles.get i).stream.contents = []

/-- Whatever is written to the console while the terminal is held, and then flushed. -/
theorem operate_held (depth i : Nat) (interjected pieces : List (List UInt8))
    (held : l.hardware.locked = true) :
    ∃ l', operate (print depth interjected) i
        (fun b c => do b.commit (← c.writePieces b pieces)) l = some l' ∧
      Printed i pieces l.hardware { l'.hardware with locked := false } := by
  have flushes := (paced_held depth i interjected l.hardware).patient.flushes
  obtain ⟨c₁, wrote, still, all⟩ := flushes.writePieces pieces
    { l with stream := (l.hardware.consoles.get i).stream } ⟨held, .refl⟩
  obtain ⟨c₂, committed, ⟨-, beside⟩, taken, empty⟩ := flushes.commit still
  refine ⟨{ c₂.toLine with hardware := c₂.hardware.setStream i c₂.stream }, ?_, rfl, ?_, ?_, ?_⟩
  · simp only [operate, wrote, committed, bind, Option.bind]
    rfl
  · have stored := beside.setStream c₂.stream
    exact ⟨stored.installed, stored.others, stored.reenters⟩
  · change ((c₂.hardware.setStream i c₂.stream).consoles.get i).uart.sent.toList = _
    rw [console_setStream]
    exact taken.trans all
  · change ((c₂.hardware.setStream i c₂.stream).consoles.get i).stream.contents = _
    rw [console_setStream]
    exact empty

theorem print_delivers (pieces : List (List UInt8)) (free : l.hardware.locked = false)
    (installed : l.hardware.installed = some i) :
    ∃ l', print 1 pieces l = some l' ∧ Printed i pieces l.hardware l'.hardware := by
  obtain ⟨l', printed, unlocked, beside, sent, flushed⟩ := operate_held 0 i interjection pieces
    (l := l.modify ({ · with locked := true })) rfl
  refine ⟨l'.modify ({ · with locked := false }), ?_, unlocked, ?_, sent, flushed⟩
  case refine_2 => exact ⟨beside.installed, beside.others, beside.reenters⟩
  unfold print
  rw [if_neg (by simp [free]), installed]
  exact congrArg (Option.bind · _) printed

theorem message_returns (level : Level) (pieces : List (List UInt8)) (l : Line Terminal) :
    ∃ l', message level pieces l = some l' := by
  rw [message]
  split
  · cases held : l.hardware.locked with
    | true => exact ⟨l, print_held 1 pieces held⟩
    | false =>
      cases installed : l.hardware.installed with
      | none =>
        refine ⟨l, ?_⟩
        unfold print
        rw [if_neg (by simp [held]), installed]
      | some i =>
        obtain ⟨l', printed, -⟩ := print_delivers pieces held installed
        exact ⟨l', printed⟩
  · exact ⟨l, rfl⟩

end Terminal

/-- A message is printed, and only the terminal and the CPU take part in it. -/
theorem Board.print_ok (level : Level) (text : List String) (b : Board) :
    ∃ c t, print level text b =
      .ok () { b with kernel := { b.kernel with cpu := c }, terminal := t } := by
  obtain ⟨l, printed⟩ := Terminal.message_returns level (text.map fun s => s.toUTF8.toList)
    ⟨b.kernel.cpu, b.terminal⟩
  exact ⟨l.cpu, l.hardware, by simp only [print, printed]⟩

end CoopKernel
