import CoopKernel.Proofs.InterruptFlag
import CoopKernel.Proofs.TerminalPrints

/-!
# What each console gets

Consoles are installed and taken out, messages are printed, and consoles that are
not installed are written to directly. A UART may print a message of its own for
each byte it accepts. Inside a print such a message is dropped, since the print
holds the terminal; inside a direct operation it goes to the installed console.
Either way every console passes on what it was given, and nothing else.
-/

namespace CoopKernel

namespace Channel

theorem expand_append (first second : List UInt8) :
    expand (first ++ second) = expand first ++ expand second := List.flatMap_append

theorem expand_flatten (texts : List (List UInt8)) :
    expand texts.flatten = texts.flatMap expand := by
  rw [expand, ← List.flatMap_id, List.flatMap_assoc]
  rfl

end Channel

namespace Terminal

open Channel (expand expand_append expand_flatten)
open PacedUart (accept)

theorem output_congr {t₁ t₂ : Terminal} {j : Nat} (same : t₂.consoles.get j = t₁.consoles.get j) :
    output j t₂ = output j t₁ := by
  rw [output, uart, same]
  rfl

/-- The console that a message of the level reaches. -/
def hearer? (level : Level) (t : Terminal) : Option Nat :=
  if level.enabled && !t.locked then t.installed else none

def heardBy (j : Nat) (level : Level) (pieces : List (List UInt8)) (t : Terminal) : List UInt8 :=
  if t.hearer? level = some j then pieces.flatten else []

variable {level : Level} {pieces inner : List (List UInt8)} {i n : Nat} {t t' t₁ t₂ : Terminal}
variable {l : Line Terminal}

theorem heardBy_congr (locked : t₂.locked = t₁.locked) (installed : t₂.installed = t₁.installed)
    (j : Nat) : heardBy j level pieces t₂ = heardBy j level pieces t₁ := by
  rw [heardBy, hearer?, locked, installed]
  rfl

theorem hearer_eq_some {j : Nat} :
    t.hearer? level = some j ↔ level.enabled = true ∧ t.locked = false ∧ t.installed = some j := by
  rw [hearer?]
  constructor
  · intro heard
    split at heard
    · rename_i open_now
      obtain ⟨enabled, free⟩ := Bool.and_eq_true_iff.mp open_now
      exact ⟨enabled, by simpa using free, heard⟩
    · cases heard
  · rintro ⟨enabled, free, installed⟩
    simp [enabled, free, installed]

theorem message_dropped (level : Level) (pieces : List (List UInt8)) {l : Line Terminal}
    (unheard : l.hardware.hearer? level = none) : message level pieces l = some l := by
  rw [hearer?] at unheard
  rw [message]
  cases enabled : level.enabled with
  | false => rfl
  | true =>
    cases held : l.hardware.locked with
    | true => exact print_held 1 pieces held
    | false =>
      have installed : l.hardware.installed = none := by simpa [enabled, held] using unheard
      unfold print
      simp only [if_true, held, Bool.false_eq_true, if_false, installed]

theorem message_delivered (pieces : List (List UInt8))
    (heard : l.hardware.hearer? level = some i) :
    ∃ l', message level pieces l = some l' ∧ Printed i pieces l.hardware l'.hardware := by
  obtain ⟨enabled, free, installed⟩ := hearer_eq_some.mp heard
  rw [message, if_pos enabled]
  exact print_delivers pieces free installed

structure Told (level : Level) (pieces : List (List UInt8)) (t t' : Terminal) : Prop where
  locked : t'.locked = t.locked
  installed : t'.installed = t.installed
  apart : ∀ i, t.installed ≠ some i → t'.consoles.get i = t.consoles.get i
  output : ∀ j, output j t' = output j t ++ expand (heardBy j level pieces t)

theorem Told.unheard (unheard : t.hearer? level = none) : Told level pieces t t where
  locked := rfl
  installed := rfl
  apart _ _ := rfl
  output j := by
    rw [heardBy, unheard]
    exact (List.append_nil _).symm

/-- A console that hears a message gets all of it, and no other console gets anything. -/
theorem Printed.told (printed : Printed i pieces t₁ t₂) (heard : t₁.hearer? level = some i) :
    Told level pieces t₁ t₂ := by
  obtain ⟨-, free, installed⟩ := hearer_eq_some.mp heard
  have other : ∀ j, i ≠ j → t₂.consoles.get j = t₁.consoles.get j :=
    fun j differs => printed.beside.others j differs.symm
  constructor
  case locked => rw [printed.unlocked, free]
  case installed => exact printed.beside.installed
  case apart =>
    intro j apart
    apply other
    rintro rfl
    exact apart installed
  case output =>
    intro j
    by_cases same : i = j
    · subst same
      rw [output, printed.flushed, printed.sent, List.append_nil, heardBy, if_pos heard,
        expand_flatten]
    · have deaf : ¬t₁.hearer? level = some j := by
        rw [heard]
        exact fun e => same (Option.some.inj e)
      rw [output_congr (other j same), heardBy, if_neg deaf]
      exact (List.append_nil _).symm

theorem message_told (level : Level) (pieces : List (List UInt8)) (l : Line Terminal) :
    ∃ l', message level pieces l = some l' ∧ Told level pieces l.hardware l'.hardware := by
  cases hearer : l.hardware.hearer? level with
  | none => exact ⟨l, message_dropped level pieces hearer, .unheard hearer⟩
  | some i =>
    obtain ⟨l', printed, there⟩ := message_delivered pieces hearer
    exact ⟨l', printed, there.told hearer⟩

/-- What console `j` is given when the UART of console `i` prints for each of `n` bytes. -/
def saidTo (j : Nat) (level : Level) (inner : List (List UInt8)) (i n : Nat) (t : Terminal) :
    List UInt8 :=
  if (t.uart i).reenters then (List.replicate n (heardBy j level inner t)).flatten else []

theorem saidTo_succ (j : Nat) (level : Level) (inner : List (List UInt8)) (i n : Nat)
    (t : Terminal) :
    saidTo j level inner i (n + 1) t =
      saidTo j level inner i n t ++
        if (t.uart i).reenters then heardBy j level inner t else [] := by
  rw [saidTo, saidTo]
  split
  · rw [List.replicate_succ', List.flatten_append, List.flatten_singleton]
  · rfl

/-- In the middle of a direct operation on a console: every other console was told what the UART
printed, for each byte that was accepted so far. -/
structure Interjected (level : Level) (inner : List (List UInt8)) (i n : Nat) (t t' : Terminal) :
    Prop where
  locked : t'.locked = t.locked
  installed : t'.installed = t.installed
  reenters : (t'.uart i).reenters = (t.uart i).reenters
  accepted : (t'.uart i).sent.size = (t.uart i).sent.size + n
  told : ∀ j ≠ i, output j t' = output j t ++ expand (saidTo j level inner i n t)

theorem Interjected.refl : Interjected level inner i 0 t t where
  locked := rfl
  installed := rfl
  reenters := rfl
  accepted := rfl
  told j _ := by
    have nothing : saidTo j level inner i 0 t = [] := ite_self _
    rw [nothing]
    exact (List.append_nil _).symm

theorem Interjected.setUart (h : Interjected level inner i n t t₁) {u : PacedUart}
    (reenters : u.reenters = (t₁.uart i).reenters) (sent : u.sent = (t₁.uart i).sent) :
    Interjected level inner i n t (t₁.setUart i u) where
  locked := h.locked
  installed := h.installed
  reenters := by rw [uart_setUart, reenters, h.reenters]
  accepted := by rw [uart_setUart, sent, h.accepted]
  told j other := (output_congr (consoles_setUart other u t₁)).trans (h.told j other)

theorem Interjected.setStream (h : Interjected level inner i n t t₁) (s : Stream) :
    Interjected level inner i n t (t₁.setStream i s) where
  locked := h.locked
  installed := h.installed
  reenters := by
    rw [uart, console_setStream]
    exact h.reenters
  accepted := by
    rw [uart, console_setStream]
    exact h.accepted
  told j other := (output_congr (consoles_setStream other s t₁)).trans (h.told j other)

/-- One byte more: the UART prints, if it does so at all, and then has accepted the byte. -/
theorem Interjected.accept (h : Interjected level inner i n t t₁) (byte : UInt8)
    (locked : t₂.locked = t₁.locked) (installed : t₂.installed = t₁.installed)
    (same : t₂.uart i = t₁.uart i)
    (told : ∀ j ≠ i, output j t₂ = output j t₁ ++
      expand (if (t.uart i).reenters then heardBy j level inner t else [])) :
    Interjected level inner i (n + 1) t (t₂.modifyUart i (accept byte)) where
  locked := locked.trans h.locked
  installed := installed.trans h.installed
  reenters := by
    rw [modifyUart, uart_setUart, same]
    exact h.reenters
  accepted := by
    rw [modifyUart, uart_setUart, same]
    change ((t₁.uart i).sent.push byte).size = _
    rw [Array.size_push, h.accepted, Nat.add_assoc]
  told j other := by
    rw [modifyUart, output_congr (consoles_setUart other _ t₂), told j other, h.told j other,
      saidTo_succ, expand_append, List.append_assoc]

/-- What the UART of a console that is not installed prints is a message like any other. -/
theorem paced_direct (level : Level) (inner : List (List UInt8)) (apart : t.installed ≠ some i) :
    (transmitter (message level inner) i).Paced
      (fun t' => ∃ n, Interjected level inner i n t t') (uart i) := by
  refine paced_of ?_ ?_
  · rintro t₁ u ⟨n, h⟩ reenters sent
    exact ⟨n, h.setUart reenters sent⟩
  · rintro byte l ⟨n, h⟩
    have noted : Interjected level inner i n t (offered i byte l).hardware := h.setUart rfl rfl
    have seen : (offered i byte l).hardware.uart i =
        (l.hardware.uart i).note (.put byte l.cpu.enabled) := uart_setUart ..
    have speaks : (l.hardware.uart i).reenters = (t.uart i).reenters := h.reenters
    cases reenters : (t.uart i).reenters with
    | false =>
      refine ⟨offered i byte l, ?_, ⟨n + 1, noted.accept byte rfl rfl rfl fun j _ => ?_⟩, seen⟩
      · rw [speaks, reenters]
        rfl
      · rw [reenters]
        exact (List.append_nil _).symm
    | true =>
      obtain ⟨printed, ran, there⟩ := message_told level inner (offered i byte l)
      have untouched : printed.hardware.uart i = (offered i byte l).hardware.uart i :=
        congrArg Console.uart (there.apart i (noted.installed ▸ apart))
      refine ⟨printed, ?_, ⟨n + 1, noted.accept byte there.locked there.installed untouched
        fun j _ => ?_⟩, untouched.trans seen⟩
      · rw [speaks, reenters]
        exact ran
      · rw [there.output j, reenters, heardBy_congr noted.locked noted.installed]
        rfl

/-- What console `j` is given by a direct operation on console `i`: the text if it is the same, and
else what the UART prints, for every byte that was accepted. -/
def directTo (j : Nat) (level : Level) (inner : List (List UInt8)) (i : Nat) (text : List UInt8)
    (t t' : Terminal) : List UInt8 :=
  if j = i then text
  else saidTo j level inner i ((t'.uart i).sent.size - (t.uart i).sent.size) t

theorem Interjected.directTo (h : Interjected level inner i n t t') {text : List UInt8}
    (written : output i t' = output i t ++ expand text) (j : Nat) :
    output j t' = output j t ++ expand (directTo j level inner i text t t') := by
  by_cases same : j = i
  · subst same
    rw [written, Terminal.directTo, if_pos rfl]
  · have count : (t'.uart i).sent.size - (t.uart i).sent.size = n := by
      have accepted := h.accepted
      omega
    rw [h.told j same, Terminal.directTo, if_neg same, count]

/-- A direct operation on a console that is not installed. -/
theorem operate_direct (level : Level) (inner : List (List UInt8))
    (apart : l.hardware.installed ≠ some i) (text : List UInt8)
    {f : Backend Terminal → Channel Terminal → Option (Channel Terminal)}
    (passes : ∀ (b : Backend Terminal) (fine : Terminal → Prop),
      b.Flushes fine (fun t => (t.uart i).sent.toList) →
        Backend.Flushes.Passes fine (fun t => (t.uart i).sent.toList) (expand text) (f b)) :
    ∃ l', operate (message level inner) i f l = some l' ∧
      l'.hardware.locked = l.hardware.locked ∧ l'.hardware.installed = l.hardware.installed ∧
      ∀ j, output j l'.hardware = output j l.hardware ++
        expand (directTo j level inner i text l.hardware l'.hardware) := by
  have flushes := (paced_direct level inner apart).patient.flushes
  obtain ⟨c, ran, ⟨n, still⟩, all⟩ := passes _ _ flushes
    { l with stream := (l.hardware.consoles.get i).stream } ⟨0, .refl⟩
  have stored := still.setStream c.stream
  have written : output i (c.hardware.setStream i c.stream) =
      output i l.hardware ++ expand text := by
    rw [passed_open] at all
    rw [← all, output, uart, console_setStream]
    rfl
  refine ⟨{ c.toLine with hardware := c.hardware.setStream i c.stream }, ?_, stored.locked,
    stored.installed, stored.directTo written⟩
  simp only [operate, ran]
  rfl

end Terminal

inductive TerminalOp where
  | install (i : Nat)
  | uninstall
  | print (level : Level) (pieces : List (List UInt8))
  | write (i : Nat) (text : List UInt8)
  | commit (i : Nat)
deriving DecidableEq, Repr

namespace TerminalOp

open Terminal
open Channel (expand expand_append expand_flatten)

/-- A UART that prints says `inner` at `level` for each byte. -/
def run (level : Level) (inner : List (List UInt8)) :
    TerminalOp → Line Terminal → Option (Line Terminal)
  | install i, l => some (l.modify fun t => (t.install (some i)).2)
  | uninstall, l => some (l.modify fun t => (t.install none).2)
  | print lv pieces, l => message lv pieces l
  | write i text, l => operate (message level inner) i (fun b c => c.writeText b text) l
  | commit i, l => operate (message level inner) i (fun b c => b.commit c) l

def installs (installed : Option Nat) : TerminalOp → Option Nat
  | install i => some i
  | uninstall => none
  | _ => installed

/-- Only consoles that are not installed are written to directly. -/
def Apart (installed : Option Nat) : TerminalOp → Prop
  | write i _ => installed ≠ some i
  | commit i => installed ≠ some i
  | _ => True

def AllApart : Option Nat → List TerminalOp → Prop
  | _, [] => True
  | installed, op :: ops => op.Apart installed ∧ AllApart (op.installs installed) ops

instance decidableApart (installed : Option Nat) : ∀ op : TerminalOp, Decidable (op.Apart installed)
  | install _ => inferInstanceAs (Decidable True)
  | uninstall => inferInstanceAs (Decidable True)
  | print .. => inferInstanceAs (Decidable True)
  | write i _ => inferInstanceAs (Decidable (installed ≠ some i))
  | commit i => inferInstanceAs (Decidable (installed ≠ some i))

instance decidableAllApart : ∀ installed ops, Decidable (AllApart installed ops)
  | _, [] => inferInstanceAs (Decidable True)
  | installed, op :: ops =>
    have := decidableAllApart (op.installs installed) ops
    inferInstanceAs (Decidable (op.Apart installed ∧ AllApart (op.installs installed) ops))

/-- The text that console `j` is given by an operation which turns `t` into `t'`. -/
def delivered (level : Level) (inner : List (List UInt8)) (t t' : Terminal) (j : Nat) :
    TerminalOp → List UInt8
  | install _ => []
  | uninstall => []
  | print lv pieces => heardBy j lv pieces t
  | write i text => directTo j level inner i text t t'
  | commit i => directTo j level inner i [] t t'

def runAll (level : Level) (inner : List (List UInt8)) :
    List TerminalOp → Line Terminal → Option (Line Terminal)
  | [], l => some l
  | op :: ops, l => (op.run level inner l).bind (runAll level inner ops)

/-- All that console `j` is given, up to an operation that does not return. -/
def deliveries (level : Level) (inner : List (List UInt8)) (j : Nat) :
    List TerminalOp → Line Terminal → List UInt8
  | [], _ => []
  | op :: ops, l =>
    match op.run level inner l with
    | none => []
    | some l' =>
      op.delivered level inner l.hardware l'.hardware j ++ deliveries level inner j ops l'

variable {level : Level} {inner : List (List UInt8)} {l l' : Line Terminal}

theorem run_keeps (level : Level) (inner : List (List UInt8)) (op : TerminalOp) :
    Line.Keeps (op.run level inner) := by
  intro l l' ran
  cases op with
  | install i =>
    cases ran
    rfl
  | uninstall =>
    cases ran
    rfl
  | print lv pieces => exact message_keeps lv pieces l l' ran
  | write i text =>
    exact operate_keeps (message_keeps level inner) i
      (fun _ quiet => Channel.writeText_keeps quiet text) l l' ran
  | commit i =>
    exact operate_keeps (message_keeps level inner) i (fun _ quiet => quiet.commit) l l' ran

structure Done (level : Level) (inner : List (List UInt8)) (op : TerminalOp) (t t' : Terminal) :
    Prop where
  unlocked : t'.locked = false
  installed : t'.installed = op.installs t.installed
  output : ∀ j, output j t' = output j t ++ expand (op.delivered level inner t t' j)

/-- An operation on a terminal that no print holds returns, and every console has what it was given.
-/
theorem run_done (level : Level) (inner : List (List UInt8)) (op : TerminalOp)
    (free : l.hardware.locked = false)
    (apart : op.Apart l.hardware.installed) :
    ∃ l', op.run level inner l = some l' ∧ op.Done level inner l.hardware l'.hardware := by
  cases op with
  | install i =>
    exact ⟨l.modify fun t => (t.install (some i)).2, rfl, free, rfl,
      fun j => (List.append_nil _).symm⟩
  | uninstall =>
    exact ⟨l.modify fun t => (t.install none).2, rfl, free, rfl, fun j => (List.append_nil _).symm⟩
  | print lv pieces =>
    obtain ⟨l', printed, told⟩ := message_told lv pieces l
    exact ⟨l', printed, told.locked.trans free, told.installed, told.output⟩
  | write i text =>
    obtain ⟨l', ran, locked, installed, outputs⟩ := operate_direct level inner apart text
      (f := fun b c => c.writeText b text) fun _ _ flushes => flushes.writeText text
    exact ⟨l', ran, locked.trans free, installed, outputs⟩
  | commit i =>
    obtain ⟨l', ran, locked, installed, outputs⟩ := operate_direct level inner apart []
      (f := fun b c => b.commit c) fun _ _ flushes => flushes.commits
    exact ⟨l', ran, locked.trans free, installed, outputs⟩

/-- By induction on the operations. -/
theorem runAll_done (ops : List TerminalOp) (free : l.hardware.locked = false)
    (apart : AllApart l.hardware.installed ops) :
    ∃ l', runAll level inner ops l = some l' ∧ l'.hardware.locked = false ∧
      ∀ j, output j l'.hardware =
        output j l.hardware ++ expand (deliveries level inner j ops l) := by
  induction ops generalizing l with
  | nil => exact ⟨l, rfl, free, fun j => (List.append_nil _).symm⟩
  | cons op ops ih =>
    obtain ⟨now, later⟩ := apart
    obtain ⟨l₁, ran, done⟩ := run_done level inner op free now
    obtain ⟨l', rest, last, outputs⟩ := ih done.unlocked (done.installed ▸ later)
    refine ⟨l', ?_, last, ?_⟩
    · rw [runAll, ran]
      exact rest
    · intro j
      rw [outputs, done.output, deliveries, ran, expand_append, List.append_assoc]

end TerminalOp

open TerminalOp in
/-- Consoles are installed and taken out, messages are printed, and consoles that are not installed
are written to and committed. Every such sequence ends, and every console has passed on what it was
given: the messages printed while it was installed, among them what the UART of a console written
to directly prints, and the texts written to it directly.

A message that no print holds up goes whole to the installed console, which is then flushed, and to
no other. A message of a higher level, without a console or inside a print changes nothing. Whatever
is done, the interrupt flag stays as it was. -/
theorem consoles_pass_on_what_they_are_given (level : Level) (inner : List (List UInt8)) :
    (∀ l ops, l.hardware.locked = false → AllApart l.hardware.installed ops →
      ∃ l', runAll level inner ops l = some l' ∧ l'.hardware.locked = false ∧
        ∀ j, (l'.hardware.uart j).sent.toList ++ (l'.hardware.consoles.get j).stream.contents =
          (l.hardware.uart j).sent.toList ++ (l.hardware.consoles.get j).stream.contents ++
            Channel.expand (deliveries level inner j ops l)) ∧
    (∀ lv pieces i l, l.hardware.locked = false → l.hardware.installed = some i → lv ≤ Level.info →
      ∃ l', Terminal.message lv pieces l = some l' ∧
        Terminal.Printed i pieces l.hardware l'.hardware) ∧
    (∀ lv pieces l, Level.info < lv ∨ l.hardware.installed = none ∨ l.hardware.locked = true →
      Terminal.message lv pieces l = some l) ∧
    ∀ op l l', run level inner op l = some l' → l'.cpu.enabled = l.cpu.enabled := by
  refine ⟨?_, ?_, ?_, run_keeps level inner⟩
  · intro l ops free apart
    exact runAll_done ops free apart
  · intro lv pieces i l free installed low
    exact Terminal.message_delivered pieces
      (Terminal.hearer_eq_some.mpr ⟨decide_eq_true low, free, installed⟩)
  · intro lv pieces l reason
    apply Terminal.message_dropped
    cases hearer : l.hardware.hearer? lv with
    | none => rfl
    | some i =>
      obtain ⟨enabled, free, installed⟩ := Terminal.hearer_eq_some.mp hearer
      rcases reason with high | out | held
      · exact absurd (of_decide_eq_true enabled) (UInt8.not_le.mpr high)
      · rw [out] at installed
        cases installed
      · rw [free] at held
        cases held

/-- Two consoles with buffers of two bytes and of one, whose UARTs print. -/
def twoConsoles : Line Terminal :=
  let first : Console :=
    { stream := (Stream.ofSize? 2).get rfl, uart := { busy := [2, 0, 1], reenters := true } }
  let second : Console :=
    { stream := (Stream.ofSize? 1).get rfl, uart := { rejects := [1, 0, 2], reenters := true } }
  { cpu := {}, hardware := { consoles := .ofList first [first, second] } }

open TerminalOp in
/-- Four bytes are written to the first console, which sends three of them at once and the last on
the commit. For each of them the second console is given a character. -/
theorem second_console_hears_the_first :
    let ops : List TerminalOp := [.install 1, .write 0 [0x61, 0x0a, 0x62],
      .print .warning [[0x78], [0x0a]], .print .verbose [[0x79]], .commit 0, .uninstall,
      .print .error [[0x7a]], .write 1 [0x0a]]
    let installed := twoConsoles.modify fun t => (t.install (some 1)).2
    let held := installed.modify ({ · with locked := true })
    (∃ l', runAll .error Terminal.interjection ops twoConsoles = some l' ∧
      (l'.hardware.uart 0).sent.toList ++ (l'.hardware.consoles.get 0).stream.contents =
        [0x61, 0x0d, 0x0a, 0x62] ∧
      (l'.hardware.uart 1).sent.toList ++ (l'.hardware.consoles.get 1).stream.contents =
        [0x21, 0x21, 0x21, 0x78, 0x0d, 0x0a, 0x21, 0x0d, 0x0a]) ∧
    (∃ l', Terminal.message .info [[0x78]] installed = some l' ∧
      Terminal.Printed 1 [[0x78]] installed.hardware l'.hardware) ∧
    Terminal.message .error Terminal.interjection held = some held ∧
    ∀ l', Terminal.write 0 [0x61] installed = some l' → l'.cpu.enabled = true := by
  obtain ⟨sequences, prints, drops, keeps⟩ :=
    consoles_pass_on_what_they_are_given .error Terminal.interjection
  intro ops installed held
  refine ⟨?_, ?_, ?_, ?_⟩
  · obtain ⟨l', ran, -, outputs⟩ := sequences twoConsoles ops rfl (by decide)
    refine ⟨l', ran, (outputs 0).trans ?_, (outputs 1).trans ?_⟩
    · decide +kernel
    · decide +kernel
  · exact prints .info [[0x78]] 1 installed rfl rfl (by decide)
  · exact drops .error Terminal.interjection held (Or.inr (Or.inr rfl))
  · exact keeps (.write 0 [0x61]) installed

end CoopKernel
