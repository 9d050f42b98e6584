import CoopKernel.Proofs.BoardOperations
import CoopKernel.Proofs.ConsoleOutput
import CoopKernel.Proofs.PacedPatience

/-!
# Operations that leave the interrupt flag alone

Every critical section puts back the flag that it found, so sections may nest,
and a fault in one of them makes no difference. An operation called with
interrupts disabled works with interrupts disabled to its end: it makes no store
with the flag set, and hardware that must not be touched with the flag set never
notices the operation.
-/

namespace CoopKernel

open Spi Exec

def Event.exposed? : Event → Option Cell
  | .exposed c => some c
  | _ => none

namespace Kernel

/-- The cells stored to while interrupts were enabled, newest first. -/
def exposures (k : Kernel) : List Cell := k.trace.filterMap Event.exposed?

/-- The flag is as it was, and if it was clear, nothing was stored to with the flag set. -/
structure Calm (k k' : Kernel) : Prop where
  flag : k'.cpu.enabled = k.cpu.enabled
  sheltered : k.cpu.enabled = false → k'.exposures = k.exposures

variable {k k' k'' : Kernel}

theorem Calm.refl (k : Kernel) : k.Calm k := ⟨rfl, fun _ => rfl⟩

theorem Calm.trans (h : k.Calm k') (h' : k'.Calm k'') : k.Calm k'' where
  flag := h'.flag.trans h.flag
  sheltered off := (h'.sheltered (h.flag.trans off)).trans (h.sheltered off)

/-- Events that expose no cell. -/
theorem exposures_of_trace {events : List Event} (trace : k'.trace = events ++ k.trace)
    (quiet : ∀ e ∈ events, e.exposed? = none) : k'.exposures = k.exposures := by
  have silent : events.filterMap Event.exposed? = [] := List.filterMap_eq_nil_iff.mpr quiet
  rw [exposures, trace, List.filterMap_append, silent, List.nil_append, exposures]

theorem calm_of_trace {events : List Event} (flag : k'.cpu.enabled = k.cpu.enabled)
    (trace : k'.trace = events ++ k.trace) (quiet : ∀ e ∈ events, e.exposed? = none) :
    k.Calm k' := ⟨flag, fun _ => exposures_of_trace trace quiet⟩

theorem Relinked.calm {events : List Event} (h : k.Relinked k' events)
    (quiet : ∀ e ∈ events, e.exposed? = none) : k.Calm k' :=
  calm_of_trace h.enabled h.trace quiet

theorem exposures_note {e : Event} (quiet : e.exposed? = none) (k : Kernel) :
    (k.note e).exposures = k.exposures :=
  exposures_of_trace (show _ = [e] ++ k.trace from rfl) (by simpa using quiet)

theorem calm_note {e : Event} (quiet : e.exposed? = none) (k : Kernel) : k.Calm (k.note e) :=
  ⟨rfl, fun _ => exposures_note quiet k⟩

theorem calm_expose (c : Cell) (k : Kernel) : k.Calm (k.expose c) := by
  rw [expose]
  split
  · rename_i on
    exact ⟨rfl, fun off => by rw [on] at off; cases off⟩
  · exact .refl k

theorem calm_putCurrent (n : NestId) (t : Option TaskId) (k : Kernel) :
    k.Calm (k.putCurrent n t) :=
  have exposed := calm_expose (.current n) k
  ⟨exposed.flag, exposed.sheltered⟩

theorem calm_putWorker (t : TaskId) (w : Worker) (k : Kernel) : k.Calm (k.putWorker t w) :=
  have exposed := calm_expose (.worker t) k
  ⟨exposed.flag, exposed.sheltered⟩

theorem calm_putHandler (id : Nat) (script : Option Nat) (k : Kernel) :
    k.Calm (k.putHandler id script) :=
  have exposed := calm_expose (.handler id) k
  ⟨exposed.flag, exposed.sheltered⟩

theorem calm_grant (n : NestId) (t : TaskId) (k : Kernel) : k.Calm (k.grant n t) :=
  (calm_putCurrent n (some t) k).trans (calm_note rfl _)

theorem Calm.section (h : k.disable.Calm k') : k.Calm (k'.restore k.cpu.enabled) where
  flag := by
    have off : k'.cpu.enabled = false := h.flag
    change (k'.cpu.restore k.cpu.enabled).enabled = k.cpu.enabled
    rw [Cpu.enabled_restore, off, Bool.or_false]
  sheltered _ := h.sheltered rfl

theorem calm_enclosed {α : Type} (body : Kernel → α × Kernel)
    (inside : ∀ k : Kernel, k.Calm (body k).2) (k : Kernel) : k.Calm (k.enclosed body).2 :=
  (inside k.disable).section

theorem obeys_critical {α : Type} {body : Exec Kernel α} (inside : Obeys Calm body) :
    Obeys Calm (critical body) := by
  intro k
  have ended := (inside k.disable).section
  rw [final, critical]
  cases ran : body k.disable with
  | ok a k' =>
    rw [final_ok ran] at ended
    exact ended
  | error e k' =>
    rw [final_error ran] at ended
    exact ended

theorem obeys_add (q : QueueId) (t : TaskId) : Obeys Calm (add q t) := by
  intro k
  rcases k.relinked_add q t with ⟨k', appended, events, added, relinked, queued⟩ | refused
  · rw [final_ok added]
    exact relinked.calm fun e mem => by rw [queued e mem]; rfl
  · rw [final_error refused]
    exact .refl k

theorem obeys_addOptional (q : QueueId) (t : Option TaskId) : Obeys Calm (addOptional q t) := by
  cases t with
  | none => exact Calm.refl
  | some t => exact obeys_add q t

theorem calm_pop (q : QueueId) (k : Kernel) : k.Calm (k.pop q).2 := by
  have inside : k.disable.Calm (k.disable.unlink q).2 := by
    cases first : (k.disable.queues.get q).head with
    | none =>
      rw [unlink, first]
      exact .refl _
    | some t =>
      exact (relinked_unlink rfl first).calm (by simp [Event.exposed?])
  exact inside.section

theorem calm_isEmpty (q : QueueId) (k : Kernel) : k.Calm (k.isEmpty q).2 :=
  calm_enclosed (fun k => ((k.queues.get q).head.isNone, k)) .refl k

theorem calm_count (q : QueueId) (k : Kernel) : k.Calm (k.count q).2 :=
  calm_enclosed (fun k => (k.length q, k)) .refl k

theorem obeys_place (n : NestId) (t : TaskId) : Obeys Calm (place n t) := by
  intro k
  cases held : k.holder n with
  | some current =>
    have same : place n t k = add (.waiting n) t k := by rw [place, held]
    rw [final, same]
    exact obeys_add _ t k
  | none =>
    have same : place n t k = add (k.feeds n) t (k.grant n t) := by rw [place, held]
    rw [final, same]
    exact (calm_grant n t k).trans (obeys_add _ t _)

theorem obeys_submit (n : NestId) (t : TaskId) : Obeys Calm (submit n t) := by
  apply obeys_critical
  intro k
  have placed := obeys_place n t k
  dsimp only [final]
  cases ran : place n t k with
  | error e k' =>
    rw [final_error ran] at placed
    exact placed
  | ok answer k' =>
    rw [final_ok ran] at placed
    cases answer with
    | false => exact placed
    | true => exact placed.trans (calm_note rfl k')

theorem obeys_handOver (n : NestId) : Obeys Calm (handOver n) := by
  apply obeys_critical
  intro k
  have popped := calm_pop (.waiting n) k
  dsimp only [final]
  generalize k.pop (.waiting n) = result at popped ⊢
  obtain ⟨_ | t, k'⟩ := result
  · exact popped.trans (calm_putCurrent n none k')
  · have added := popped.trans (obeys_add (k'.feeds n) t k')
    cases ran : add (k'.feeds n) t k' with
    | ok answer k'' =>
      rw [final_ok ran] at added
      simp only [ran]
      exact added.trans (calm_grant n t k'')
    | error e k'' =>
      rw [final_error ran] at added
      simp only [ran]
      exact added

theorem obeys_bindHandler (id : Nat) (script : Option Nat) :
    Obeys Calm (bindHandler id script) := by
  intro k
  rw [final_bindHandler]
  split
  · exact calm_enclosed (fun k => ((), k.putHandler id script)) (calm_putHandler id script) k
  · exact .refl k

theorem obeys_tryBindHandler (id script : Nat) : Obeys Calm (tryBindHandler id script) := by
  intro k
  rw [final_tryBindHandler]
  exact obeys_bindHandler id (some script) k

theorem obeys_raise (id : Nat) : Obeys Calm (raise id) := by
  intro k
  rw [final_raise]
  split
  · exact calm_of_trace rfl (show _ = [.raised id _] ++ k.trace from rfl) (by simp [Event.exposed?])
  · exact .refl k

end Kernel

namespace Board

def Calm (b b' : Board) : Prop := b.kernel.Calm b'.kernel

variable {b b₁ b' : Board} {bus i : Nat}

theorem obeys_onKernel {α : Type} {x : Exec Kernel α} (h : Obeys Kernel.Calm x) :
    Obeys Calm (onKernel x) := by
  intro b
  rw [final_onKernel]
  exact h b.kernel

theorem obeys_onKernel_get {α : Type} {f : Kernel → α × Kernel}
    (h : ∀ k : Kernel, k.Calm (f k).2) :
    Obeys Calm (do let _ ← onKernel (modifyGet f)) :=
  (obeys_onKernel (x := modifyGet f) h).answer _

theorem obeys_schedulePoll (bus : Nat) : Obeys Calm (schedulePoll bus) :=
  obeys_get fun _ => (obeys_onKernel (Kernel.obeys_add _ _)).answer _

theorem obeys_wakeHolder (bus : Nat) : Obeys Calm (wakeHolder bus) :=
  obeys_get fun _ => (obeys_onKernel (Kernel.obeys_addOptional _ _)).answer _

theorem calm_prime (bus : Nat) (first : UInt8) (n : Nat) (b : Board) :
    Calm b (prime bus first n b) :=
  (Kernel.calm_putWorker (.poll bus) (.poller bus) b.kernel).trans (Kernel.calm_note rfl _)

theorem obeys_start (bus : Nat) (t : Transfer) : Obeys Calm (start bus t) := by
  intro b
  cases accepted : t.fault? with
  | some cause =>
    rw [final_error (start_refused accepted)]
    exact .refl _
  | none =>
    rcases taken : (b.masters.get bus).accept b.memory t with ⟨first, n, m⟩
    rw [final, start_accepted accepted taken]
    exact (calm_prime bus first n { b with masters := b.masters.set bus m }).trans
      (obeys_schedulePoll bus _)

theorem exposures_polled (bus : Nat) (b : Board) :
    (b.polled bus).kernel.exposures = b.kernel.exposures := by
  refine Kernel.exposures_of_trace rfl fun e mem => ?_
  obtain ⟨w, -, rfl⟩ := List.mem_map.mp mem
  rfl

theorem calm_polled (bus : Nat) (b : Board) : Calm b (b.polled bus) :=
  ⟨rfl, fun _ => exposures_polled bus b⟩

theorem obeys_runPoller (bus : Nat) : Obeys Calm (runPoller bus) := by
  intro b
  rw [final]
  cases pollerRun bus b with
  | polling _ _ ran =>
    rw [ran]
    exact (calm_polled bus b).trans (obeys_schedulePoll bus _)
  | polled _ _ ran =>
    rw [ran]
    exact (calm_polled bus b).trans (obeys_wakeHolder bus _)
  | @loaded first n m _ _ ran =>
    rw [ran]
    exact (calm_prime bus first n { b with masters := b.masters.set bus m }).trans
      (obeys_schedulePoll bus _)
  | @ended m _ _ ran =>
    rw [ran]
    exact obeys_wakeHolder bus (modifyMaster bus Master.finish { b with masters := _ })

theorem Beside.exposures (h : Beside i b b') : b'.kernel.exposures = b.kernel.exposures := by
  obtain ⟨events, trace, framing⟩ := h.trace
  refine Kernel.exposures_of_trace trace fun e mem => ?_
  have frames := framing e mem
  cases e <;> first | rfl | cases frames

theorem Beside.calm (h : Beside i b b') : Calm b b' := ⟨h.flag, fun _ => h.exposures⟩

theorem Asks.calm (h : Asks i b b') : Calm b b' := by
  obtain ⟨mid, beside, rfl | ⟨t, rfl⟩⟩ := h
  · exact beside.calm
  · exact beside.calm.trans (obeys_start _ t mid)

/-- Every operation of the board, stopped or not, restores the flag, and with the flag clear it
makes no exposed store. -/
theorem obeys_run (op : Operation) : Obeys Calm op.run := by
  cases op with
  | add q t => exact (obeys_onKernel (Kernel.obeys_addOptional q t)).answer _
  | pop q => exact obeys_onKernel_get (Kernel.calm_pop q)
  | isEmpty q => exact obeys_onKernel_get (Kernel.calm_isEmpty q)
  | count q => exact obeys_onKernel_get (Kernel.calm_count q)
  | submit n t => exact (obeys_onKernel (Kernel.obeys_submit n t)).answer _
  | handOver n => exact obeys_onKernel (Kernel.obeys_handOver n)
  | bindWorker task script =>
    exact obeys_onKernel (Kernel.calm_putWorker (.user task) (.script script))
  | bindHandler id script => exact obeys_onKernel (Kernel.obeys_bindHandler id script)
  | tryBindHandler id script =>
    exact (obeys_onKernel (Kernel.obeys_tryBindHandler id script)).answer _
  | raise id => exact obeys_onKernel (Kernel.obeys_raise id)
  | start bus t => exact obeys_start bus t
  | request bus t => exact (obeys_onKernel (Kernel.obeys_submit (.bus bus) t)).answer _
  | release bus => exact obeys_onKernel (Kernel.obeys_handOver (.bus bus))
  | runPoller bus => exact obeys_runPoller bus
  | select d => exact fun b => (beside_select 0 d b).calm
  | deselect d => exact fun b => (beside_deselect 0 d b).calm
  | identifyChip i => exact Obeys.answer (fun b => (asks_identifyChip i b).calm) _
  | awaitChip i => exact Obeys.answer (fun b => (asks_awaitChip i b).calm) _
  | askStatus i => exact fun b => (asks_sendScratch i _ b).calm
  | askId i => exact fun b => (asks_sendScratch i _ b).calm
  | command i c => exact fun b => (asks_command i c b).calm
  | print level message => exact fun b => (obeys_print 0 level message b).calm

end Board

variable {σ : Type}

namespace Transmitter

variable {t : Transmitter σ}

structure Transparent (t : Transmitter σ) : Prop where
  put : t.Quiet
  look : ∀ l {room l'}, t.hasRoom l = some (room, l') → l'.cpu.enabled = l.cpu.enabled

/-- The same hardware, except that a call made with interrupts enabled gets no answer. -/
def guarded (t : Transmitter σ) : Transmitter σ where
  put byte l := if l.cpu.enabled then none else t.put byte l
  hasRoom l := if l.cpu.enabled then none else t.hasRoom l
  patience := t.patience

theorem put_guarded {l : Line σ} (off : l.cpu.enabled = false) (byte : UInt8) :
    t.guarded.put byte l = t.put byte l := by
  simp [guarded, off]

theorem awaitRoom_guarded (transparent : t.Transparent) (looks : Nat) {l : Line σ}
    (off : l.cpu.enabled = false) : awaitRoom t.guarded looks l = awaitRoom t looks l := by
  induction looks generalizing l with
  | zero => rfl
  | succ looks ih =>
    have same : t.guarded.hasRoom l = t.hasRoom l := by simp [guarded, off]
    rw [awaitRoom, awaitRoom, same]
    cases looked : t.hasRoom l with
    | none => rfl
    | some answer =>
      obtain ⟨room, l₁⟩ := answer
      cases room with
      | true => rfl
      | false => exact ih ((transparent.look l looked).trans off)

/-- The waits in between are made with the flag of the caller, which is clear. -/
theorem send_guarded (transparent : t.Transparent) (byte : UInt8) (offers : Nat) {l : Line σ}
    (off : l.cpu.enabled = false) :
    send t.guarded false byte offers l = send t false byte offers l := by
  induction offers generalizing l with
  | zero => rfl
  | succ offers ih =>
    rw [send, send, put_guarded off]
    cases offered : t.put byte l with
    | none => rfl
    | some answer =>
      obtain ⟨taken, l₁⟩ := answer
      cases taken with
      | true => rfl
      | false =>
        have still : l₁.cpu.enabled = false := (transparent.put byte l offered).trans off
        have waited : awaitRoom t.guarded (t.patience l₁.hardware + 1) (l₁.restore false) =
            awaitRoom t (t.patience l₁.hardware + 1) (l₁.restore false) :=
          awaitRoom_guarded transparent _ still
        dsimp only [guarded] at waited ⊢
        simp only [Line.restore] at waited ⊢
        rw [waited]
        split
        · rfl
        · exact ih rfl

theorem drain_guarded (transparent : t.Transparent) (n : Nat) {c : Channel σ}
    (off : c.cpu.enabled = false) : drain t.guarded false n c = drain t false n c := by
  induction n generalizing c with
  | zero => rfl
  | succ n ih =>
    rw [drain, drain]
    cases c.stream.pop with
    | none => rfl
    | some first =>
      obtain ⟨byte, stream⟩ := first
      dsimp only
      have same : send t.guarded false byte (t.guarded.patience c.hardware + 1) c.toLine =
        send t false byte (t.patience c.hardware + 1) c.toLine :=
        send_guarded transparent byte _ off
      rw [same]
      cases sent : send t false byte (t.patience c.hardware + 1) c.toLine with
      | none => rfl
      | some l => exact ih (send_disabled transparent.put false byte _ off sent)

theorem commit_guarded (transparent : t.Transparent) {c : Channel σ}
    (off : c.cpu.enabled = false) : t.guarded.commit c = t.commit c := by
  have same := drain_guarded transparent c.stream.held
    (c := { c with cpu := c.cpu.disable }) rfl
  simp only [commit, off, same]

theorem free_guarded (transparent : t.Transparent) (goal : Nat) {c : Channel σ}
    (off : c.cpu.enabled = false) : t.guarded.backend.free goal c = t.backend.free goal c := by
  simp only [backend, commit_guarded transparent off]

end Transmitter

namespace Channel

/-- Two operations that do the same when they are called with interrupts disabled. -/
def SameDisabled (f g : Channel σ → Option (Channel σ)) : Prop :=
  ∀ c, c.cpu.enabled = false → f c = g c

theorem SameDisabled.bind {f f' g g' : Channel σ → Option (Channel σ)} (first : SameDisabled f f')
    (keeps : Keeps f') (second : SameDisabled g g') :
    SameDisabled (fun c => (f c).bind g) fun c => (f' c).bind g' := by
  intro c off
  dsimp only
  rw [first c off]
  cases ran : f' c with
  | none => rfl
  | some c₁ => exact second c₁ ((keeps c c₁ ran).trans off)

variable {t : Transmitter σ}

/-- A write that is called with interrupts disabled never asks guarded hardware with interrupts
enabled. -/
theorem write_guarded (transparent : t.Transparent) (bytes : List UInt8) :
    SameDisabled (write t.guarded.backend bytes) (write t.backend bytes) := by
  have quiet := transparent.put.backend
  have rounds : ∀ n bytes, SameDisabled (writeRounds t.guarded.backend n bytes)
      (writeRounds t.backend n bytes) := by
    intro n
    induction n with
    | zero => exact fun _ _ _ => rfl
    | succ n ih =>
      intro bytes c off
      obtain _ | ⟨first, rest⟩ := bytes
      · rfl
      have same : ensureRoom t.guarded.backend (first :: rest).length c =
          ensureRoom t.backend (first :: rest).length c := by
        rw [ensureRoom, ensureRoom, Transmitter.free_guarded transparent _ off]
      rw [writeRounds, writeRounds, same]
      · cases room : ensureRoom t.backend (first :: rest).length c with
        | none => rfl
        | some answer =>
          obtain ⟨ok, c₁⟩ := answer
          cases ok with
          | false => rfl
          | true =>
            have still := (enabled_store (first :: rest) c₁).trans
              ((ensureRoom_keeps quiet room).trans off)
            dsimp only
            rw [ih _ _ still]
      all_goals
        intro none_left
        cases none_left
  exact rounds bytes.length bytes

theorem writeText_guarded (transparent : t.Transparent) (text : List UInt8) :
    SameDisabled (writeText t.guarded.backend text) (writeText t.backend text) := by
  have quiet := transparent.put.backend
  have lines : ∀ lines, SameDisabled (writeLines t.guarded.backend lines)
      (writeLines t.backend lines) := by
    intro lines
    induction lines with
    | nil => exact fun _ _ => rfl
    | cons line rest ih =>
      exact (write_guarded transparent lineEnd).bind (write_keeps quiet lineEnd)
        ((write_guarded transparent line).bind (write_keeps quiet line) ih)
  exact (write_guarded transparent _).bind (write_keeps quiet _) (lines _)

end Channel

namespace ConsoleOp

open Channel

theorem keeps_run {b : Backend σ} (quiet : b.Quiet) (op : ConsoleOp) : Keeps (op.run b) := by
  cases op with
  | bytes data => exact write_keeps quiet data
  | byte x => exact write_keeps quiet _
  | text s => exact writeText_keeps quiet _
  | char ch => exact writeText_keeps quiet _
  | commit => exact quiet.commit

theorem run_guarded {t : Transmitter σ} (transparent : t.Transparent) (op : ConsoleOp) :
    SameDisabled (op.run t.guarded.backend) (op.run t.backend) := by
  cases op with
  | bytes data => exact write_guarded transparent data
  | byte x => exact write_guarded transparent _
  | text s => exact writeText_guarded transparent _
  | char ch => exact writeText_guarded transparent _
  | commit => exact fun c off => Transmitter.commit_guarded transparent off

end ConsoleOp

/-- Every operation of a board or of a console leaves the flag as it found it, and one of a console
returns if its hardware refuses each byte finitely often. Called with the flag clear, an operation
of a board makes no store with the flag set, and one of a console goes the same way with hardware
that answers only while the flag is clear. -/
theorem operations_keep_the_interrupt_flag {t : Transmitter σ} {fine : σ → Prop}
    {taken : σ → List UInt8} (patient : t.Patient fine taken) (transparent : t.Transparent) :
    (∀ (op : Board.Operation) (b : Board),
      (final op.run b).kernel.cpu.enabled = b.kernel.cpu.enabled ∧
      (b.kernel.cpu.enabled = false → (final op.run b).kernel.exposures = b.kernel.exposures)) ∧
    ∀ (op : ConsoleOp) (c : Channel σ), fine c.hardware →
      ∃ c', op.run t.backend c = some c' ∧ c'.cpu.enabled = c.cpu.enabled ∧
        (c.cpu.enabled = false → op.run t.guarded.backend c = some c') := by
  refine ⟨fun op b => ?_, fun op c start => ?_⟩
  · have calm : b.Calm (final op.run b) := Board.obeys_run op b
    exact ⟨calm.flag, calm.sheltered⟩
  · obtain ⟨c', ran, -⟩ := ConsoleOp.passes_run patient.flushes op c start
    exact ⟨c', ran, ConsoleOp.keeps_run transparent.put.backend op c c' ran,
      fun off => (ConsoleOp.run_guarded transparent op c off).trans ran⟩

theorem PacedUart.transparent : PacedUart.transmitter.Transparent where
  put := by
    intro byte l ok l' ran
    simp only [transmitter] at ran
    split at ran <;> cases ran <;> rfl
  look := by
    intro l room l' ran
    cases ran
    rfl

/-- A flush that waits several times, called with interrupts disabled. -/
theorem flag_stays_clear_through_one_byte :
    ∃ c', ConsoleOp.run PacedUart.transmitter.guarded.backend (.text "a\nb") oneByteConsole =
      some c' ∧ c'.cpu.enabled = false := by
  obtain ⟨-, consoles⟩ :=
    operations_keep_the_interrupt_flag PacedUart.patient PacedUart.transparent
  obtain ⟨c', -, flag, same⟩ := consoles (.text "a\nb") oneByteConsole trivial
  exact ⟨c', same rfl, flag⟩

end CoopKernel
