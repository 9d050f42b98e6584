import CoopKernel.Proofs.CallRecords
import CoopKernel.Proofs.InterruptFlag
import CoopKernel.Proofs.PacedPatience

/-!
# The calls of a commit

A commit loops over the bytes, over the offers of each byte and over the looks
after each refusal. No bound on refusals is given here: it is only known that
every byte is taken after finitely many calls. The calls of a commit then make a
finite list, and with any patience of at least that length the commit returns.
-/

namespace CoopKernel

variable {σ : Type}

namespace PortCall

def found : PortCall σ → Line σ
  | offer _ found _ _ => found
  | look found _ _ => found

def left : PortCall σ → Line σ
  | offer _ _ _ left => left
  | look _ _ left => left

def offered? : PortCall σ → Option UInt8
  | offer byte _ _ _ => some byte
  | look .. => none

def accepted? : PortCall σ → Option UInt8
  | offer byte _ taken _ => if taken then some byte else none
  | look .. => none

def KeptFlag (call : PortCall σ) : Prop := call.left.cpu.enabled = call.found.cpu.enabled

/-- The flag that a call is due to find: bytes are offered with interrupts disabled, and looks are
taken with the flag of the caller. -/
def due (saved : Bool) : PortCall σ → Bool
  | offer .. => false
  | look .. => saved

end PortCall

open PortCall

namespace Transmitter

inductive Looks (t : Transmitter σ) : List (PortCall σ) → Line σ → Line σ → Prop where
  | room {l l' : Line σ} (looked : t.hasRoom l = some (true, l')) : Looks t [.look l true l'] l l'
  | again {calls : List (PortCall σ)} {l l₁ l' : Line σ} (looked : t.hasRoom l = some (false, l₁))
      (looks : Looks t calls l₁ l') : Looks t (.look l false l₁ :: calls) l l'

/-- Refused offers of a byte, each with the looks after it, and then one that is accepted. -/
inductive Delivers (t : Transmitter σ) (saved : Bool) (byte : UInt8) :
    List (PortCall σ) → Line σ → Line σ → Prop where
  | taken {l l' : Line σ} (offered : t.put byte l = some (true, l')) :
      Delivers t saved byte [.offer byte l true l'] l l'
  | refused {looks calls : List (PortCall σ)} {l l₁ l₂ l' : Line σ}
      (offered : t.put byte l = some (false, l₁)) (looked : Looks t looks (l₁.restore saved) l₂)
      (delivers : Delivers t saved byte calls l₂.disable l') :
      Delivers t saved byte (.offer byte l false l₁ :: (looks ++ calls)) l l'

/-- From a fine state every byte is taken after finitely many calls, however many. -/
structure Yields (t : Transmitter σ) (fine : σ → Prop) : Prop where
  offer : ∀ {byte l ok l'}, fine l.hardware → t.put byte l = some (ok, l') → fine l'.hardware
  look : ∀ {l room l'}, fine l.hardware → t.hasRoom l = some (room, l') → fine l'.hardware
  finite : ∀ saved byte l, fine l.hardware → ∃ calls l', Delivers t saved byte calls l l'

def bounded (t : Transmitter σ) (patience : σ → Nat) : Transmitter σ := { t with patience }

variable {t : Transmitter σ} {fine : σ → Prop} {patience longer : σ → Nat}
variable {saved : Bool} {byte : UInt8} {l l' : Line σ} {looks calls : List (PortCall σ)}

theorem Looks.await (looked : Looks t looks l l') (patience : σ → Nat) {n : Nat}
    (enough : looks.length ≤ n) (old : List (PortCall σ)) :
    awaitRoom (t.bounded patience).watched n (l.watched old) =
      some (l'.watched (old ++ looks)) := by
  induction looked generalizing n old with
  | room looked =>
    obtain _ | n := n
    · simp at enough
    · simp only [awaitRoom, watched, bounded, Line.watched, Line.bare, looked, Option.map_some]
  | @again calls l l₁ l' looked _ ih =>
    obtain _ | n := n
    · simp at enough
    · have one : (t.bounded patience).watched.hasRoom (l.watched old) =
          some (false, l₁.watched (old ++ [.look l false l₁])) := by
        simp only [watched, bounded, Line.watched, Line.bare, looked, Option.map_some]
      have rest := ih (Nat.le_of_succ_le_succ enough) (old ++ [.look l false l₁])
      simpa only [awaitRoom, one, List.append_assoc, List.singleton_append] using rest

theorem send_refused {n : Nat} {l₁ l₂ : Line σ} (offered : t.put byte l = some (false, l₁))
    (room : awaitRoom t (t.patience l₁.hardware + 1) (l₁.restore saved) = some l₂) :
    send t saved byte (n + 1) l = send t saved byte n l₂.disable := by
  simp only [send, offered, Line.restore] at room ⊢
  rw [room]

/-- Sending a byte makes these calls, for every patience that suffices. -/
theorem Delivers.send (delivers : Delivers t saved byte calls l l') {n : Nat}
    (enough : calls.length ≤ n) (patient : ∀ s, calls.length ≤ patience s)
    (old : List (PortCall σ)) :
    send (t.bounded patience).watched saved byte n (l.watched old) =
      some (l'.watched (old ++ calls)) := by
  induction delivers generalizing n old with
  | taken offered =>
    obtain _ | n := n
    · simp at enough
    · simp only [Transmitter.send, watched, bounded, Line.watched, Line.bare, offered,
        Option.map_some]
  | @refused looks calls l l₁ l₂ l' offered looked _ ih =>
    simp only [List.length_cons, List.length_append] at enough patient
    obtain _ | n := n
    · omega
    · have one : (t.bounded patience).watched.put byte (l.watched old) =
          some (false, l₁.watched (old ++ [.offer byte l false l₁])) := by
        simp only [watched, bounded, Line.watched, Line.bare, offered, Option.map_some]
      have few : looks.length ≤ patience l₁.hardware + 1 := by
        have := patient l₁.hardware
        omega
      have room := looked.await patience few (old ++ [.offer byte l false l₁])
      have rest := ih (n := n) (by omega) (fun s => by have := patient s; omega)
        (old ++ [.offer byte l false l₁] ++ looks)
      exact (send_refused one room).trans (rest.trans (by simp))

/-- Nothing is offered, and the flag stays what it is, unless a look changes it. -/
theorem Looks.quiet (looked : Looks t looks l l') :
    looks.filterMap accepted? = [] ∧
      ∀ earlier call later, looks = earlier ++ call :: later →
        call.offered? = none ∧ (∀ saved, call.due saved = saved) ∧
        ((∀ other ∈ earlier, other.KeptFlag) → call.found.cpu.enabled = l.cpu.enabled) := by
  induction looked with
  | @room l l' looked =>
    refine ⟨rfl, fun earlier call later split => ?_⟩
    obtain ⟨rfl, rfl⟩ := split_single split
    exact ⟨rfl, fun _ => rfl, fun _ => rfl⟩
  | @again calls l l₁ l' looked _ ih =>
    refine ⟨ih.1, fun earlier call later split => ?_⟩
    rcases List.cons_eq_append_iff.mp split with ⟨rfl, begun⟩ | ⟨earlier, rfl, others⟩
    · obtain ⟨rfl, -⟩ := List.cons.inj begun
      exact ⟨rfl, fun _ => rfl, fun _ => rfl⟩
    · obtain ⟨silent, due, same⟩ := ih.2 earlier call later others
      refine ⟨silent, due, fun kept => ?_⟩
      have first := kept _ List.mem_cons_self
      exact (same fun other mem => kept other (List.mem_cons_of_mem _ mem)).trans first

structure Conversed (saved : Bool) (bytes : List UInt8) (l l' : Line σ)
    (calls : List (PortCall σ)) : Prop where
  accepted : calls.filterMap accepted? = bytes
  next : ∀ earlier call later, calls = earlier ++ call :: later →
    ∀ byte ∈ call.offered?, earlier.filterMap accepted? ++ [byte] <+: bytes
  flag : l.cpu.enabled = false → ∀ earlier call later, calls = earlier ++ call :: later →
    (∀ other ∈ earlier, other.KeptFlag) → call.found.cpu.enabled = call.due saved
  last : l.cpu.enabled = false → (∀ call ∈ calls, call.KeptFlag) → l'.cpu.enabled = false

theorem Conversed.nothing (saved : Bool) (l : Line σ) : Conversed saved [] l l [] where
  accepted := rfl
  next earlier call later split := by simp at split
  flag _ earlier call later split := by simp at split
  last off _ := off

/-- Calls that carry one string and then another carry both. -/
theorem Conversed.append {bytes more : List UInt8} {l₁ : Line σ} {later : List (PortCall σ)}
    (first : Conversed saved bytes l l₁ calls) (second : Conversed saved more l₁ l' later) :
    Conversed saved (bytes ++ more) l l' (calls ++ later) := by
  constructor
  case accepted => rw [List.filterMap_append, first.accepted, second.accepted]
  case next =>
    intro earlier call rest split byte offered
    rcases split_append split with ⟨rest, inside, -⟩ | ⟨begun, rfl, inside⟩
    · exact (first.next _ _ _ inside byte offered).trans (List.prefix_append ..)
    · have next := second.next _ _ _ inside byte offered
      simpa [first.accepted, List.prefix_append_right_inj] using next
  case flag =>
    intro off earlier call rest split kept
    rcases split_append split with ⟨rest, inside, -⟩ | ⟨begun, rfl, inside⟩
    · exact first.flag off _ _ _ inside kept
    · have before := first.last off fun other mem => kept other (List.mem_append_left _ mem)
      exact second.flag before _ _ _ inside fun other mem =>
        kept other (List.mem_append_right _ mem)
  case last =>
    intro off kept
    apply second.last
    · exact first.last off fun other mem => kept other (List.mem_append_left _ mem)
    · exact fun other mem => kept other (List.mem_append_right _ mem)

/-- A refused offer and the looks after it: the flag is cleared again before the next offer. -/
theorem Conversed.refused {l₁ l₂ : Line σ} (looked : Looks t looks (l₁.restore saved) l₂)
    (rest : Conversed saved [byte] l₂.disable l' calls) :
    Conversed saved [byte] l l' (.offer byte l false l₁ :: (looks ++ calls)) := by
  obtain ⟨silent, quiet⟩ := looked.quiet
  constructor
  case accepted => simp [accepted?, silent, rest.accepted]
  case next =>
    intro earlier call later split other offered
    rcases List.cons_eq_append_iff.mp split with ⟨rfl, begun⟩ | ⟨earlier, rfl, others⟩
    · obtain ⟨rfl, -⟩ := List.cons.inj begun
      cases offered
      simp
    · rcases split_append others with ⟨rest, inside, -⟩ | ⟨begun, rfl, inside⟩
      · rw [(quiet _ _ _ inside).1] at offered
        cases offered
      · have next := rest.next _ _ _ inside other offered
        simpa [accepted?, silent] using next
  case flag =>
    intro off earlier call later split kept
    rcases List.cons_eq_append_iff.mp split with ⟨rfl, begun⟩ | ⟨earlier, rfl, others⟩
    · obtain ⟨rfl, -⟩ := List.cons.inj begun
      exact off
    · have offer := kept _ List.mem_cons_self
      have tail : ∀ other ∈ earlier, other.KeptFlag :=
        fun other mem => kept other (List.mem_cons_of_mem _ mem)
      rcases split_append others with ⟨rest, inside, -⟩ | ⟨begun, rfl, inside⟩
      · obtain ⟨-, due, same⟩ := quiet _ _ _ inside
        -- Restoring only sets the flag, so it gives the caller's flag where it was clear.
        have still : l₁.cpu.enabled = false := offer.trans off
        rw [same tail, due]
        simp [Line.restore, Cpu.enabled_restore, still]
      · exact rest.flag rfl _ _ _ inside fun other mem => tail other (List.mem_append_right _ mem)
  case last =>
    intro _ kept
    exact rest.last rfl fun other mem =>
      kept other (List.mem_cons_of_mem _ (List.mem_append_right _ mem))

theorem Delivers.conversed (delivers : Delivers t saved byte calls l l') :
    Conversed saved [byte] l l' calls := by
  induction delivers with
  | @taken l l' offered =>
    constructor
    case accepted => rfl
    case next =>
      intro earlier call later split other offered
      obtain ⟨rfl, rfl⟩ := split_single split
      cases offered
      simp
    case flag =>
      intro off earlier call later split _
      obtain ⟨rfl, rfl⟩ := split_single split
      exact off
    case last =>
      intro off kept
      exact (kept _ List.mem_cons_self).trans off
  | refused offered looked _ ih => exact ih.refused looked

theorem drain_succ {n : Nat} {c : Channel σ} {rest : Stream}
    (popped : c.stream.pop = some (byte, rest))
    (sent : send t saved byte (t.patience c.hardware + 1) c.toLine = some l) :
    drain t saved (n + 1) c = drain t saved n { l with stream := rest } := by
  simp only [drain, popped, sent]

namespace Yields

theorem after_looks (yields : t.Yields fine) (looked : Looks t looks l l')
    (start : fine l.hardware) : fine l'.hardware := by
  induction looked with
  | room looked => exact yields.look start looked
  | again looked _ ih => exact ih (yields.look start looked)

theorem after_delivery (yields : t.Yields fine) (delivers : Delivers t saved byte calls l l')
    (start : fine l.hardware) : fine l'.hardware := by
  induction delivers with
  | taken offered => exact yields.offer start offered
  | @refused looks calls l l₁ l₂ l' offered looked _ ih =>
    have refused : fine l₁.hardware := yields.offer start offered
    have room : fine l₂.hardware := yields.after_looks looked refused
    exact ih room

/-- By induction on the bytes to send. -/
theorem drain (yields : t.Yields fine) (saved : Bool) (n : Nat) {c : Channel σ}
    (start : fine c.hardware) :
    ∃ (c' : Channel σ) (calls : List (PortCall σ)),
      (∀ patience, (∀ s, calls.length ≤ patience s) → ∀ old,
        Transmitter.drain (t.bounded patience).watched saved n (c.watched old) =
          some (c'.watched (old ++ calls))) ∧
      fine c'.hardware ∧ c'.stream.contents = c.stream.contents.drop n ∧
      Conversed saved (c.stream.contents.take n) c.toLine c'.toLine calls := by
  induction n generalizing c with
  | zero => exact ⟨c, [], by simp [Transmitter.drain], start, rfl, .nothing saved c.toLine⟩
  | succ n ih =>
    cases popped : c.stream.pop with
    | none =>
      have empty := c.stream.pop_eq_none_iff.mp popped
      refine ⟨c, [], fun patience _ old => ?_, start, by simp [empty], ?_⟩
      · simp [Transmitter.drain, Channel.watched, popped]
      · simpa [empty] using Conversed.nothing saved c.toLine
    | some first =>
      obtain ⟨byte, rest⟩ := first
      have split := Stream.contents_of_pop popped
      obtain ⟨sending, l, delivers⟩ := yields.finite saved byte c.toLine start
      have still := yields.after_delivery delivers start
      obtain ⟨c', others, drained, last, left, conversed⟩ :=
        ih (c := { l with stream := rest }) still
      refine ⟨c', sending ++ others, fun patience enough old => ?_, last, ?_, ?_⟩
      · simp only [List.length_append] at enough
        have for_this : ∀ s, sending.length ≤ patience s :=
          fun s => Nat.le_of_add_right_le (enough s)
        have for_others : ∀ s, others.length ≤ patience s :=
          fun s => Nat.le_of_add_left_le (enough s)
        have sent := delivers.send (Nat.le_succ_of_le (for_this c.hardware)) for_this old
        have later := drained patience for_others (old ++ sending)
        have popped' : (c.watched old).stream.pop = some (byte, rest) := popped
        exact (drain_succ popped' sent).trans (later.trans (by rw [List.append_assoc]))
      · rw [left, split, List.drop_succ_cons]
      · rw [split, List.take_succ_cons]
        exact delivers.conversed.append conversed

theorem commit (yields : t.Yields fine) {c : Channel σ} (start : fine c.hardware) :
    ∃ (c' : Channel σ) (calls : List (PortCall σ)),
      (∀ patience, (∀ s, calls.length ≤ patience s) →
        (t.bounded patience).watched.commit (c.watched []) = some (c'.watched calls)) ∧
      fine c'.hardware ∧ c'.stream.contents = [] ∧
      calls.filterMap accepted? = c.stream.contents ∧
      (∀ earlier call later, calls = earlier ++ call :: later →
        (∀ byte ∈ call.offered?, earlier.filterMap accepted? ++ [byte] <+: c.stream.contents) ∧
        ((∀ other ∈ earlier, other.KeptFlag) →
          call.found.cpu.enabled = call.due c.cpu.enabled)) ∧
      ((∀ call ∈ calls, call.KeptFlag) → c'.cpu.enabled = c.cpu.enabled) := by
  let begun : Channel σ := { c with cpu := c.cpu.disable }
  obtain ⟨c₁, calls, drained, last, left, conversed⟩ :=
    yields.drain c.cpu.enabled c.stream.held (c := begun) start
  have all : begun.stream.contents.take c.stream.held = c.stream.contents := by
    rw [← Stream.length_contents, List.take_length]
  have none_left : begun.stream.contents.drop c.stream.held = [] := by
    rw [← Stream.length_contents, List.drop_length]
  rw [all] at conversed
  refine ⟨{ c₁ with cpu := c₁.cpu.restore c.cpu.enabled }, calls, fun patience enough => ?_, last,
    left.trans none_left, conversed.accepted, fun earlier call later split => ⟨?_, ?_⟩,
    fun kept => ?_⟩
  · exact Option.bind_eq_some_iff.mpr ⟨_, drained patience enough [], rfl⟩
  · exact conversed.next earlier call later split
  · exact conversed.flag rfl earlier call later split
  · have off : c₁.cpu.enabled = false := conversed.last rfl kept
    simp [Cpu.enabled_restore, off]

end Yields

theorem awaitRoom_longer {m n : Nat} (more : m ≤ n) (ran : awaitRoom t m l = some l') :
    awaitRoom (t.bounded longer) n l = some l' := by
  induction m generalizing n l with
  | zero => cases ran
  | succ m ih =>
    obtain ⟨n, rfl⟩ := Nat.exists_eq_succ_of_ne_zero (by omega : n ≠ 0)
    have same : (t.bounded longer).hasRoom = t.hasRoom := rfl
    rw [awaitRoom] at ran ⊢
    rw [same]
    rcases looked : t.hasRoom l with _ | ⟨_ | _, l₁⟩
    · simp [looked] at ran
    · simp only [looked] at ran ⊢
      exact ih (Nat.le_of_succ_le_succ more) ran
    · simpa only [looked] using ran

/-- More patience changes nothing for a byte that was taken. -/
theorem send_longer (patient : ∀ s, t.patience s ≤ longer s) {m n : Nat} (more : m ≤ n)
    (ran : send t saved byte m l = some l') :
    send (t.bounded longer) saved byte n l = some l' := by
  induction m generalizing n l with
  | zero => cases ran
  | succ m ih =>
    obtain ⟨n, rfl⟩ := Nat.exists_eq_succ_of_ne_zero (by omega : n ≠ 0)
    have same : (t.bounded longer).put = t.put := rfl
    rw [send] at ran
    rcases offered : t.put byte l with _ | ⟨_ | _, l₁⟩
    · simp [offered] at ran
    · simp only [offered] at ran
      cases waited : awaitRoom t (t.patience (l₁.restore saved).hardware + 1)
          (l₁.restore saved) with
      | none => simp [waited] at ran
      | some l₂ =>
        simp only [waited] at ran
        have room : awaitRoom (t.bounded longer) (longer l₁.hardware + 1) (l₁.restore saved) =
            some l₂ := awaitRoom_longer (Nat.succ_le_succ (patient l₁.hardware)) waited
        have rest := ih (Nat.le_of_succ_le_succ more) ran
        exact (send_refused (t := t.bounded longer) offered room).trans rest
    · simp only [offered] at ran
      simpa only [send, same, offered] using ran

theorem drain_longer (patient : ∀ s, t.patience s ≤ longer s) (n : Nat) {c c' : Channel σ}
    (ran : drain t saved n c = some c') : drain (t.bounded longer) saved n c = some c' := by
  induction n generalizing c with
  | zero => exact ran
  | succ n ih =>
    rw [drain] at ran
    cases popped : c.stream.pop with
    | none => simpa only [drain, popped] using ran
    | some first =>
      simp only [popped] at ran
      cases sent : send t saved first.1 (t.patience c.hardware + 1) c.toLine with
      | none => simp [sent] at ran
      | some l =>
        simp only [sent] at ran
        have longer_sent := send_longer patient (Nat.succ_le_succ (patient c.hardware)) sent
        exact (drain_succ (t := t.bounded longer) popped longer_sent).trans (ih ran)

theorem commit_longer (patient : ∀ s, t.patience s ≤ longer s) {c c' : Channel σ}
    (ran : t.commit c = some c') : (t.bounded longer).commit c = some c' := by
  obtain ⟨c₁, drained, rest⟩ := Option.bind_eq_some_iff.mp ran
  exact Option.bind_eq_some_iff.mpr ⟨c₁, drain_longer patient _ drained, rest⟩

end Transmitter

open Transmitter in
/-- A commit returns once the patience is enough, and with any other it returns nothing else. It
leaves the stream empty, and what was in it has been accepted, in order. Until a byte is accepted,
that byte is what is offered. As long as the calls keep the interrupt flag, bytes are offered with
interrupts disabled, and looks are taken and the commit returns with the flag of the caller. -/
theorem commit_sends_each_byte_once {t : Transmitter σ} {fine : σ → Prop} (yields : t.Yields fine)
    {c : Channel σ} (start : fine c.hardware) :
    ∃ (c' : Channel σ) (calls : List (PortCall σ)),
      (∀ patience, (∀ s, calls.length ≤ patience s) →
        (t.bounded patience).commit c = some c' ∧
        (t.bounded patience).watched.commit (c.watched []) = some (c'.watched calls)) ∧
      (∀ patience other, (t.bounded patience).commit c = some other → other = c') ∧
      fine c'.hardware ∧ c'.stream.contents = [] ∧
      calls.filterMap accepted? = c.stream.contents ∧
      (∀ earlier call later, calls = earlier ++ call :: later →
        (∀ byte ∈ call.offered?, earlier.filterMap accepted? ++ [byte] <+: c.stream.contents) ∧
        ((∀ other ∈ earlier, other.KeptFlag) →
          call.found.cpu.enabled = call.due c.cpu.enabled)) ∧
      ((∀ call ∈ calls, call.KeptFlag) → c'.cpu.enabled = c.cpu.enabled) := by
  obtain ⟨c', calls, committed, rest⟩ := yields.commit start
  have bare : ∀ patience, (∀ s, calls.length ≤ patience s) →
      (t.bounded patience).commit c = some c' := by
    intro patience enough
    have same := bare_commit (t := t.bounded patience) (c.watched [])
    rw [committed patience enough] at same
    exact same.symm
  refine ⟨c', calls, fun patience enough => ⟨bare patience enough, committed patience enough⟩,
    fun patience other ran => ?_, rest⟩
  -- A patience beyond both bounds gives either result.
  let longer : σ → Nat := fun s => max (patience s) calls.length
  have same : (t.bounded longer).commit c = some other :=
    commit_longer (fun s => Nat.le_max_left ..) ran
  have returned := bare longer fun s => Nat.le_max_right ..
  exact Option.some.inj (same.symm.trans returned)

namespace Transmitter

variable {t : Transmitter σ} {fine : σ → Prop} {taken : σ → List UInt8}
variable {saved : Bool} {byte : UInt8} {l l' : Line σ}

theorem Waits.looks {n : Nat} (waits : Waits t n l l') : ∃ calls, Looks t calls l l' := by
  induction waits with
  | room looked => exact ⟨_, .room looked⟩
  | again looked _ ih =>
    obtain ⟨calls, looks⟩ := ih
    exact ⟨_, .again looked looks⟩

theorem Takes.delivers {n : Nat} (takes : Takes t saved byte n l l') :
    ∃ calls, Delivers t saved byte calls l l' := by
  induction takes with
  | taken offered => exact ⟨_, .taken offered⟩
  | refused offered waits _ _ ih =>
    obtain ⟨looks, looked⟩ := waits.looks
    obtain ⟨calls, delivers⟩ := ih
    exact ⟨_, .refused offered looked delivers⟩

theorem Patient.yields (patient : t.Patient fine taken) : t.Yields fine where
  offer start offered := (patient.offer start offered).1
  look start looked := (patient.look start looked).1
  finite saved byte l start := by
    obtain ⟨n, l', takes, -⟩ := patient.finite saved byte l start
    obtain ⟨calls, delivers⟩ := takes.delivers
    exact ⟨calls, l', delivers⟩

end Transmitter

/-- Two bytes before a UART that is busy twice and then refuses the first of them once more, and
refuses the second twice. -/
def pacedChannel : Channel PacedUart where
  cpu := {}
  hardware := { busy := [2, 0], rejects := [1, 2] }
  stream := (Stream.push [0x61, 0x62] { exponent := 3 }).2

theorem two_bytes_are_sent_once :
    ∃ c', PacedUart.transmitter.commit pacedChannel = some c' ∧ c'.stream.contents = [] ∧
      c'.hardware.sent = #[0x61, 0x62] ∧ c'.cpu.enabled = true := by
  obtain ⟨c', calls, -, unique, -, empty, -⟩ :=
    commit_sends_each_byte_once PacedUart.patient.yields (c := pacedChannel) trivial
  have seen : (PacedUart.transmitter.commit pacedChannel).map
      (fun c => (c.hardware.sent, c.cpu.enabled)) = some (#[0x61, 0x62], true) := by
    decide +kernel
  obtain ⟨other, ran, found⟩ := Option.map_eq_some_iff.mp seen
  obtain rfl := unique PacedUart.transmitter.patience other ran
  obtain ⟨sent, flag⟩ := Prod.mk.inj found
  exact ⟨other, ran, empty, sent, flag⟩

end CoopKernel
