import CoopKernel.Console.Transmitter

/-!
# Records of calls

Hardware can be watched: it works as before, and every call is written down with
what it found and what it left. Watching changes nothing: an operation on watched
hardware returns exactly if it returns without the record, and with the same
channel. So the record lists the calls that the operation does make.
-/

namespace CoopKernel

variable {σ κ : Type}

/-- The calls are in the order in which they were made. -/
structure Watched (σ κ : Type) where
  hardware : σ
  calls : List κ

structure RoomCall (σ : Type) where
  goal : Nat
  found : Channel σ
  answer : Bool
  left : Channel σ

inductive PortCall (σ : Type) where
  | offer (byte : UInt8) (found : Line σ) (taken : Bool) (left : Line σ)
  | look (found : Line σ) (room : Bool) (left : Line σ)

namespace Line

def watched (calls : List κ) (l : Line σ) : Line (Watched σ κ) := ⟨l.cpu, ⟨l.hardware, calls⟩⟩

def bare (l : Line (Watched σ κ)) : Line σ := ⟨l.cpu, l.hardware.hardware⟩

end Line

namespace Channel

def watched (calls : List κ) (c : Channel σ) : Channel (Watched σ κ) :=
  { c.toLine.watched calls with stream := c.stream }

def bare (c : Channel (Watched σ κ)) : Channel σ := { c.toLine.bare with stream := c.stream }

end Channel

/-- A commit is not written down. -/
def Backend.watched (b : Backend σ) : Backend (Watched σ (RoomCall σ)) where
  commit c := (b.commit c.bare).map (Channel.watched c.hardware.calls)
  free goal c := (b.free goal c.bare).map fun (answer, left) =>
    (answer, left.watched (c.hardware.calls ++ [⟨goal, c.bare, answer, left⟩]))

def Transmitter.watched (t : Transmitter σ) : Transmitter (Watched σ (PortCall σ)) where
  put byte l := (t.put byte l.bare).map fun (taken, left) =>
    (taken, left.watched (l.hardware.calls ++ [.offer byte l.bare taken left]))
  hasRoom l := (t.hasRoom l.bare).map fun (room, left) =>
    (room, left.watched (l.hardware.calls ++ [.look l.bare room left]))
  patience s := t.patience s.hardware

theorem split_single {α : Type} {only x : α} {earlier later : List α}
    (split : [only] = earlier ++ x :: later) : earlier = [] ∧ x = only := by
  rcases List.cons_eq_append_iff.mp split with ⟨rfl, whole⟩ | ⟨earlier, rfl, whole⟩
  · exact ⟨rfl, (List.cons.inj whole).1⟩
  · simp at whole

/-- An element of two lists in a row is in the first or in the second. -/
theorem split_append {α : Type} {first second earlier later : List α} {x : α}
    (split : first ++ second = earlier ++ x :: later) :
    (∃ rest, first = earlier ++ x :: rest ∧ later = rest ++ second) ∨
      ∃ inner, earlier = first ++ inner ∧ second = inner ++ x :: later := by
  rcases List.append_eq_append_iff.mp split with ⟨inner, rfl, last⟩ | ⟨rest, rfl, tail⟩
  · exact Or.inr ⟨inner, rfl, last⟩
  · cases rest with
    | nil => exact Or.inr ⟨[], by simp, tail.symm⟩
    | cons y rest =>
      obtain ⟨rfl, rfl⟩ := List.cons.inj tail
      exact Or.inl ⟨rest, rfl, rfl⟩

namespace Channel

variable {b : Backend σ}

@[simp] theorem bare_watched (calls : List κ) (c : Channel σ) : (c.watched calls).bare = c := rfl

theorem bare_ensureRoom (needed : Nat) (c : Channel (Watched σ (RoomCall σ))) :
    (ensureRoom b.watched needed c).map (Prod.map id bare) = ensureRoom b needed c.bare := by
  have same : c.stream.room = c.bare.stream.room := rfl
  rw [ensureRoom, ensureRoom, same]
  split
  · cases asked : b.free needed c.bare with
    | none => simp [Backend.watched, asked]
    | some result => simp [Backend.watched, asked]
  · rfl

/-- By induction on the rounds. -/
theorem bare_writeRounds (rounds : Nat) (bytes : List UInt8)
    (c : Channel (Watched σ (RoomCall σ))) :
    (writeRounds b.watched rounds bytes c).map bare = writeRounds b rounds bytes c.bare := by
  induction rounds generalizing bytes c with
  | zero => rfl
  | succ rounds ih =>
    obtain _ | ⟨first, rest⟩ := bytes
    · rfl
    have room := bare_ensureRoom (b := b) (first :: rest).length c
    simp only [writeRounds, ← room]
    rcases ensureRoom b.watched (first :: rest).length c with _ | ⟨_ | _, c₁⟩
    · rfl
    · rfl
    · have stored : (c₁.bare.store (first :: rest)).2 = (c₁.store (first :: rest)).2.bare := rfl
      have count : (c₁.bare.store (first :: rest)).1 = (c₁.store (first :: rest)).1 := rfl
      simp only [Option.map_some, Prod.map, id, stored, count, ← ih]
      split <;> rfl

end Channel

namespace Transmitter

variable {t : Transmitter σ}

theorem bare_awaitRoom (looks : Nat) (l : Line (Watched σ (PortCall σ))) :
    (awaitRoom t.watched looks l).map Line.bare = awaitRoom t looks l.bare := by
  induction looks generalizing l with
  | zero => rfl
  | succ looks ih =>
    rw [awaitRoom, awaitRoom]
    rcases looked : t.hasRoom l.bare with _ | ⟨_ | _, l₁⟩
    · simp only [watched, looked, Option.map_none]
    · simp only [watched, looked, Option.map_some]
      exact ih _
    · simp only [watched, looked, Option.map_some]
      rfl

/-- Watching the calls does not change what sending does. -/
theorem bare_send (saved : Bool) (byte : UInt8) (offers : Nat)
    (l : Line (Watched σ (PortCall σ))) :
    (send t.watched saved byte offers l).map Line.bare = send t saved byte offers l.bare := by
  induction offers generalizing l with
  | zero => rfl
  | succ offers ih =>
    have put : t.watched.put byte l = (t.put byte l.bare).map fun (taken, left) =>
      (taken, left.watched (l.hardware.calls ++ [.offer byte l.bare taken left])) := rfl
    rw [send, send, put]
    rcases t.put byte l.bare with _ | ⟨_ | _, l₁⟩
    · rfl
    · let waiting := (l₁.watched (l.hardware.calls ++ [.offer byte l.bare false l₁])).restore saved
      have waited : (awaitRoom t.watched (t.watched.patience waiting.hardware + 1) waiting).map
          Line.bare = awaitRoom t (t.patience (l₁.restore saved).hardware + 1)
            (l₁.restore saved) := bare_awaitRoom _ waiting
      simp only [Option.map_some, ← waited]
      cases awaitRoom t.watched (t.watched.patience waiting.hardware + 1) waiting with
      | none => rfl
      | some l₂ => exact ih l₂.disable
    · rfl

theorem bare_drain (saved : Bool) (n : Nat) (c : Channel (Watched σ (PortCall σ))) :
    (drain t.watched saved n c).map Channel.bare = drain t saved n c.bare := by
  induction n generalizing c with
  | zero => rfl
  | succ n ih =>
    have stream : c.bare.stream = c.stream := rfl
    rw [drain, drain, stream]
    cases c.stream.pop with
    | none => rfl
    | some first =>
      have sent : (send t.watched saved first.1 (t.watched.patience c.hardware + 1) c.toLine).map
          Line.bare = send t saved first.1 (t.patience c.bare.hardware + 1) c.bare.toLine :=
        bare_send saved first.1 _ c.toLine
      simp only [← sent]
      cases send t.watched saved first.1 (t.watched.patience c.hardware + 1) c.toLine with
      | none => rfl
      | some l => exact ih { l with stream := first.2 }

theorem bare_commit (c : Channel (Watched σ (PortCall σ))) :
    (t.watched.commit c).map Channel.bare = t.commit c.bare := by
  have drained : (drain t.watched c.cpu.enabled c.stream.held { c with cpu := c.cpu.disable }).map
      Channel.bare = drain t c.cpu.enabled c.stream.held { c.bare with cpu := c.cpu.disable } :=
    bare_drain c.cpu.enabled c.stream.held _
  have saved : c.bare.cpu.enabled = c.cpu.enabled := rfl
  have held : c.bare.stream.held = c.stream.held := rfl
  have off : c.bare.cpu.disable = c.cpu.disable := rfl
  rw [commit, commit, saved, held, off, ← drained]
  cases drain t.watched c.cpu.enabled c.stream.held { c with cpu := c.cpu.disable } <;> rfl

end Transmitter

end CoopKernel
