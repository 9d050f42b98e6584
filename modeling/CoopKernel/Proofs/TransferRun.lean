import CoopKernel.Machine.Boot
import CoopKernel.Proofs.TransferData
import CoopKernel.Proofs.TransferProgress
import Mathlib.Logic.Relation

/-!
# A transfer from its start to its end

Everything that may happen while a transfer is in progress: the poll task runs,
or somebody else does something that leaves the transfer alone. Others may set
the ready flag, the bytes that come in and the budget as they like. Whatever
they do, a transfer that ends has moved every byte once.
-/

namespace CoopKernel.Board

open Spi

/-- `kept` are the cells that others leave alone. -/
inductive Turn (kept : Nat → Prop) (bus : Nat) : Board → Board → Prop where
  | others {b b' : Board} (apart : Apart kept bus b b') : Turn kept bus b b'
  | poll {b b' : Board} (busy : (b.masters.get bus).status = .inProgress)
      (ran : runPoller bus b = .ok () b') : Turn kept bus b b'

abbrev Turns (kept : Nat → Prop) (bus : Nat) : Board → Board → Prop :=
  Relation.ReflTransGen (Turn kept bus)

variable {kept : Nat → Prop} {start : Memory} {plan : List Beat} {old : List Wire}
variable {b b' : Board} {bus : Nat}

theorem Turn.keeps (turn : Turn kept bus b b') (covers : Covers kept plan)
    (h : Serving kept start plan old bus b ∨ Served kept start plan old bus b) :
    Serving kept start plan old bus b' ∨ Served kept start plan old bus b' := by
  cases turn with
  | others apart => exact h.imp (·.apart apart) (·.apart apart)
  | poll busy ran =>
    rcases h with serving | ⟨wires, split, finished⟩
    · rcases serving.runPoller covers with ⟨b₁, same, -, going⟩ | ⟨b₁, same, -, ended⟩
      · rw [same] at ran
        exact Or.inl (going.apart (apart_schedulePoll kept ran))
      · rw [same] at ran
        exact Or.inr (ended.apart (apart_wakeHolder kept ran))
    · rw [finished.done] at busy
      cases busy

theorem turns_keep (turns : Turns kept bus b b') (covers : Covers kept plan)
    (h : Serving kept start plan old bus b) :
    Serving kept start plan old bus b' ∨ Served kept start plan old bus b' := by
  induction turns with
  | refl => exact Or.inl h
  | tail _ turn ih => exact turn.keeps covers ih

/-- The poll task of a started transfer is queued, so the start cannot fail. -/
theorem start_ok (bus : Nat) (b : Board) {t : Transfer} (accepted : t.fault? = none)
    (covers : Covers kept t.beats) :
    ∃ b₁, Board.start bus t b = .ok () b₁ ∧
      Serving kept b.memory t.beats (b.kernel.wires bus) bus b₁ := by
  obtain ⟨b₀, started, -, bound, serving⟩ := start_serving bus b accepted covers
  obtain ⟨b₁, scheduled⟩ := schedulePoll_bound bound
  exact ⟨b₁, started.trans scheduled, serving.apart (apart_schedulePoll kept scheduled)⟩

/-- However a started transfer goes on, once it has ended all of its beats are through. -/
theorem start_complete (bus : Nat) (b : Board) {t : Transfer} (accepted : t.fault? = none)
    (covers : Covers kept t.beats) :
    ∃ b₁, Board.start bus t b = .ok () b₁ ∧ (b₁.masters.get bus).status = .inProgress ∧
      ∀ b₂, Turns kept bus b₁ b₂ → (b₂.masters.get bus).status = .ok →
        ∃ wires, b₂.kernel.wires bus = b.kernel.wires bus ++ wires ∧
          Underway kept b.memory t.beats wires b₂.memory none [] := by
  obtain ⟨b₁, started, serving⟩ := start_ok bus b accepted covers
  refine ⟨b₁, started, ?_, ?_⟩
  · obtain ⟨wires, -, going⟩ := serving
    exact going.busy
  · intro b₂ turns done
    rcases turns_keep turns covers serving with ⟨wires, split, going⟩ | ⟨wires, split, finished⟩
    · rw [going.busy] at done
      cases done
    · exact ⟨wires, split, finished.complete⟩

/-- An accepted transfer starts. When it has ended, it has sent exactly its write buffers and
received as many bytes; the k-th is in the k-th cell of its read buffers. Its poll task stores
nowhere else. -/
theorem transfer_moves_every_byte_once (kept : Nat → Prop) (bus : Nat) (b : Board)
    {t : Transfer} (accepted : t.fault? = none) (full : t.Full)
    (separate : ∀ a ∈ t.lent, a ∉ t.targets)
    (lent : ∀ a, a ∈ t.lent ∨ a ∈ t.targets → kept a) :
    ∃ b₁, Board.start bus t b = .ok () b₁ ∧ (b₁.masters.get bus).status = .inProgress ∧
      (∀ b₂, Turns kept bus b₁ b₂ → (b₂.masters.get bus).status = .ok →
        (b₂.masters.get bus).remaining = 0 ∧
        ∃ wires, b₂.kernel.wires bus = b.kernel.wires bus ++ wires ∧
          Wire.sent wires = t.outgoing b.memory ∧
          (Wire.received wires).length = (Wire.sent wires).length ∧
          (∀ k a, t.targets[k]? = some a → a ∉ t.targets.drop (k + 1) →
            (Wire.received wires)[k]? = some (b₂.memory.get a)) ∧
          ∀ a, kept a → a ∉ t.targets → b₂.memory.get a = b.memory.get a) ∧
      ∀ b₂ b₃, Turns kept bus b₁ b₂ → (b₂.masters.get bus).status = .inProgress →
        runPoller bus b₂ = .ok () b₃ →
        ∀ a, a ∉ t.targets → b₃.memory.get a = b₂.memory.get a := by
  have covers : Covers kept t.beats := by
    intro beat mem a out
    exact lent a (Or.inl (Transfer.lent_of_beat mem out))
  obtain ⟨b₁, started, serving⟩ := start_ok bus b accepted covers
  refine ⟨b₁, started, ?_, ?_, ?_⟩
  · obtain ⟨wires, -, going⟩ := serving
    exact going.busy
  · intro b₂ turns done
    rcases turns_keep turns covers serving with ⟨wires, split, going⟩ | ⟨wires, split, finished⟩
    · rw [going.busy] at done
      cases done
    · refine ⟨finished.residue, wires, split, ?_⟩
      exact Transfer.of_complete accepted full separate (fun a ha => lent a (Or.inr ha))
        finished.complete
  · intro b₂ b₃ turns busy ran a miss
    rcases turns_keep turns covers serving with going | ⟨wires, split, finished⟩
    · exact going.frame ran fun beat mem into =>
        miss (Transfer.target_of_beat accepted full mem into)
    · rw [finished.done] at busy
      cases busy

/-- Runs of the poll task with nothing in between, as long as the transfer is in progress. -/
def pollRuns (bus : Nat) : Nat → Board → Option Board
  | 0, b => some b
  | n + 1, b =>
    if (b.masters.get bus).status = .inProgress then
      match runPoller bus b with
      | .ok _ b' => pollRuns bus n b'
      | .error _ _ => none
    else none

theorem turns_of_pollRuns {n : Nat} (ran : pollRuns bus n b = some b') : Turns kept bus b b' := by
  induction n generalizing b with
  | zero =>
    cases ran
    exact .refl
  | succ n ih =>
    rw [pollRuns] at ran
    split at ran
    · rename_i busy
      split at ran
      · rename_i b₁ first
        exact .head (.poll busy first) (ih ran)
      · cases ran
    · cases ran

def transferRuns (bus : Nat) (t : Transfer) (n : Nat) (b : Board) : Option Board :=
  (Exec.after? (Board.start bus t) b).bind (pollRuns bus n)

theorem turns_of_transferRuns {t : Transfer} {n : Nat} {b₁ : Board}
    (ran : transferRuns bus t n b = some b') (started : Board.start bus t b = .ok () b₁) :
    Turns kept bus b₁ b' := by
  obtain ⟨b₂, started', runs⟩ := Option.bind_eq_some_iff.mp ran
  rw [Exec.of_after started'] at started
  cases started
  exact turns_of_pollRuns runs

/-- Two bytes each way with one look a run and a flag set at every second look: four runs. -/
theorem exchange_in_four_runs :
    let bus : BusPlan :=
      { budget := ⟨1, by decide⟩, hardware := .scripted (fun n => n % 2 = 1) [0xa1, 0xa2] }
    let b := ({ buses := [bus], buffers := [[0, 0]] } : Plan).bootBoard
    ∃ b₁ b₂ wires, Board.start 0 (.exchange (.bytes [1, 2]) ⟨0, 2⟩) b = .ok () b₁ ∧
      pollRuns 0 4 b₁ = some b₂ ∧ b₂.kernel.wires 0 = b.kernel.wires 0 ++ wires ∧
      Wire.sent wires = [1, 2] ∧ (Wire.received wires)[1]? = some (b₂.memory.get 1) := by
  intro bus b
  obtain ⟨b₁, started, -, ended, -⟩ := transfer_moves_every_byte_once (fun _ => True) 0 b
    (t := .exchange (.bytes [1, 2]) ⟨0, 2⟩) (by decide) trivial (fun a mem => by cases mem)
    fun _ _ => trivial
  have four : (Exec.after? (Board.start 0 (.exchange (.bytes [1, 2]) ⟨0, 2⟩)) b).bind (fun b₁ =>
      (pollRuns 0 4 b₁).map fun b₂ => (b₂.masters.get 0).status) = some .ok := by decide +kernel
  obtain ⟨b₁', started', four⟩ := Option.bind_eq_some_iff.mp four
  rw [Exec.of_after started'] at started
  cases started
  obtain ⟨b₂, ran, done⟩ := Option.map_eq_some_iff.mp four
  obtain ⟨-, wires, split, sent, -, stored, -⟩ := ended b₂ (turns_of_pollRuns ran) done
  exact ⟨b₁, b₂, wires, Exec.of_after started', ran, split, sent, stored 1 1 rfl (by decide)⟩

end CoopKernel.Board
