import CoopKernel.Proofs.ExecRules
import CoopKernel.Proofs.NestOperations

/-!
# Rosters

What nests are about: who waits in which queue, and who holds which resource. A
submission, a handover and the traffic of a main queue each change a roster in
one of a few ways, and a kernel changes in the same way, for any number of nests
at once.
-/

namespace CoopKernel

inductive NestOp where
  | submit (n : NestId) (t : TaskId)
  | handOver (n : NestId)
  | add (q : Nat) (t : TaskId)
  | pop (q : Nat)
deriving DecidableEq, Repr

namespace NestOp

def run : NestOp → Exec Kernel Unit
  | submit n t => do
    let _ ← Kernel.submit n t
  | handOver n => Kernel.handOver n
  | add q t => do
    let _ ← Kernel.add (.main q) t
  | pop q => do
    let _ ← modifyGet (Kernel.pop (.main q))

/-- Only tasks with workers are queued, and only a task in no queue is submitted. -/
def Fit (k : Kernel) : NestOp → Prop
  | submit _ t => k.isBound t = true ∧ k.isQueued t = false
  | add _ t => k.isBound t = true
  | handOver _ | pop _ => True

instance (k : Kernel) : DecidablePred (Fit k)
  | submit _ t => inferInstanceAs (Decidable (k.isBound t = true ∧ k.isQueued t = false))
  | add _ t => inferInstanceAs (Decidable (k.isBound t = true))
  | handOver _ | pop _ => isTrue trivial

end NestOp

structure Roster where
  queues : QueueId → List TaskId
  holder : NestId → Option TaskId

namespace Roster

def append (q : QueueId) (t : TaskId) (r : Roster) : Roster :=
  { r with queues := Function.update r.queues q (r.queues q ++ [t]) }

def leave (q : QueueId) (rest : List TaskId) (r : Roster) : Roster :=
  { r with queues := Function.update r.queues q rest }

def assign (n : NestId) (t : Option TaskId) (r : Roster) : Roster :=
  { r with holder := Function.update r.holder n t }

def grant (feeds : NestId → Nat) (n : NestId) (t : TaskId) (r : Roster) : Roster :=
  (r.append (.main (feeds n)) t).assign n (some t)

section

variable {p q : QueueId} {t : TaskId} {n : NestId} {r : Roster}

@[simp] theorem queues_append_self : (r.append q t).queues q = r.queues q ++ [t] :=
  Function.update_self ..

@[simp] theorem queues_append_ne (other : p ≠ q) : (r.append q t).queues p = r.queues p :=
  Function.update_of_ne other ..

@[simp] theorem queues_leave_self {rest : List TaskId} : (r.leave q rest).queues q = rest :=
  Function.update_self ..

@[simp] theorem queues_leave_ne {rest : List TaskId} (other : p ≠ q) :
    (r.leave q rest).queues p = r.queues p :=
  Function.update_of_ne other ..

@[simp] theorem queues_assign {h : Option TaskId} : (r.assign n h).queues = r.queues := rfl

@[simp] theorem queues_grant {feeds : NestId → Nat} :
    (r.grant feeds n t).queues = (r.append (.main (feeds n)) t).queues := rfl

@[simp] theorem holder_append : (r.append q t).holder = r.holder := rfl

@[simp] theorem holder_leave {rest : List TaskId} : (r.leave q rest).holder = r.holder := rfl

theorem holder_assign (h : Option TaskId) (m : NestId) :
    (r.assign n h).holder m = if m = n then h else r.holder m :=
  Function.update_apply ..

theorem holder_grant (feeds : NestId → Nat) (m : NestId) :
    (r.grant feeds n t).holder m = if m = n then some t else r.holder m :=
  Function.update_apply ..

end

inductive Step (feeds : NestId → Nat) (r : Roster) : NestOp → Roster → Prop where
  | waits {n t u} (held : r.holder n = some u) (idle : ∀ q, t ∉ r.queues q) :
    Step feeds r (.submit n t) (r.append (.waiting n) t)
  | granted {n t} (free : r.holder n = none) (idle : ∀ q, t ∉ r.queues q) :
    Step feeds r (.submit n t) (r.grant feeds n t)
  | freed {n} (empty : r.queues (.waiting n) = []) : Step feeds r (.handOver n) (r.assign n none)
  | promoted {n t rest} (first : r.queues (.waiting n) = t :: rest) :
    Step feeds r (.handOver n) ((r.leave (.waiting n) rest).grant feeds n t)
  | refused {q t} : Step feeds r (.add q t) r
  | added {q t} (idle : ∀ p, t ∉ r.queues p) : Step feeds r (.add q t) (r.append (.main q) t)
  | popped {q} : Step feeds r (.pop q) (r.leave (.main q) (r.queues (.main q)).tail)

end Roster

namespace Kernel

structure Shows (k : Kernel) (feeds : NestId → Nat) (r : Roster) : Prop where
  holds : k.Holds r.queues
  holder : ∀ n, k.holder n = r.holder n
  feeds : ∀ n, k.feeds n = .main (feeds n)

variable {k k' : Kernel} {feeds : NestId → Nat} {r r' : Roster} {n : NestId} {t : TaskId}

namespace Shows

theorem chain (h : k.Shows feeds r) (q : QueueId) : k.chain q = r.queues q := h.holds.chain q

/-- Submitting grants a free resource, and otherwise appends to the tasks that wait. -/
theorem submit (h : k.Shows feeds r) (bound : k.isBound t = true) (idle : k.isQueued t = false) :
    ∃ k' r', (NestOp.submit n t).run k = .ok () k' ∧ k'.Shows feeds r' ∧
      r.Step feeds (.submit n t) r' := by
  obtain ⟨k', lists, submitted, asked⟩ := h.holds.submit n bound
  have ran : (NestOp.submit n t).run k = .ok () k' := by
    rw [NestOp.run]
    exact (Exec.bind_ok submitted).trans rfl
  have holds := asked.holds
  rw [asked.result, idle, if_neg Bool.false_ne_true, Kernel.entry, h.holder n, h.feeds n] at holds
  have nowhere : ∀ q, t ∉ r.queues q := h.holds.not_mem idle
  have feeds' : ∀ m, k'.feeds m = .main (feeds m) :=
    fun m => (asked.rearranged.feeds m).trans (h.feeds m)
  cases held : r.holder n with
  | some u =>
    rw [held] at holds
    refine ⟨k', r.append (.waiting n) t, ran, ⟨holds, fun m => ?_, feeds'⟩,
      .waits held nowhere⟩
    rw [asked.holder m, h.holder n, h.holder m, held]
    split
    · rename_i same
      rw [same]
      exact held.symm
    · rfl
  | none =>
    rw [held] at holds
    refine ⟨k', r.grant feeds n t, ran, ⟨holds, fun m => ?_, feeds'⟩,
      .granted held nowhere⟩
    rw [asked.holder m, h.holder n, h.holder m, held]
    exact (Roster.holder_grant feeds m).symm

theorem handOver (h : k.Shows feeds r) (n : NestId) :
    ∃ k' r', (NestOp.handOver n).run k = .ok () k' ∧ k'.Shows feeds r' ∧
      r.Step feeds (.handOver n) r' := by
  cases first : r.queues (.waiting n) with
  | nil =>
    obtain ⟨k', ran, holds, rearranged, holder⟩ := h.holds.handOver_nil first
    refine ⟨k', r.assign n none, ran, ⟨holds, fun m => ?_, fun m => ?_⟩, .freed first⟩
    · rw [holder m, h.holder m]
      exact (Roster.holder_assign none m).symm
    · exact (rearranged.feeds m).trans (h.feeds m)
  | cons t rest =>
    obtain ⟨k', ran, holds, rearranged, holder⟩ := h.holds.handOver_cons first
    rw [h.feeds n] at holds
    refine ⟨k', _, ran, ⟨holds, fun m => ?_, fun m => ?_⟩, .promoted first⟩
    · rw [holder m, h.holder m]
      exact (Roster.holder_grant feeds m).symm
    · exact (rearranged.feeds m).trans (h.feeds m)

theorem add (h : k.Shows feeds r) (q : Nat) (bound : k.isBound t = true) :
    ∃ k' r', (NestOp.add q t).run k = .ok () k' ∧ k'.Shows feeds r' ∧
      r.Step feeds (.add q t) r' := by
  obtain ⟨k', lists, added, holds, rearranged, holder, rfl⟩ := h.holds.add (.main q) bound
  have ran : (NestOp.add q t).run k = .ok () k' := by
    rw [NestOp.run]
    exact (Exec.bind_ok added).trans rfl
  have holder' : ∀ m, k'.holder m = r.holder m := fun m => (holder m).trans (h.holder m)
  have feeds' : ∀ m, k'.feeds m = .main (feeds m) := fun m => (rearranged.feeds m).trans (h.feeds m)
  cases queued : k.isQueued t with
  | true =>
    rw [queued, if_pos rfl] at holds
    exact ⟨k', r, ran, ⟨holds, holder', feeds'⟩, .refused⟩
  | false =>
    rw [queued, if_neg Bool.false_ne_true] at holds
    exact ⟨k', r.append (.main q) t, ran, ⟨holds, holder', feeds'⟩,
      .added (h.holds.not_mem queued)⟩

/-- A pop takes the first task out of a main queue, and no other task moves. -/
theorem pop (h : k.Shows feeds r) (q : Nat) :
    ∃ k' r', (NestOp.pop q).run k = .ok () k' ∧ k'.Shows feeds r' ∧ r.Step feeds (.pop q) r' := by
  have runs : ∀ {answer k'}, k.pop (.main q) = (answer, k') → (NestOp.pop q).run k = .ok () k' := by
    intro answer k' popped
    change (match k.pop (.main q) with | (_, k') => EStateM.Result.ok () k') = .ok () k'
    rw [popped]
  cases first : r.queues (.main q) with
  | nil =>
    obtain ⟨k', popped, holds, relinked⟩ := h.holds.pop_nil first
    have step : r.Step feeds (.pop q) _ := .popped
    have empty : (r.queues (.main q)).tail = r.queues (.main q) := by simp [first]
    rw [Roster.leave, empty, Function.update_eq_self] at step
    refine ⟨k', r, runs popped, ⟨holds, fun m => ?_, fun m => ?_⟩, step⟩
    · exact (relinked.holder m).trans (h.holder m)
    · exact ((relinked.rearranged (by simp)).feeds m).trans (h.feeds m)
  | cons t rest =>
    obtain ⟨k', popped, holds, relinked⟩ := h.holds.pop_cons first
    have tail : (r.queues (.main q)).tail = rest := by rw [first, List.tail_cons]
    refine ⟨k', _, runs popped, ⟨?_, fun m => ?_, fun m => ?_⟩, .popped⟩
    · rw [tail]
      exact holds
    · exact (relinked.holder m).trans (h.holder m)
    · exact ((relinked.rearranged (by simp [Event.wire?])).feeds m).trans (h.feeds m)

/-- Every fitting operation succeeds, and does one of the things it can do. -/
theorem run (h : k.Shows feeds r) {op : NestOp} (fit : op.Fit k) :
    ∃ k' r', op.run k = .ok () k' ∧ k'.Shows feeds r' ∧ r.Step feeds op r' := by
  cases op with
  | submit n t => exact h.submit fit.1 fit.2
  | handOver n => exact h.handOver n
  | add q t => exact h.add q fit
  | pop q => exact h.pop q

end Shows

end Kernel

end CoopKernel
