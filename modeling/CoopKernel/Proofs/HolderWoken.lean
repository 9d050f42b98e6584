import CoopKernel.Proofs.NestOperations
import CoopKernel.Proofs.QueueHistory
import CoopKernel.Proofs.TransferProgress

/-!
# Who is woken when a transfer completes

Tasks ask for a bus, let go of it, start transfers and run from the main queue,
in any order, also while a transfer is in progress and also the task that holds
the bus. When a transfer completes, its run of the poll task puts the holder in
the main queue. The one exception is a holder that asked for the bus once more:
it waits in the private queue, behind itself, and is not woken.
-/

namespace CoopKernel.Board

open Spi

/-- What an application does around one bus. A turn takes a task out of the main queue and runs
it; what the worker of an application's task does are further operations. -/
inductive BusOp where
  | request (task : Nat)
  | release
  | start (t : Transfer)
  | add (task : Nat)
  | turn

def turn (bus : Nat) : Exec Board Unit := fun b =>
  match b.kernel.pop (b.feedQueue bus) with
  | (some (.poll p), k) => runPoller p { b with kernel := k }
  | (_, k) => .ok () { b with kernel := k }

namespace BusOp

def run (bus : Nat) : BusOp → Exec Board Unit
  | request task => do
    let _ ← Board.request bus (.user task)
  | release => Board.release bus
  | start t => Board.start bus t
  | add task => do
    let b ← get
    let _ ← onKernel (Kernel.add (b.feedQueue bus) (.user task))
  | turn => Board.turn bus

def runAll (bus : Nat) : List BusOp → Exec Board Unit
  | [] => pure ()
  | op :: ops => do
    op.run bus
    runAll bus ops

end BusOp

/-- Tasks sit in the main queue of the bus or wait for it, and nowhere else; of the poll tasks
only the one of the bus is queued, and it never waits. -/
structure Confined (bus : Nat) (feed : QueueId) (lists : QueueId → List TaskId) : Prop where
  elsewhere : ∀ q, q ≠ feed → q ≠ .waiting (.bus bus) → lists q = []
  polls : ∀ q p, .poll p ∈ lists q → q = feed ∧ p = bus

structure Arbitrated (bus : Nat) (lists : QueueId → List TaskId) (k : Kernel) : Prop where
  holds : k.Holds lists
  main : ∀ n, k.feeds (.bus bus) ≠ .waiting n
  confined : Confined bus (k.feeds (.bus bus)) lists
  client : ∀ t, k.holder (.bus bus) = some t → k.isBound t = true ∧ ∃ i, t = .user i

variable {bus : Nat} {lists lists' : QueueId → List TaskId} {b b' : Board} {k k' : Kernel}
variable {q feed : QueueId} {t : TaskId}

theorem Confined.update (h : Confined bus feed lists) (near : q = feed ∨ q = .waiting (.bus bus))
    {list : List TaskId} (own : ∀ p, .poll p ∈ list → q = feed ∧ p = bus) :
    Confined bus feed (Function.update lists q list) where
  elsewhere r off away := by
    have ne : r ≠ q := by
      rcases near with rfl | rfl
      · exact off
      · exact away
    rw [Function.update_of_ne ne]
    exact h.elsewhere r off away
  polls r p mem := by
    by_cases hr : r = q
    · subst hr
      rw [Function.update_self] at mem
      exact own p mem
    · rw [Function.update_of_ne hr] at mem
      exact h.polls r p mem

theorem Confined.push (h : Confined bus feed lists) (near : q = feed ∨ q = .waiting (.bus bus))
    (own : ∀ p, t = .poll p → q = feed ∧ p = bus) :
    Confined bus feed (Function.update lists q (lists q ++ [t])) := by
  refine h.update near fun p mem => ?_
  rcases List.mem_append.mp mem with old | new
  · exact h.polls q p old
  · exact own p (List.mem_singleton.mp new).symm

namespace Arbitrated

theorem rearranged (h : Arbitrated bus lists k) (same : k.Rearranged k') (holds : k'.Holds lists')
    (confined : Confined bus (k.feeds (.bus bus)) lists')
    (client : ∀ t, k'.holder (.bus bus) = some t → k.isBound t = true ∧ ∃ i, t = .user i) :
    Arbitrated bus lists' k' := by
  refine ⟨holds, ?_, ?_, fun t held => ?_⟩
  · rw [same.feeds]
    exact h.main
  · rw [same.feeds]
    exact confined
  · rw [same.bound]
    exact client t held

theorem steady (h : Arbitrated bus lists b.kernel) (steady : Steady b b') :
    Arbitrated bus lists b'.kernel := by
  have feeds : b'.kernel.feeds (.bus bus) = b.kernel.feeds (.bus bus) := steady.feeds bus
  refine ⟨steady.holds lists h.holds, ?_, ?_, ?_⟩
  · rw [feeds]
    exact h.main
  · rw [feeds]
    exact h.confined
  · rw [steady.holder]
    exact fun t held => (h.client t held).imp (steady.bound t) id

theorem fed (h : Arbitrated bus lists b.kernel) (own : ∀ p, t = .poll p → p = bus)
    (fed : Fed bus t b b' lists lists') : Arbitrated bus lists' b'.kernel := by
  refine h.rearranged fed.rearranged fed.holds ?_ ?_
  · rw [fed.result]
    split
    · exact h.confined
    · exact h.confined.push (Or.inl rfl) fun p same => ⟨rfl, own p same⟩
  · rw [fed.holder]
    exact h.client

theorem pop (h : Arbitrated bus lists k) : ∃ popped k' lists',
    k.pop (k.feeds (.bus bus)) = (popped, k') ∧ Arbitrated bus lists' k' ∧
      (∀ m, k'.holder m = k.holder m) ∧ k'.feeds (.bus bus) = k.feeds (.bus bus) ∧
      ∀ t, popped = some t → k'.isBound t = true ∧ ∀ p, t = .poll p → p = bus := by
  cases split : lists (k.feeds (.bus bus)) with
  | nil =>
    obtain ⟨k', popped, holds, relinked⟩ := h.holds.pop_nil split
    have rearranged : k.Rearranged k' := relinked.rearranged (by simp)
    refine ⟨none, k', lists, popped, h.rearranged rearranged holds h.confined ?_,
      relinked.holder, rearranged.feeds _, fun t none_popped => by cases none_popped⟩
    rw [relinked.holder]
    exact h.client
  | cons t rest =>
    obtain ⟨k', popped, holds, relinked⟩ := h.holds.pop_cons split
    have rearranged : k.Rearranged k' := relinked.rearranged (by simp [Event.wire?])
    have mem : t ∈ lists (k.feeds (.bus bus)) := split ▸ List.mem_cons_self
    have own : ∀ p, .poll p ∈ rest → k.feeds (.bus bus) = k.feeds (.bus bus) ∧ p = bus :=
      fun p later => h.confined.polls _ p (split ▸ List.mem_cons_of_mem t later)
    refine ⟨some t, k', _, popped,
      h.rearranged rearranged holds (h.confined.update (Or.inl rfl) own) ?_,
      relinked.holder, rearranged.feeds _, ?_⟩
    · rw [relinked.holder]
      exact h.client
    · rintro _ ⟨⟩
      refine ⟨(rearranged.bound t).trans (h.holds.bound t (h.holds.queued mem)), ?_⟩
      rintro p rfl
      exact (h.confined.polls _ p mem).2

/-- Once it was queued, the holder sits in the main queue unless it waits for the bus. -/
theorem fed_iff (h : Arbitrated bus lists b.kernel) (fed : Fed bus t b b' lists lists') :
    t ∈ lists' (b.feedQueue bus) ↔ t ∉ lists' (.waiting (.bus bus)) := by
  have apart : b.feedQueue bus ≠ .waiting (.bus bus) := h.main _
  have result := fed.result
  split at result
  · rename_i queued
    subst result
    obtain ⟨r, mem⟩ := (h.holds.queued_iff t).mp queued
    constructor
    · intro here there
      exact apart (h.holds.apart here there)
    · intro away
      have hr : r = b.feedQueue bus := by
        by_contra off
        have hw : r ≠ .waiting (.bus bus) := by
          rintro rfl
          exact away mem
        rw [h.confined.elsewhere r off hw] at mem
        cases mem
      exact hr ▸ mem
  · rename_i idle
    subst result
    rw [Function.update_self, Function.update_of_ne apart.symm]
    constructor
    · intro _
      exact h.holds.not_mem (by simpa using idle) _
    · intro _
      exact List.mem_append_right _ (List.mem_singleton_self t)

/-- A run of the poll task never faults, and one that completes a transfer queues the holder. -/
theorem poll (h : Arbitrated bus lists b.kernel) (bound : b.kernel.isBound (.poll bus) = true) :
    ∃ b' lists', runPoller bus b = .ok () b' ∧ Arbitrated bus lists' b'.kernel ∧
      b'.feedQueue bus = b.feedQueue bus ∧
      ((b.masters.get bus).status = .inProgress → (b'.masters.get bus).status = .ok →
        ∀ t, b.kernel.holder (.bus bus) = some t →
          (t ∈ lists' (b.feedQueue bus) ↔ t ∉ lists' (.waiting (.bus bus)))) := by
  rcases runPoller_cases bus b with ⟨b₁, same, still, status⟩ | ⟨b₁, same, still, done⟩
  · have ready := h.steady still
    have feeds : b₁.feedQueue bus = b.feedQueue bus := still.feeds bus
    obtain ⟨b₂, lists₂, scheduled, fed⟩ := schedulePoll_fed ready.holds (still.bound _ bound)
    refine ⟨b₂, lists₂, same.trans scheduled, ready.fed ?_ fed,
      (fed.rearranged.feeds _).trans feeds, fun busy done => ?_⟩
    · rintro p ⟨⟩
      rfl
    · obtain ⟨k, rfl⟩ := fed.rest
      have going : (b₁.masters.get bus).status = .inProgress := status.elim id (·.trans busy)
      rw [show (b₁.masters.get bus).status = .ok from done] at going
      cases going
  · have ready := h.steady still
    have feeds : b₁.feedQueue bus = b.feedQueue bus := still.feeds bus
    have holder : b₁.kernel.holder (.bus bus) = b.kernel.holder (.bus bus) := still.holder _
    cases held : b.kernel.holder (.bus bus) with
    | none =>
      have free := wakeHolder_free (holder.trans held)
      exact ⟨b₁, lists, same.trans free, ready, feeds, fun _ _ t some_held => by cases some_held⟩
    | some t =>
      obtain ⟨bound', i, rfl⟩ := h.client t held
      obtain ⟨b₂, lists₂, woken, fed⟩ :=
        wakeHolder_fed ready.holds (holder.trans held) (still.bound _ bound')
      refine ⟨b₂, lists₂, same.trans woken, ready.fed ?_ fed,
        (fed.rearranged.feeds _).trans feeds, fun _ _ t' held' => ?_⟩
      · rintro p ⟨⟩
      · cases held'
        rw [← feeds]
        exact ready.fed_iff fed

/-- A turn that completes the transfer puts the holder in the main queue, unless it waits for the
bus itself. -/
theorem turn (h : Arbitrated bus lists b.kernel) : ∃ b' lists', Board.turn bus b = .ok () b' ∧
    Arbitrated bus lists' b'.kernel ∧ b'.feedQueue bus = b.feedQueue bus ∧
      ((b.masters.get bus).status = .inProgress → (b'.masters.get bus).status = .ok →
        ∀ t, b.kernel.holder (.bus bus) = some t →
          (t ∈ lists' (b.feedQueue bus) ↔ t ∉ lists' (.waiting (.bus bus)))) := by
  obtain ⟨popped, k, lists₁, taken, arbitrated, holder, feeds, next⟩ := h.pop
  have turned : Board.turn bus b = match (popped, k) with
      | (some (.poll p), k) => runPoller p { b with kernel := k }
      | (_, k) => .ok () { b with kernel := k } := by
    rw [Board.turn, feedQueue, taken]
  rcases popped with _ | i | p
  · refine ⟨_, lists₁, turned, arbitrated, feeds, fun busy done => ?_⟩
    rw [show (b.masters.get bus).status = .ok from done] at busy
    cases busy
  · refine ⟨_, lists₁, turned, arbitrated, feeds, fun busy done => ?_⟩
    rw [show (b.masters.get bus).status = .ok from done] at busy
    cases busy
  · obtain ⟨bound, own⟩ := next _ rfl
    obtain rfl := own p rfl
    have after : Arbitrated p lists₁ ({ b with kernel := k } : Board).kernel := arbitrated
    obtain ⟨b', lists', ran, kept, feeds', woken⟩ := after.poll bound
    have feed : ({ b with kernel := k } : Board).feedQueue p = b.feedQueue p := feeds
    rw [feed] at woken feeds'
    exact ⟨b', lists', turned.trans ran, kept, feeds', fun busy done t held =>
      woken busy done t ((holder _).trans held)⟩

theorem request (h : Arbitrated bus lists b.kernel) {i : Nat} {answer : Bool}
    (ran : Board.request bus (.user i) b = .ok answer b') :
    ∃ lists', Arbitrated bus lists' b'.kernel := by
  obtain ⟨bound, k, lists', rfl, holds, rearranged, holder, result⟩ := request_ok h.holds ran
  refine ⟨lists', h.rearranged rearranged holds ?_ ?_⟩
  · rw [result]
    split
    · exact h.confined
    · refine h.confined.push ?_ (by rintro p ⟨⟩)
      rw [Kernel.entry]
      split
      · exact Or.inr rfl
      · exact Or.inl rfl
  · intro t held
    rw [holder, if_pos rfl] at held
    cases current : b.kernel.holder (.bus bus) with
    | none =>
      rw [current] at held
      cases held
      exact ⟨bound, i, rfl⟩
    | some c =>
      rw [current] at held
      cases held
      exact h.client _ current

theorem release (h : Arbitrated bus lists b.kernel) (ran : Board.release bus b = .ok () b') :
    ∃ lists', Arbitrated bus lists' b'.kernel := by
  cases first : lists (.waiting (.bus bus)) with
  | nil =>
    obtain ⟨k, left, holds, rearranged, holder⟩ := h.holds.handOver_nil first
    rw [Board.release, onKernel_ok left] at ran
    cases ran
    refine ⟨lists, h.rearranged rearranged holds h.confined fun t held => ?_⟩
    rw [holder, if_pos rfl] at held
    cases held
  | cons t rest =>
    obtain ⟨k, left, holds, rearranged, holder⟩ := h.holds.handOver_cons first
    rw [Board.release, onKernel_ok left] at ran
    cases ran
    have mem : t ∈ lists (.waiting (.bus bus)) := first ▸ List.mem_cons_self
    have never : ∀ p, t ≠ .poll p := by
      rintro p rfl
      exact h.main _ (h.confined.polls _ p mem).1.symm
    refine ⟨_, h.rearranged rearranged holds ?_ fun u held => ?_⟩
    · refine (h.confined.update (Or.inr rfl) fun p later => ?_).push (Or.inl rfl) fun p same => ?_
      · exact h.confined.polls _ p (first ▸ List.mem_cons_of_mem t later)
      · exact absurd same (never p)
    · rw [holder, if_pos rfl] at held
      cases held
      refine ⟨h.holds.bound t (h.holds.queued mem), ?_⟩
      cases t with
      | user i => exact ⟨i, rfl⟩
      | poll p => exact absurd rfl (never p)

theorem start (h : Arbitrated bus lists b.kernel) {transfer : Transfer}
    (ran : Board.start bus transfer b = .ok () b') : ∃ lists', Arbitrated bus lists' b'.kernel := by
  cases accepted : transfer.fault? with
  | some cause =>
    simp only [Board.start, accepted] at ran
    cases ran
  | none =>
    rcases taken : (b.masters.get bus).accept b.memory transfer with ⟨first, n, m⟩
    rw [start_accepted accepted taken] at ran
    have ready := h.steady (.prime bus first n m)
    obtain ⟨b₁, lists₁, scheduled, fed⟩ := schedulePoll_fed ready.holds (poll_bound_prime first n)
    rw [scheduled] at ran
    cases ran
    refine ⟨lists₁, ready.fed ?_ fed⟩
    rintro p ⟨⟩
    rfl

theorem add (h : Arbitrated bus lists b.kernel) {i : Nat} {answer : Bool}
    (ran : onKernel (Kernel.add (b.feedQueue bus) (.user i)) b = .ok answer b') :
    ∃ lists', Arbitrated bus lists' b'.kernel := by
  cases bound : b.kernel.isBound (.user i) with
  | false =>
    rw [onKernel_error (Kernel.add_unbound _ bound)] at ran
    cases ran
  | true =>
    obtain ⟨k, lists', added, holds, rearranged, holder, result⟩ :=
      h.holds.add (b.feedQueue bus) bound
    rw [onKernel_ok added] at ran
    cases ran
    refine ⟨lists', h.rearranged rearranged holds ?_ ?_⟩
    · rw [result]
      split
      · exact h.confined
      · exact h.confined.push (Or.inl rfl) (by rintro p ⟨⟩)
    · rw [holder]
      exact h.client

theorem step (h : Arbitrated bus lists b.kernel) {op : BusOp} (ran : op.run bus b = .ok () b') :
    ∃ lists', Arbitrated bus lists' b'.kernel := by
  cases op with
  | request i =>
    simp only [BusOp.run, bind, EStateM.bind] at ran
    split at ran
    · rename_i answer b₁ asked
      cases ran
      exact h.request asked
    · cases ran
  | release => exact h.release ran
  | start transfer => exact h.start ran
  | add i =>
    simp only [BusOp.run, Exec.get_bind] at ran
    simp only [bind, EStateM.bind] at ran
    split at ran
    · rename_i answer b₁ added
      cases ran
      exact h.add added
    · cases ran
  | turn =>
    obtain ⟨b₁, lists₁, turned, arbitrated, -⟩ := h.turn
    rw [show Board.turn bus b = .ok () b' from ran] at turned
    cases turned
    exact ⟨lists₁, arbitrated⟩

theorem runAll (h : Arbitrated bus lists b.kernel) {ops : List BusOp}
    (ran : BusOp.runAll bus ops b = .ok () b') : ∃ lists', Arbitrated bus lists' b'.kernel := by
  induction ops generalizing lists b with
  | nil =>
    cases ran
    exact ⟨lists, h⟩
  | cons op ops ih =>
    simp only [BusOp.runAll, bind, EStateM.bind] at ran
    split at ran
    · rename_i b₁ first
      obtain ⟨lists₁, arbitrated⟩ := h.step first
      exact ih arbitrated ran
    · cases ran

end Arbitrated

theorem arbitrated_boot (p : Plan) (bus : Nat) :
    Arbitrated bus (fun _ => []) p.bootBoard.kernel where
  holds := (Kernel.bootKernel_fresh p).holds
  main n := by
    obtain ⟨i, feeds⟩ := (Kernel.nests_boot p (.bus bus)).2
    rw [show p.bootBoard.kernel = p.bootKernel from rfl, feeds]
    rintro ⟨⟩
  confined := ⟨fun _ _ _ => rfl, fun _ _ mem => by cases mem⟩
  client t held := by
    rw [show p.bootBoard.kernel = p.bootKernel from rfl, (Kernel.nests_boot p (.bus bus)).1] at held
    cases held

/-- In every reachable state a turn runs to its end, and when it completes a transfer, the holder
of the bus sits in the main queue afterwards unless it waits for the bus behind itself. -/
theorem holder_woken_unless_it_waits (p : Plan) (bus : Nat) (ops : List BusOp)
    (ran : BusOp.runAll bus ops p.bootBoard = .ok () b) :
    ∃ b', BusOp.turn.run bus b = .ok () b' ∧
      ((b.masters.get bus).status = .inProgress → (b'.masters.get bus).status = .ok →
        ∀ t, b.kernel.holder (.bus bus) = some t →
          (t ∈ b'.kernel.chain (b'.feedQueue bus) ↔
            t ∉ b'.kernel.chain (.waiting (.bus bus)))) := by
  obtain ⟨lists, arbitrated⟩ := (arbitrated_boot p bus).runAll ran
  obtain ⟨b', lists', turned, after, feeds, woken⟩ := arbitrated.turn
  refine ⟨b', turned, fun busy done t held => ?_⟩
  rw [after.holds.chain, after.holds.chain, feeds]
  exact woken busy done t held

/-- One task, one bus, one byte: the task is back in the main queue after its transfer. -/
theorem sole_client_woken :
    let p : Plan := { tasks := [some 0], buses := [{}] }
    ∃ b b', BusOp.runAll 0 [.request 0, .turn, .start (.write (.bytes [0x55]))] p.bootBoard =
        .ok () b ∧ BusOp.turn.run 0 b = .ok () b' ∧
      .user 0 ∈ b'.kernel.chain (b'.feedQueue 0) := by
  intro p
  have seen : (Exec.after? (BusOp.runAll 0 [.request 0, .turn, .start (.write (.bytes [0x55]))])
      p.bootBoard).bind (fun b => (Exec.after? (BusOp.turn.run 0) b).map fun b' =>
        ((b.masters.get 0).status, (b'.masters.get 0).status, b.kernel.holder (.bus 0),
          b'.kernel.chain (.waiting (.bus 0)))) = some (.inProgress, .ok, some (.user 0), []) := by
    decide +kernel
  obtain ⟨b, ran, seen⟩ := Option.bind_eq_some_iff.mp seen
  obtain ⟨b', turned, seen⟩ := Option.map_eq_some_iff.mp seen
  simp only [Prod.mk.injEq] at seen
  obtain ⟨busy, done, held, nobody⟩ := seen
  obtain ⟨b₂, turned₂, woken⟩ := holder_woken_unless_it_waits p 0 _ (Exec.of_after ran)
  rw [Exec.of_after turned] at turned₂
  cases turned₂
  refine ⟨b, b', Exec.of_after ran, Exec.of_after turned, (woken busy done _ held).mpr ?_⟩
  rw [nobody]
  exact List.not_mem_nil

/-- A task that asks for the bus once more while it holds it is not woken by its transfer. -/
theorem holder_that_asks_again_is_not_woken :
    ¬ ∀ (p : Plan) (bus : Nat) (ops : List BusOp) (b b' : Board) (t : TaskId),
      BusOp.runAll bus ops p.bootBoard = .ok () b → BusOp.turn.run bus b = .ok () b' →
      (b.masters.get bus).status = .inProgress → (b'.masters.get bus).status = .ok →
      b.kernel.holder (.bus bus) = some t → t ∈ b'.kernel.chain (b'.feedQueue bus) := by
  intro always
  let p : Plan := { tasks := [some 0], buses := [{}] }
  have seen : (Exec.after? (BusOp.runAll 0 [.request 0, .turn, .request 0,
      .start (.write (.bytes [0x55]))]) p.bootBoard).bind (fun b =>
        (Exec.after? (BusOp.turn.run 0) b).map fun b' =>
          ((b.masters.get 0).status, (b'.masters.get 0).status, b.kernel.holder (.bus 0),
            b'.kernel.chain (b'.feedQueue 0))) = some (.inProgress, .ok, some (.user 0), []) := by
    decide +kernel
  obtain ⟨b, ran, seen⟩ := Option.bind_eq_some_iff.mp seen
  obtain ⟨b', turned, seen⟩ := Option.map_eq_some_iff.mp seen
  simp only [Prod.mk.injEq] at seen
  obtain ⟨busy, done, held, empty⟩ := seen
  have mem := always p 0 _ b b' _ (Exec.of_after ran) (Exec.of_after turned) busy done held
  rw [empty] at mem
  cases mem

end CoopKernel.Board
