import CoopKernel.Proofs.HolderWoken
import CoopKernel.Proofs.PollTaskSpared

/-!
# Where the poll task of a bus is

A transfer in progress is driven by the poll task of its bus. Between the runs
of that task the two agree: a transfer is in progress exactly if the task sits
in the main queue of the bus. Transfers may be started at any time, also while
one is in progress, and every other task may do what it likes, as long as it
takes the poll task out of the queue only to run it at once.
-/

namespace CoopKernel.Board

open Spi Exec

/-- Nobody else submits the poll task of the bus, takes it out of its queue or runs it. -/
def Operation.Spares (bus : Nat) (b : Board) : Operation → Prop
  | add _ t => t ≠ some (.poll bus)
  | pop q => (b.kernel.pop q).1 ≠ some (.poll bus)
  | submit _ t | request _ t => t ≠ .poll bus
  | runPoller p => p ≠ bus
  | _ => True

def Operation.bus? (b : Board) : Operation → Option Nat
  | start bus _ => some bus
  | identifyChip i | awaitChip i | askStatus i | askId i | command i _ =>
    some (b.chip i).device.bus
  | _ => none

/-- What happens on a board outside the runs of the poll task of `bus`. A turn takes a task out of
a main queue; a poll task runs at once, and what any other task does are further deeds. Transfers
on the bus are started when the board is `ready`. Stopped operations count as well. -/
inductive Deed (bus : Nat) (ready : Board → Prop) (b : Board) : Board → Prop where
  | operation (op : Operation) (spares : op.Spares bus b)
    (starts : op.bus? b = some bus → ready b) : Deed bus ready b (final op.run b)
  | turn (p : Nat) : Deed bus ready b (final (Board.turn p) b)
  | around {b' : Board} (around : Around b b') : Deed bus ready b b'

abbrev Deeds (bus : Nat) (ready : Board → Prop) : Board → Board → Prop :=
  Relation.ReflTransGen (Deed bus ready)

/-- If the poll task is in any queue, then in its main queue, and no nest is held by it. -/
structure Homed (bus : Nat) (b : Board) : Prop where
  regular : b.kernel.Regular bus
  main : ∀ n, b.feedQueue bus ≠ .waiting n
  only : ∀ q, .poll bus ∈ b.kernel.chain q → q = b.feedQueue bus

/-- A transfer in progress has somebody to drive it. -/
structure Driven (bus : Nat) (b : Board) : Prop extends Homed bus b where
  posted : (b.masters.get bus).status = .inProgress ↔ .poll bus ∈ b.kernel.chain (b.feedQueue bus)
  idle : (b.masters.get bus).status = .ok → (b.masters.get bus).remaining = 0

structure Popped (bus : Nat) (b b₁ : Board) : Prop where
  homed : Homed bus b₁
  nowhere : ∀ q, .poll bus ∉ b₁.kernel.chain q
  bound : b₁.kernel.isBound (.poll bus) = true
  masters : b₁.masters = b.masters
  busy : (b.masters.get bus).status = .inProgress
  wires : b₁.kernel.wires bus = b.kernel.wires bus

variable {b b₁ b' : Board} {bus p : Nat} {ready : Board → Prop}

theorem Homed.spared (h : Homed bus b) (spared : Spared bus b b') : Homed bus b' := by
  have feeds : b'.feedQueue bus = b.feedQueue bus := spared.kernel.feeds (.bus bus)
  refine ⟨spared.regular, fun n => feeds ▸ h.main n, fun q mem => ?_⟩
  rw [feeds]
  exact h.only q ((spared.kernel.place q).mp mem)

theorem Driven.spared (h : Driven bus b) (spared : Spared bus b b') : Driven bus b' where
  toHomed := h.toHomed.spared spared
  posted := by
    have feeds : b'.feedQueue bus = b.feedQueue bus := spared.kernel.feeds (.bus bus)
    rw [spared.transfer.status, feeds, spared.kernel.place]
    exact h.posted
  idle done := by
    rw [spared.transfer.remaining]
    exact h.idle (spared.transfer.status ▸ done)

theorem Homed.steady (h : Homed bus b) (steady : Steady b b') : Homed bus b' := by
  obtain ⟨orderly, chains⟩ := (steady.holds _ h.regular.orderly).orderly
  have feeds := steady.feeds bus
  refine ⟨⟨orderly, fun n => ?_⟩, fun n => feeds ▸ h.main n, fun q mem => ?_⟩
  · rw [steady.holder]
    exact h.regular.holder n
  · rw [chains] at mem
    rw [feeds]
    exact h.only q mem

/-- Scheduling the poll task of a transfer in progress gives the transfer its driver. -/
theorem Homed.schedule (h : Homed bus b) (bound : b.kernel.isBound (.poll bus) = true)
    (busy : (b.masters.get bus).status = .inProgress) :
    Driven bus (final (schedulePoll bus) b) := by
  obtain ⟨b', lists, scheduled, fed⟩ := schedulePoll_fed h.regular.orderly bound
  obtain ⟨orderly, chains⟩ := fed.holds.orderly
  have feeds : b'.feedQueue bus = b.feedQueue bus := fed.rearranged.feeds (.bus bus)
  have masters : b'.masters = b.masters := by
    obtain ⟨k, rfl⟩ := fed.rest
    rfl
  have there : .poll bus ∈ lists (b.feedQueue bus) := by
    rw [fed.result]
    split
    · rename_i queued
      obtain ⟨q, mem⟩ := (h.regular.orderly.queued_iff _).mp queued
      exact h.only q mem ▸ mem
    · rw [Kernel.mem_append]
      exact Or.inr ⟨rfl, rfl⟩
  rw [final_ok scheduled]
  refine ⟨⟨⟨orderly, fun n => fed.holder n ▸ h.regular.holder n⟩, fun n => feeds ▸ h.main n,
    fun q mem => ?_⟩, ?_, fun done => ?_⟩
  · rw [chains] at mem
    rw [feeds]
    exact fed.holds.apart mem there
  · rw [masters, chains, feeds]
    exact iff_of_true busy there
  · rw [masters, busy] at done
    cases done

theorem Homed.wake (h : Homed bus b) (nowhere : ∀ q, .poll bus ∉ b.kernel.chain q)
    (done : (b.masters.get bus).status = .ok) (residue : (b.masters.get bus).remaining = 0) :
    Driven bus (final (wakeHolder bus) b) := by
  refine Driven.spared ⟨h, ?_, fun _ => residue⟩ (spared_wakeHolder h.regular)
  rw [done]
  exact iff_of_false (fun busy => by cases busy) (nowhere _)

theorem Driven.start (h : Driven bus b) (t : Transfer) : Driven bus (final (start bus t) b) := by
  cases accepted : t.fault? with
  | some cause =>
    rw [final_error (start_refused accepted)]
    exact h
  | none =>
    rcases taken : (b.masters.get bus).accept b.memory t with ⟨first, n, m⟩
    rw [final, start_accepted accepted taken]
    refine (h.toHomed.steady (.prime bus first n m)).schedule (poll_bound_prime first n) ?_
    rw [masters_prime]
    rfl

theorem residue_of_done {m : Master} {memory : Memory}
    (done : (m.poll memory).ending = .transferDone) : (m.poll memory).master.remaining = 0 := by
  revert done
  simp only [Master.poll]
  split
  · intro done
    cases done
  · split
    · intro done
      cases done
    · intro _
      rfl

/-- Whichever way a run of the poll task ends, the task is queued again exactly if its transfer is
still in progress. -/
theorem Popped.run (h : Popped bus b b₁) : Driven bus (final (runPoller bus) b₁) := by
  have status : (b₁.masters.get bus).status = .inProgress := h.masters ▸ h.busy
  have still : ∀ {b₂}, Steady b₁ b₂ → ∀ q, .poll bus ∉ b₂.kernel.chain q := by
    intro b₂ steady q
    rw [(steady.holds _ h.homed.regular.orderly).orderly.2]
    exact h.nowhere q
  rw [final]
  cases pollerRun bus b₁ with
  | polling _ going ran =>
    rw [ran]
    refine (h.homed.steady (.polled bus b₁)).schedule ((Steady.polled bus b₁).bound _ h.bound) ?_
    rw [masters_polled, Master.status_of_going going]
    exact status
  | polled _ ending ran =>
    rw [ran]
    refine (h.homed.steady (.polled bus b₁)).wake (still (.polled bus b₁)) ?_ ?_
    · rw [masters_polled, Master.status_of_done ending]
    · rw [masters_polled, residue_of_done ending]
  | @loaded first n m _ _ ran =>
    rw [ran]
    refine (h.homed.steady (.prime bus first n m)).schedule (poll_bound_prime first n) ?_
    rw [masters_prime]
    rfl
  | @ended m _ _ ran =>
    rw [ran]
    refine (h.homed.steady (.finish m)).wake (still (.finish m)) ?_ ?_
    · simp [modifyMaster, Bank.get_modify, Master.finish]
    · simp [modifyMaster, Bank.get_modify, Master.finish]

inductive Outcome (bus : Nat) (ready : Board → Prop) (b b' : Board) : Prop where
  | spared (spared : Spared bus b b')
  | started {mid : Board} (t : Transfer) (spared : Spared bus b mid) (allowed : ready b)
    (same : b' = final (start bus t) mid)
  | polled {b₁ : Board} (popped : Popped bus b b₁) (same : b' = final (runPoller bus) b₁)

theorem Asks.outcome {i : Nat} (h : Asks i b b') (regular : b.kernel.Regular bus)
    (starts : (b.chip i).device.bus = bus → ready b) : Outcome bus ready b b' := by
  obtain ⟨mid, beside, rfl | ⟨t, rfl⟩⟩ := h
  · exact .spared (beside.around.spared regular)
  · have spared := beside.around.spared regular
    by_cases here : (b.chip i).device.bus = bus
    · exact .started t spared (starts here) (by rw [here])
    · exact .spared (spared.trans (spared_start spared.regular here t))

/-- An operation that leaves the poll task to the bus either spares the transfer or starts one. -/
theorem Driven.operation (h : Driven bus b) (op : Operation) (spares : op.Spares bus b)
    (starts : op.bus? b = some bus → ready b) : Outcome bus ready b (final op.run b) := by
  have regular := h.regular
  have chip : ∀ i, (b.chip i).device.bus = bus → some (b.chip i).device.bus = some bus :=
    fun _ here => congrArg some here
  -- Nobody waits behind a nest as the poll task of a bus.
  have out : ∀ n, .poll bus ∉ b.kernel.chain (.waiting n) := fun n mem =>
    h.main n (h.only _ mem).symm
  cases op with
  | add q t =>
    rw [Operation.run, final_answer]
    exact .spared (spared_onKernel (regular.addOptional q spares))
  | pop q =>
    rw [Operation.run, final_answer]
    exact .spared (spared_onKernel (regular.pop q spares))
  | isEmpty q =>
    rw [Operation.run, final_answer]
    exact .spared (spared_onKernel (regular.isEmpty q))
  | count q =>
    rw [Operation.run, final_answer]
    exact .spared (spared_onKernel (regular.count q))
  | submit n t =>
    rw [Operation.run, final_answer]
    exact .spared (spared_onKernel (regular.submit n spares))
  | handOver n => exact .spared (spared_onKernel (regular.handOver n (out n)))
  | bindWorker task script =>
    exact .spared (spared_onKernel (regular.putWorker (.user task) (.script script)))
  | bindHandler id script => exact .spared (spared_onKernel (regular.bindHandler id script))
  | tryBindHandler id script =>
    rw [Operation.run, final_answer]
    exact .spared (spared_onKernel (regular.tryBindHandler id script))
  | raise id => exact .spared (spared_onKernel (regular.raise id))
  | start p t =>
    by_cases here : p = bus
    · subst here
      exact .started t ⟨regular.refl, .refl _⟩ (starts rfl) rfl
    · exact .spared (spared_start regular here t)
  | request p t =>
    rw [Operation.run, final_answer]
    exact .spared (spared_onKernel (regular.submit (.bus p) spares))
  | release p => exact .spared (spared_onKernel (regular.handOver (.bus p) (out _)))
  | runPoller p => exact .spared (spared_runPoller regular spares)
  | select d => exact .spared ((beside_select 0 d b).around.spared regular)
  | deselect d => exact .spared ((beside_deselect 0 d b).around.spared regular)
  | identifyChip i =>
    rw [Operation.run, final_answer]
    exact (asks_identifyChip i b).outcome regular fun here => starts (chip i here)
  | awaitChip i =>
    rw [Operation.run, final_answer]
    exact (asks_awaitChip i b).outcome regular fun here => starts (chip i here)
  | askStatus i =>
    exact (asks_sendScratch i _ b).outcome regular fun here => starts (chip i here)
  | askId i => exact (asks_sendScratch i _ b).outcome regular fun here => starts (chip i here)
  | command i c => exact (asks_command i c b).outcome regular fun here => starts (chip i here)
  | print level message => exact .spared ((obeys_print 0 level message b).around.spared regular)

/-- The poll task is popped only while its transfer is in progress, and it is in no queue then. -/
theorem Driven.popped (h : Driven bus b) {q : QueueId} {k : Kernel}
    (taken : b.kernel.pop q = (some (.poll bus), k)) : Popped bus b { b with kernel := k } := by
  have orderly := h.regular.orderly
  have mem : .poll bus ∈ b.kernel.chain q := Kernel.mem_of_pop orderly (congrArg Prod.fst taken)
  cases split : b.kernel.chain q with
  | nil =>
    rw [split] at mem
    cases mem
  | cons t rest =>
    obtain ⟨k', popped, holds, relinked⟩ := Kernel.Holds.pop_cons orderly split
    cases taken.symm.trans popped
    obtain ⟨orderly', chains⟩ := holds.orderly
    have same : b.kernel.Rearranged k := relinked.rearranged (by simp [Event.wire?])
    have nowhere : ∀ r, .poll bus ∉ k.chain r := by
      intro r
      rw [chains, Kernel.mem_remove split (orderly.nodup q) orderly.apart]
      exact fun still => still.2 rfl
    refine ⟨⟨⟨orderly', fun n => relinked.holder n ▸ h.regular.holder n⟩, fun n => ?_,
      fun r mem => absurd mem (nowhere r)⟩, nowhere, ?_, rfl, ?_, same.wires bus⟩
    · change k.feeds (.bus bus) ≠ _
      rw [same.feeds]
      exact h.main n
    · exact (same.bound _).trans (orderly.bound _ (orderly.queued mem))
    · exact h.posted.mpr (h.only q mem ▸ mem)

/-- A turn of any main queue: the poll task runs only if it was first in its queue. -/
theorem Driven.turn (h : Driven bus b) (p : Nat) :
    Outcome bus ready b (final (Board.turn p) b) := by
  have regular := h.regular
  rcases taken : b.kernel.pop (b.feedQueue p) with ⟨popped, k⟩
  by_cases own : popped = some (.poll bus)
  · subst own
    have turned : Board.turn p b = runPoller bus { b with kernel := k } := by
      rw [Board.turn, taken]
    exact .polled (h.popped taken) (by rw [final, turned, final])
  · have stays : b.kernel.Stays bus k := by
      have kept := regular.pop (b.feedQueue p) (by rw [taken]; exact own)
      rw [taken] at kept
      exact kept
    have spared : Spared bus b { b with kernel := k } := ⟨stays, .refl _⟩
    rcases popped with _ | i | p'
    · have turned : Board.turn p b = .ok () { b with kernel := k } := by rw [Board.turn, taken]
      rw [final_ok turned]
      exact .spared spared
    · have turned : Board.turn p b = .ok () { b with kernel := k } := by rw [Board.turn, taken]
      rw [final_ok turned]
      exact .spared spared
    · have turned : Board.turn p b = runPoller p' { b with kernel := k } := by
        rw [Board.turn, taken]
      have other : p' ≠ bus := by
        rintro rfl
        exact own rfl
      rw [final, turned]
      exact .spared (spared.trans (spared_runPoller spared.regular other))

theorem Driven.outcome (h : Driven bus b) (deed : Deed bus ready b b') :
    Outcome bus ready b b' := by
  cases deed with
  | operation op spares starts => exact h.operation op spares starts
  | turn p => exact h.turn p
  | around around => exact .spared (around.spared h.regular)

theorem Driven.step (h : Driven bus b) (deed : Deed bus ready b b') : Driven bus b' := by
  cases h.outcome deed with
  | spared spared => exact h.spared spared
  | started t spared _ same =>
    rw [same]
    exact (h.spared spared).start t
  | polled popped same =>
    rw [same]
    exact popped.run

theorem master_boot (p : Plan) (bus : Nat) : ∃ controller budget,
    p.bootBoard.masters.get bus = { controller, budget } := by
  simp only [Plan.bootBoard, Bank.ofList, Bank.get, Array.getD_eq_getD_getElem?,
    List.getElem?_toArray, List.getElem?_map]
  cases p.buses[Numbered.number bus]? with
  | none => exact ⟨_, _, rfl⟩
  | some plan => exact ⟨_, _, rfl⟩

theorem driven_boot (p : Plan) (bus : Nat) : Driven bus p.bootBoard := by
  obtain ⟨orderly, chains⟩ := (Kernel.bootKernel_fresh p).holds.orderly
  obtain ⟨i, feeds⟩ := (Kernel.nests_boot p (.bus bus)).2
  have feed : p.bootBoard.feedQueue bus = .main i := feeds
  have nowhere : ∀ q, .poll bus ∉ p.bootBoard.kernel.chain q := fun q mem => by
    rw [show p.bootBoard.kernel.chain = _ from chains] at mem
    cases mem
  obtain ⟨controller, budget, master⟩ := master_boot p bus
  refine ⟨⟨⟨orderly, fun n => ?_⟩, fun n => ?_, fun q mem => absurd mem (nowhere q)⟩, ?_,
    fun _ => by rw [master]⟩
  · rw [show p.bootBoard.kernel.holder n = none from (Kernel.nests_boot p n).1]
    exact fun held => by cases held
  · rw [feed]
    exact fun same => by cases same
  · rw [master]
    exact iff_of_false (fun busy => by cases busy) (nowhere _)

theorem Driven.deeds (h : Driven bus b) (deeds : Deeds bus ready b b') : Driven bus b' := by
  induction deeds with
  | refl => exact h
  | tail _ deed ih => exact ih.step deed

/-- In every state that is reached outside a run of the poll task, a transfer is in progress exactly
if the poll task sits in the main queue of its bus. It sits in no other queue, and no byte is left
when no transfer is in progress. -/
theorem no_transfer_is_stranded (p : Plan) (bus : Nat)
    (reached : Deeds bus (fun _ => True) p.bootBoard b) :
    ((b.masters.get bus).status = .inProgress ↔
        .poll bus ∈ b.kernel.chain (b.feedQueue bus)) ∧
      (∀ q, .poll bus ∈ b.kernel.chain q → q = b.feedQueue bus) ∧
      ((b.masters.get bus).status = .ok → (b.masters.get bus).remaining = 0) := by
  have driven := (driven_boot p bus).deeds reached
  exact ⟨driven.posted, driven.only, driven.idle⟩

/-- A second transfer is started on top of the first, on a bus that is never ready. -/
theorem waiting_transfer_stays_queued :
    let p : Plan := { buses := [{ hardware := .scripted (fun _ => false) [] }] }
    let first := final (Operation.start 0 (.write (.bytes [0x55]))).run p.bootBoard
    let second := final (Operation.start 0 (.read ⟨0, 2⟩)).run first
    let b := final (Board.turn 0) second
    .poll 0 ∈ b.kernel.chain (b.feedQueue 0) := by
  intro p first second b
  have reached : Deeds 0 (fun _ => True) p.bootBoard b :=
    .tail (.tail (.single (.operation (.start 0 (.write (.bytes [0x55]))) trivial fun _ => trivial))
      (.operation (.start 0 (.read ⟨0, 2⟩)) trivial fun _ => trivial)) (.turn 0)
  have busy : (b.masters.get 0).status = .inProgress := by decide +kernel
  exact (no_transfer_is_stranded p 0 reached).1.mp busy

end CoopKernel.Board
