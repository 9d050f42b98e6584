import CoopKernel.Proofs.BusToken
import CoopKernel.Proofs.QueueHistory

/-!
# Every move keeps the sessions apart

One lemma for each thing that can happen, and from them what holds after any
history that begins on a quiet bus.
-/

namespace CoopKernel.BusWorld

open Spi

variable {clients : Nat → Bool} {bus feed : Nat} {old : List Wire}
variable {w w' : BusWorld} {b : Board}
variable {finished queue : List Session} {s : Session} {begun : List Transfer}

/-- Whatever leaves the transfer, the holder and the clients that wait as they are. -/
theorem Inv.beside (h : Inv clients bus feed old w) {hand : Option TaskId}
    (apart : Board.Apart (w.lent bus) bus w.board b) (orderly : b.kernel.Orderly)
    (feeds : b.feedQueue bus = w.board.feedQueue bus)
    (holder : b.kernel.holder (.bus bus) = w.board.kernel.holder (.bus bus))
    (waiting : b.kernel.chain (.waiting (.bus bus)) =
      w.board.kernel.chain (.waiting (.bus bus)))
    (bound : ∀ t, w.board.kernel.isBound t = true → b.kernel.isBound t = true)
    (placed : Placed clients bus (.main feed) b.kernel.chain hand (w.token bus)) :
    Inv clients bus feed old { w with board := b, hand := hand } := by
  have busy : ({ w with board := b, hand := hand } : BusWorld).isBusy bus = w.isBusy bus := by
    simp only [isBusy, apart.transfer.status]
  have token : ({ w with board := b, hand := hand } : BusWorld).token bus = w.token bus := by
    simp only [BusWorld.token, BusWorld.holder, holder, busy]
  refine ⟨orderly, feeds.trans h.feeds, ?_, fun t held => ?_, fun going => ?_, h.scripts, ?_,
    h.wired.apart apart rfl⟩
  · rw [token]
    exact placed
  · exact bound t (h.held t (holder.symm.trans held))
  · exact bound _ (h.polled (busy.symm.trans going))
  · rcases h.stage with free | ⟨finished, s, begun, queue, taken⟩
    · exact Or.inl ⟨holder.trans free.holder, waiting.trans free.waiting, busy.trans free.idle,
        free.started, free.ran⟩
    · refine Or.inr ⟨finished, s, begun, queue, holder.trans taken.holder, taken.sessions,
        taken.script, waiting.trans taken.waiting, taken.intact, taken.started, taken.ran⟩

theorem Inv.others (h : Inv clients bus feed old w)
    (elsewhere : w.board.Elsewhere clients bus (w.lent bus) b) :
    Inv clients bus feed old { w with board := b } := by
  obtain ⟨apart, orderly, chains, waiting, holder, feeds, bound⟩ := elsewhere
  refine h.beside apart (orderly h.orderly) feeds holder waiting bound ?_
  obtain ⟨away, main⟩ := h.placed
  refine ⟨fun q off aside => (chains q).trans (away q off aside), ?_⟩
  rw [chains]
  exact main

theorem apart_of_rearranged {k : Kernel} (lent : Nat → Prop) (b : Board)
    (same : b.kernel.Rearranged k) : Board.Apart lent bus b { b with kernel := k } :=
  ⟨.refl _, fun _ _ => rfl, same.wires bus⟩

/-- Taking a task out of the main queue puts the token in hand, or leaves it where it is. -/
theorem Inv.take (h : Inv clients bus feed old w) (moved : w.take clients bus = some w') :
    Inv clients bus feed old w' := by
  have placed := h.placed
  cases hand : w.hand with
  | some t =>
    rw [BusWorld.take, hand] at moved
    cases moved
  | none =>
    rw [hand] at placed
    cases split : w.board.kernel.chain (.main feed) with
    | nil =>
      obtain ⟨k, popped, holds, relinked⟩ := h.orderly.pop_nil split
      simp only [BusWorld.take, hand, h.feeds, popped] at moved
      cases moved
      obtain ⟨orderly, chain⟩ := holds.orderly
      have same : w.board.kernel.Rearranged k := relinked.rearranged (by simp)
      refine h.beside (apart_of_rearranged _ _ same) orderly (same.feeds _) (relinked.holder _)
        ?_ (fun t => (same.bound t).trans) ?_
      · exact congrFun chain _
      · change Placed clients bus (.main feed) k.chain none (w.token bus)
        rw [chain]
        exact placed
    | cons t rest =>
      obtain ⟨k, popped, holds, relinked⟩ := h.orderly.pop_cons split
      simp only [BusWorld.take, hand, h.feeds, popped] at moved
      cases moved
      obtain ⟨orderly, chain⟩ := holds.orderly
      have same : w.board.kernel.Rearranged k :=
        relinked.rearranged (by simp [CoopKernel.Event.wire?])
      refine h.beside (apart_of_rearranged _ _ same) orderly (same.feeds _) (relinked.holder _)
        ?_ (fun t => (same.bound t).trans) ?_
      · exact (congrFun chain _).trans (Function.update_of_ne QueueId.noConfusion ..)
      · change Placed clients bus (.main feed) k.chain _ (w.token bus)
        rw [chain]
        exact placed.take split

/-- What a request leaves: a free bus is granted at once, otherwise the client waits last. -/
theorem request_cases {i : Nat} {script : List Transfer} (orderly : w.board.kernel.Orderly)
    (moved : w.request clients bus i script = some w') :
    clients i = true ∧ (∀ t ∈ script, t.fault? = none) ∧
      w.board.kernel.isQueued (.user i) = false ∧ w.holder bus ≠ some (.user i) ∧
      w.board.kernel.isBound (.user i) = true ∧
      ∃ k lists, w.board.kernel.Asked k w.board.kernel.chain lists (.bus bus) (.user i) ∧
        w' = w.accepted i script { w.board with kernel := k } := by
  rw [request] at moved
  split at moved
  · rename_i fit
    simp only [Bool.and_eq_true, Bool.not_eq_true', decide_eq_true_eq, List.all_eq_true,
      Option.isNone_iff_eq_none] at fit
    obtain ⟨⟨⟨client, fit⟩, idle⟩, aside⟩ := fit
    split at moved
    · rename_i answered
      obtain ⟨bound, k, lists, rfl, asked⟩ := Board.request_ok orderly answered
      cases moved
      exact ⟨client, fit, idle, aside, bound, k, lists, asked, rfl⟩
    · cases moved
  · cases moved

theorem Inv.scripts_add (h : Inv clients bus feed old w) {i : Nat} {script : List Transfer}
    (client : clients i = true) (fit : ∀ t ∈ script, t.fault? = none) :
    ∀ s ∈ w.sessions ++ [⟨i, script⟩], clients s.client = true ∧
      ∀ t ∈ s.script, t.fault? = none := by
  intro s mem
  rcases List.mem_append.mp mem with before | last
  · exact h.scripts s before
  · rw [List.mem_singleton.mp last]
    exact ⟨client, fit⟩

/-- A client that asks for a free bus becomes its holder at once. -/
theorem Inv.request_free (h : Inv clients bus feed old w) (free : w.Free bus) {i : Nat}
    {script : List Transfer} (moved : w.request clients bus i script = some w') :
    Inv clients bus feed old w' := by
  obtain ⟨client, fit, idle, -, bound, k, lists, asked, rfl⟩ := request_cases h.orderly moved
  have nobody : w.board.kernel.holder (.bus bus) = none := free.holder
  have main : w.board.kernel.feeds (.bus bus) = .main feed := h.feeds
  have holder : k.holder (.bus bus) = some (.user i) := by
    rw [asked.holder, if_pos rfl, nobody]
    rfl
  have result := asked.result
  rw [idle, if_neg Bool.false_ne_true, Kernel.entry, nobody, main] at result
  obtain ⟨orderly, chain⟩ := asked.holds.orderly
  have placed := h.placed
  rw [token_free free.holder] at placed
  have hand : w.hand = none := placed.hand_of_nil
  rw [hand] at placed
  have waiting : k.chain (.waiting (.bus bus)) = w.waiting bus := by
    rw [chain, result]
    exact Function.update_of_ne QueueId.noConfusion ..
  refine inv_of_calm (free.accepted script holder waiting) free.idle orderly
    ((asked.rearranged.feeds _).trans h.feeds) ?_ ((asked.rearranged.bound _).trans bound)
    (h.scripts_add client fit) (h.wired.apart (apart_of_rearranged _ _ asked.rearranged) rfl)
  change Placed clients bus (.main feed) k.chain w.hand _
  rw [chain, result, hand]
  exact placed.push client

/-- A client that asks for a bus that is taken waits behind the others. -/
theorem Inv.request_taken (h : Inv clients bus feed old w)
    (taken : w.Taken bus finished s begun queue) {i : Nat}
    {script : List Transfer} (moved : w.request clients bus i script = some w') :
    Inv clients bus feed old w' := by
  obtain ⟨client, fit, idle, aside, -, k, lists, asked, rfl⟩ := request_cases h.orderly moved
  have current : w.board.kernel.holder (.bus bus) = some s.task := taken.holder
  have holder : k.holder (.bus bus) = some s.task := by
    rw [asked.holder, if_pos rfl, current]
    rfl
  have result := asked.result
  rw [idle, if_neg Bool.false_ne_true, Kernel.entry, current] at result
  obtain ⟨orderly, chain⟩ := asked.holds.orderly
  have waiting : k.chain (.waiting (.bus bus)) = w.waiting bus ++ [.user i] := by
    rw [chain, result]
    exact Function.update_self ..
  have other : s.client ≠ i := by
    rintro rfl
    exact aside taken.holder
  have still : (w.accepted i script { w.board with kernel := k }).Taken bus finished s begun
      (queue ++ [⟨i, script⟩]) :=
    taken.accepted script other (h.orderly.not_mem idle _) (holder.trans taken.holder.symm) waiting
  have token : (w.accepted i script { w.board with kernel := k }).token bus = w.token bus := by
    rw [BusWorld.token, still.holder, BusWorld.token, taken.holder]
    rfl
  refine ⟨orderly, (asked.rearranged.feeds _).trans h.feeds, ?_, fun t held => ?_,
    fun busy => (asked.rearranged.bound _).trans (h.polled busy), h.scripts_add client fit,
    Or.inr ⟨_, _, _, _, still⟩, h.wired.apart (apart_of_rearranged _ _ asked.rearranged) rfl⟩
  · rw [token]
    change Placed clients bus (.main feed) k.chain w.hand _
    rw [chain, result]
    exact h.placed.update_waiting QueueId.noConfusion _
  · rw [still.holder] at held
    cases held
    exact (asked.rearranged.bound _).trans (h.held _ taken.holder)

theorem Inv.request (h : Inv clients bus feed old w) {i : Nat} {script : List Transfer}
    (moved : w.request clients bus i script = some w') : Inv clients bus feed old w' := by
  rcases h.stage with free | ⟨finished, s, begun, queue, taken⟩
  · exact h.request_free free moved
  · exact h.request_taken taken moved

theorem Taken.client_of (taken : w.Taken bus finished s begun queue)
    (h : Inv clients bus feed old w) :
    clients s.client = true ∧ ∀ t ∈ s.script, t.fault? = none := by
  refine h.scripts s ?_
  rw [taken.sessions]
  exact List.mem_append_right _ List.mem_cons_self

/-- The holder starts its next transfer, and the token passes to the poll task. -/
theorem Inv.start (h : Inv clients bus feed old w) (taken : w.Taken bus finished s begun queue)
    (idle : w.isBusy bus = false)
    (placed : Placed clients bus (.main feed) w.board.kernel.chain none []) {t : Transfer}
    {rest : List Transfer} (next : w.left s.client = t :: rest) :
    ∃ w', w.runClient bus s.client = some w' ∧ Inv clients bus feed old w' := by
  have accepted : t.fault? = none := by
    refine (taken.client_of h).2 t ?_
    rw [taken.script, next]
    exact List.mem_append_right _ List.mem_cons_self
  have covers : Covers (· ∈ t.lent) t.beats := fun beat mem a out => Transfer.lent_of_beat mem out
  obtain ⟨b₁, started, steady, bound, serving⟩ := Board.start_serving bus w.board accepted covers
  obtain ⟨b₂, lists, scheduled, fed⟩ := Board.schedulePoll_fed (steady.holds _ h.orderly) bound
  have queued : Board.Queued clients bus feed (.poll bus) w.board b₂ :=
    Board.queued_of_fed h.orderly h.feeds placed (beq_self_eq_true bus)
      (taken.not_waiting.2 bus) steady fed
  have going := serving.apart (Board.apart_schedulePoll _ scheduled)
  obtain ⟨wires, split, traffic⟩ := h.wired.idle idle
  rw [split] at going
  refine ⟨w.begun s.client t rest b₂, ?_,
    inv_of_serving (taken.started_next next queued.holder queued.waiting) rfl accepted traffic going
      queued.orderly queued.feeds queued.placed (queued.bound _ (h.held _ taken.holder))
      ((fed.rearranged.bound _).trans bound) h.scripts⟩
  rw [runClient, next]
  simp only [started, scheduled]

/-- With its script at an end, the client lets go of the bus. Nobody waits. -/
theorem Inv.release_last (h : Inv clients bus feed old w)
    (taken : w.Taken bus finished s begun []) (idle : w.isBusy bus = false)
    (placed : Placed clients bus (.main feed) w.board.kernel.chain none [])
    (spent : w.left s.client = []) :
    ∃ w', w.runClient bus s.client = some w' ∧ Inv clients bus feed old w' := by
  obtain ⟨k, left, holds, rearranged, holder⟩ := h.orderly.handOver_nil taken.waiting
  obtain ⟨orderly, chain⟩ := holds.orderly
  have free : (w.ended s.client { w.board with kernel := k }).Free bus :=
    taken.ended_last spent (of_decide_eq_false idle) ((holder _).trans (if_pos rfl))
      ((congrFun chain _).trans taken.waiting)
  refine ⟨w.ended s.client { w.board with kernel := k }, ?_, orderly,
    (rearranged.feeds _).trans h.feeds, ?_, fun u held => ?_, fun busy => ?_, h.scripts,
    Or.inl free, h.wired.apart (apart_of_rearranged _ _ rearranged) rfl⟩
  · rw [runClient, spent]
    simp only [Board.release, Board.onKernel_ok left]
  · rw [token_free free.holder]
    change Placed clients bus (.main feed) k.chain none []
    rw [chain]
    exact placed
  · rw [free.holder] at held
    cases held
  · rw [free.idle] at busy
    cases busy

/-- The session that was accepted next is opened. -/
theorem Inv.release_next (h : Inv clients bus feed old w) {next : Session}
    (taken : w.Taken bus finished s begun (next :: queue)) (idle : w.isBusy bus = false)
    (placed : Placed clients bus (.main feed) w.board.kernel.chain none [])
    (spent : w.left s.client = []) :
    ∃ w', w.runClient bus s.client = some w' ∧ Inv clients bus feed old w' := by
  have first : w.board.kernel.chain (.waiting (.bus bus)) = next.task :: queue.map Session.task :=
    taken.waiting
  obtain ⟨k, left, holds, rearranged, holder⟩ := h.orderly.handOver_cons first
  obtain ⟨orderly, chain⟩ := holds.orderly
  have main : w.board.kernel.feeds (.bus bus) = .main feed := h.feeds
  rw [main] at chain
  have waiting : k.chain (.waiting (.bus bus)) = queue.map Session.task := by
    rw [chain, Function.update_of_ne QueueId.noConfusion, Function.update_self]
  have bound : w.board.kernel.isBound next.task = true :=
    h.orderly.bound _ (h.orderly.queued (first ▸ List.mem_cons_self))
  have client : clients next.client = true := by
    refine (h.scripts next ?_).1
    rw [taken.sessions]
    exact List.mem_append_right _ (List.mem_cons_of_mem _ List.mem_cons_self)
  refine ⟨w.ended s.client { w.board with kernel := k }, ?_,
    inv_of_calm (taken.ended_next spent (h.orderly.nodup _) ((holder _).trans (if_pos rfl)) waiting)
      idle orderly ((rearranged.feeds _).trans h.feeds) ?_ ((rearranged.bound _).trans bound)
      h.scripts (h.wired.apart (apart_of_rearranged _ _ rearranged) rfl)⟩
  · rw [runClient, spent]
    simp only [Board.release, Board.onKernel_ok left]
  · change Placed clients bus (.main feed) k.chain none _
    rw [chain]
    exact (placed.update_waiting QueueId.noConfusion _).push client

theorem Inv.runClient (h : Inv clients bus feed old w)
    (taken : w.Taken bus finished s begun queue) (idle : w.isBusy bus = false)
    (placed : Placed clients bus (.main feed) w.board.kernel.chain none []) :
    ∃ w', w.runClient bus s.client = some w' ∧ Inv clients bus feed old w' := by
  cases left : w.left s.client with
  | cons t rest => exact h.start taken idle placed left
  | nil =>
    cases queue with
    | nil => exact h.release_last taken idle placed left
    | cons next queue => exact h.release_next taken idle placed left

/-- The poll task runs while a transfer is in progress: the token stays with it or goes back to the
holder. -/
theorem Inv.runPoller (h : Inv clients bus feed old w)
    (taken : w.Taken bus finished s begun queue) (busy : w.isBusy bus = true)
    (placed : Placed clients bus (.main feed) w.board.kernel.chain none []) :
    ∃ b', Board.runPoller bus w.board = .ok () b' ∧
      Inv clients bus feed old { w with board := b', hand := none } := by
  obtain ⟨before, last, wires, split, accepted, traffic, serving⟩ := h.wired.busy busy
  have covers : Covers (· ∈ last.transfer.lent) last.transfer.beats :=
    fun beat mem a out => Transfer.lent_of_beat mem out
  have held := h.held _ taken.holder
  rcases serving.runPoller covers with ⟨b₁, same, steady, going⟩ | ⟨b₁, same, steady, served⟩
  · obtain ⟨b₂, lists, scheduled, fed⟩ := Board.schedulePoll_fed (steady.holds _ h.orderly)
      (steady.bound _ (h.polled busy))
    have queued : Board.Queued clients bus feed (.poll bus) w.board b₂ :=
      Board.queued_of_fed h.orderly h.feeds placed (beq_self_eq_true bus)
        (taken.not_waiting.2 bus) steady fed
    have still := going.apart (Board.apart_schedulePoll _ scheduled)
    exact ⟨b₂, same.trans scheduled,
      inv_of_serving (taken.polled queued.holder queued.waiting) split accepted traffic still
        queued.orderly queued.feeds queued.placed (queued.bound _ held)
        (queued.bound _ (h.polled busy)) h.scripts⟩
  · have holder : b₁.kernel.holder (.bus bus) = some s.task :=
      (steady.holder _).trans taken.holder
    obtain ⟨b₂, lists, woken, fed⟩ := Board.wakeHolder_fed (steady.holds _ h.orderly) holder
      (steady.bound _ held)
    have queued : Board.Queued clients bus feed s.task w.board b₂ :=
      Board.queued_of_fed h.orderly h.feeds placed (taken.client_of h).1 taken.not_waiting.1
        steady fed
    have ended := served.apart (Board.apart_wakeHolder _ woken)
    have idle : ({ w with board := b₂, hand := none } : BusWorld).isBusy bus = false := by
      obtain ⟨part, -, finished⟩ := ended
      simp [isBusy, finished.done]
    refine ⟨b₂, same.trans woken,
      inv_of_calm (taken.polled queued.holder queued.waiting) idle queued.orderly queued.feeds
        queued.placed (queued.bound _ held) h.scripts ⟨fun _ => ?_, fun going => ?_⟩⟩
    · obtain ⟨part, through, carried⟩ := ended.carried accepted
      refine ⟨wires ++ part, by rw [through, List.append_assoc], ?_⟩
      rw [split]
      exact traffic.snoc carried
    · rw [idle] at going
      cases going

/-- A run of one of the bus's tasks comes to its end. -/
theorem Inv.run (h : Inv clients bus feed old w) {t : TaskId} (hand : w.hand = some t) :
    ∃ w', w.run bus = some w' ∧ Inv clients bus feed old w' := by
  obtain ⟨finished, s, begun, queue, taken, placed, ⟨busy, rfl⟩ | ⟨idle, rfl⟩⟩ := h.ready hand
  · obtain ⟨b', ran, kept⟩ := h.runPoller taken busy placed
    refine ⟨_, ?_, kept⟩
    rw [BusWorld.run, hand]
    simp only [ran]
  · obtain ⟨w', ran, kept⟩ := h.runClient taken idle placed
    refine ⟨w', ?_, kept⟩
    rw [BusWorld.run, hand]
    exact ran

theorem Inv.step (h : Inv clients bus feed old w) (event : Event clients bus w w') :
    Inv clients bus feed old w' := by
  cases event with
  | others elsewhere => exact h.others elsewhere
  | @move _ m moved =>
    cases m with
    | request i script => exact h.request moved
    | take => exact h.take moved
    | run =>
      have ran : w.run bus = some w' := moved
      cases hand : w.hand with
      | none =>
        rw [BusWorld.run, hand] at ran
        cases ran
      | some t =>
        obtain ⟨w₁, ran₁, kept⟩ := h.run hand
        rw [ran] at ran₁
        cases ran₁
        exact kept

theorem Inv.events (h : Inv clients bus feed old w) (events : Events clients bus w w') :
    Inv clients bus feed old w' := by
  induction events with
  | refl => exact h
  | tail _ event ih => exact ih.step event

theorem inv_of_quiet (quiet : b.Quiet clients bus feed) :
    Inv clients bus feed (b.kernel.wires bus) { board := b } := by
  obtain ⟨orderly, feeds, holder, waiting, nobody, idle⟩ := quiet
  have calm : ({ board := b } : BusWorld).isBusy bus = false := decide_eq_false idle
  have free : ({ board := b } : BusWorld).holder bus = none := holder
  refine ⟨orderly, feeds, ⟨fun q _ _ => nobody q, ?_⟩, fun t held => ?_, fun busy => ?_,
    fun s mem => (by cases mem), Or.inl ⟨free, waiting, calm, rfl, rfl⟩,
    fun _ => ⟨[], (List.append_nil _).symm, traffic_nil⟩, fun busy => ?_⟩
  · rw [token_free free]
    exact nobody _
  · rw [free] at held
    cases held
  · rw [calm] at busy
    cases busy
  · rw [calm] at busy
    cases busy

theorem Inv.onWire (h : Inv clients bus feed old w) : w.OnWire bus old := by
  rw [OnWire]
  split
  · rename_i busy
    obtain ⟨before, last, wires, split, accepted, traffic, serving⟩ := h.wired.busy busy
    obtain ⟨part, through, begun⟩ := serving.begun accepted
    exact ⟨before, last, wires, part, split, traffic, begun, through⟩
  · rename_i idle
    obtain ⟨wires, through, traffic⟩ := h.wired.idle (Bool.eq_false_iff.mpr idle)
    exact ⟨wires, traffic, through⟩

/-- A bus whose tasks are neither in the main queue nor about to run is free. -/
theorem Inv.free_of_empty (h : Inv clients bus feed old w) (hand : w.hand = none)
    (empty : w.board.kernel.chain (w.board.feedQueue bus) = []) : w.Free bus := by
  rcases h.stage with free | ⟨finished, s, begun, queue, taken⟩
  · exact free
  · have main := h.placed.main
    rw [h.feeds] at empty
    rw [hand, empty] at main
    cases busy : w.isBusy bus with
    | true =>
      rw [token_busy taken.holder busy] at main
      cases main
    | false =>
      rw [token_idle taken.holder busy] at main
      cases main

/-- On a board where nobody has to do with the bus yet, sessions follow one another in the order
in which they were accepted: each with all of its transfers, on the wire one after another, and
with a run for the grant and one for each transfer. A client runs only while its own session is
open and no transfer is in progress. When the main queue is empty, the bus is free. -/
theorem sessions_run_one_after_another (quiet : b.Quiet clients bus feed)
    (events : Events clients bus { board := b } w) :
    (w.Free bus ∨ ∃ finished s begun queue, w.Taken bus finished s begun queue) ∧
      w.OnWire bus (b.kernel.wires bus) ∧
      w.hand.toList ++ (w.board.kernel.chain (w.board.feedQueue bus)).filter (ours clients bus) =
        w.token bus ∧
      (∀ i, w.hand = some (.user i) → w.holder bus = some (.user i) ∧ w.isBusy bus = false) ∧
      (w.hand = none → w.board.kernel.chain (w.board.feedQueue bus) = [] → w.Free bus) ∧
      (w.hand ≠ none → ∃ w', w.run bus = some w') := by
  have h := (inv_of_quiet quiet).events events
  refine ⟨h.stage, h.onWire, ?_, fun i hand => ?_, h.free_of_empty, fun some_hand => ?_⟩
  · rw [h.feeds]
    exact h.placed.main
  · obtain ⟨finished, s, begun, queue, taken, -, ⟨-, poll⟩ | ⟨idle, same⟩⟩ := h.ready hand
    · cases poll
    · exact ⟨taken.holder.trans (congrArg some same.symm), idle⟩
  · obtain ⟨t, hand⟩ := Option.ne_none_iff_exists'.mp some_hand
    obtain ⟨w', ran, -⟩ := h.run hand
    exact ⟨w', ran⟩

theorem quiet_boot (clients : Nat → Bool) (bus : Nat) (p : Plan) :
    ∃ feed, p.bootBoard.Quiet clients bus feed := by
  obtain ⟨free, feed, feeds⟩ := Kernel.nests_boot p (.bus bus)
  obtain ⟨orderly, chain⟩ := (Kernel.bootKernel_fresh p).holds.orderly
  refine ⟨feed, orderly, feeds, free, congrFun chain _, fun q => ?_, ?_⟩
  · exact congrArg (List.filter _) (congrFun chain q)
  · simp only [Plan.bootBoard, Bank.ofList, Bank.get, Array.getD_eq_getD_getElem?,
      List.getElem?_toArray, List.getElem?_map]
    cases p.buses[Numbered.number bus]? with
    | none => exact Status.noConfusion
    | some plan => exact Status.noConfusion

def moves (clients : Nat → Bool) (bus : Nat) : List Move → BusWorld → Option BusWorld
  | [], w => some w
  | m :: rest, w => (w.move clients bus m).bind (moves clients bus rest)

theorem events_of_moves {list : List Move} (moved : moves clients bus list w = some w') :
    Events clients bus w w' := by
  induction list generalizing w with
  | nil =>
    cases moved
    exact .refl
  | cons m rest ih =>
    obtain ⟨w₁, first, others⟩ := Option.bind_eq_some_iff.mp moved
    exact .head (.move first) (ih others)

/-- Two clients; the second asks while the transfer of the first is in progress. -/
theorem second_client_waits :
    let p : Plan := { tasks := [some 0, some 1], buses := [{}] }
    let list : List Move := [.request 0 [.write (.bytes [0x55])], .take, .run,
      .request 1 [.write (.bytes [0xaa])], .take, .run, .take, .run, .take, .run, .take, .run,
      .take, .run]
    ∃ w, moves (fun _ => true) 0 list { board := p.bootBoard } = some w ∧ w.ran = [0, 0, 1, 1] ∧
      w.Free 0 ∧ w.OnWire 0 [] := by
  intro p list
  have seen : (moves (fun _ => true) 0 list { board := p.bootBoard }).map (fun w =>
      (w.ran, w.hand, w.board.kernel.chain (w.board.feedQueue 0))) =
        some ([0, 0, 1, 1], none, []) := by decide +kernel
  obtain ⟨w, moved, seen⟩ := Option.map_eq_some_iff.mp seen
  simp only [Prod.mk.injEq] at seen
  obtain ⟨ran, hand, empty⟩ := seen
  obtain ⟨feed, quiet⟩ := quiet_boot (fun _ => true) 0 p
  obtain ⟨-, wire, -, -, free, -⟩ :=
    sessions_run_one_after_another quiet (events_of_moves moved)
  exact ⟨w, moved, ran, free hand empty, wire⟩

end CoopKernel.BusWorld
