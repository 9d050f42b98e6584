import CoopKernel.Proofs.BusSessions

/-!
# The one task that stands for a bus

At every moment one task at most stands for the bus: the holder's, from when the
bus is granted to it or its transfer has completed until it runs, and the poll
task's while a transfer is in progress. It sits in the main queue or is about to
run, exactly once. All other clients wait in the private queue, in the order in
which they were accepted.
-/

namespace CoopKernel

open Spi

variable {clients : Nat → Bool} {bus : Nat}

/-- In the main queue or about to run, `token` is all there is of the bus's tasks, and no other
queue has any, apart from the clients that wait for the bus. -/
structure Placed (clients : Nat → Bool) (bus : Nat) (feed : QueueId)
    (lists : QueueId → List TaskId) (hand : Option TaskId) (token : List TaskId) : Prop where
  away : ∀ q, q ≠ feed → q ≠ .waiting (.bus bus) → (lists q).filter (ours clients bus) = []
  main : hand.toList ++ (lists feed).filter (ours clients bus) = token

namespace Placed

variable {feed : QueueId} {lists : QueueId → List TaskId} {hand : Option TaskId}
variable {token : List TaskId} {t : TaskId}

theorem update_main (h : Placed clients bus feed lists hand token) {list : List TaskId}
    {hand' : Option TaskId} {token' : List TaskId}
    (main : hand'.toList ++ list.filter (ours clients bus) = token') :
    Placed clients bus feed (Function.update lists feed list) hand' token' where
  away q off aside := by
    rw [Function.update_of_ne off]
    exact h.away q off aside
  main := by rw [Function.update_self, main]

theorem update_waiting (h : Placed clients bus feed lists hand token)
    (apart : feed ≠ .waiting (.bus bus)) (list : List TaskId) :
    Placed clients bus feed (Function.update lists (.waiting (.bus bus)) list) hand token where
  away q off aside := by
    rw [Function.update_of_ne aside]
    exact h.away q off aside
  main := by rw [Function.update_of_ne apart, h.main]

/-- The task about to run is the one. -/
theorem of_hand (h : Placed clients bus feed lists (some t) token) (single : token.length ≤ 1) :
    token = [t] ∧ Placed clients bus feed lists none [] := by
  have main := h.main
  rw [Option.toList_some, List.singleton_append] at main
  subst main
  have none_left : (lists feed).filter (ours clients bus) = [] := by
    simpa using single
  exact ⟨by rw [none_left], h.away, by rw [none_left]; rfl⟩

theorem push (h : Placed clients bus feed lists none []) (mine : ours clients bus t = true) :
    Placed clients bus feed (Function.update lists feed (lists feed ++ [t])) none [t] := by
  refine h.update_main ?_
  have empty : (lists feed).filter (ours clients bus) = [] := h.main
  rw [List.filter_append, empty, List.filter_cons_of_pos mine]
  rfl

theorem take (h : Placed clients bus feed lists none token) {rest : List TaskId}
    (first : lists feed = t :: rest) :
    Placed clients bus feed (Function.update lists feed rest)
      ((some t).filter (ours clients bus)) token := by
  refine h.update_main ?_
  have main := h.main
  rw [first, Option.toList_none, List.nil_append] at main
  rw [← main, List.filter_cons, Option.filter_some]
  split <;> rfl

theorem hand_of_nil (h : Placed clients bus feed lists hand []) : hand = none := by
  cases hand with
  | none => rfl
  | some t => cases h.main

/-- With nobody in the main queue, a task of the bus that does not wait is in no queue. -/
theorem not_mem (h : Placed clients bus feed lists none []) (mine : ours clients bus t = true)
    (aside : t ∉ lists (.waiting (.bus bus))) (q : QueueId) : t ∉ lists q := by
  intro mem
  have inside : t ∈ (lists q).filter (ours clients bus) := List.mem_filter.mpr ⟨mem, mine⟩
  by_cases main : q = feed
  · subst main
    rw [show (lists q).filter (ours clients bus) = [] from h.main] at inside
    cases inside
  · by_cases waits : q = .waiting (.bus bus)
    · subst waits
      exact aside mem
    · rw [h.away q main waits] at inside
      cases inside

end Placed

namespace BusWorld

def token (bus : Nat) (w : BusWorld) : List TaskId :=
  match w.holder bus with
  | none => []
  | some t => if w.isBusy bus then [.poll bus] else [t]

structure Wired (bus : Nat) (old : List Wire) (w : BusWorld) : Prop where
  idle : w.isBusy bus = false →
    ∃ wires, w.board.kernel.wires bus = old ++ wires ∧ Traffic w.started wires
  busy : w.isBusy bus = true → ∃ before last wires, w.started = before ++ [last] ∧
    last.transfer.fault? = none ∧ Traffic before wires ∧
    w.board.Serving (· ∈ last.transfer.lent) last.memory last.transfer.beats (old ++ wires) bus

structure Inv (clients : Nat → Bool) (bus feed : Nat) (old : List Wire) (w : BusWorld) : Prop where
  orderly : w.board.kernel.Orderly
  feeds : w.board.feedQueue bus = .main feed
  placed : Placed clients bus (.main feed) w.board.kernel.chain w.hand (w.token bus)
  held : ∀ t, w.holder bus = some t → w.board.kernel.isBound t = true
  polled : w.isBusy bus = true → w.board.kernel.isBound (.poll bus) = true
  scripts : ∀ s ∈ w.sessions, clients s.client = true ∧ ∀ t ∈ s.script, t.fault? = none
  stage : w.Free bus ∨ ∃ finished s begun queue, w.Taken bus finished s begun queue
  wired : w.Wired bus old

variable {w w' : BusWorld} {feed : Nat} {old : List Wire} {b : Board}

theorem Wired.apart (h : w.Wired bus old) (apart : Board.Apart (w.lent bus) bus w.board w'.board)
    (started : w'.started = w.started) : w'.Wired bus old := by
  have busy : w'.isBusy bus = w.isBusy bus := by simp only [isBusy, apart.transfer.status]
  refine ⟨fun idle => ?_, fun going => ?_⟩
  · obtain ⟨wires, split, traffic⟩ := h.idle (busy ▸ idle)
    exact ⟨wires, apart.wires.trans split, started ▸ traffic⟩
  · rw [busy] at going
    obtain ⟨before, last, wires, split, accepted, traffic, serving⟩ := h.busy going
    refine ⟨before, last, wires, started.trans split, accepted, traffic, serving.apart ?_⟩
    refine ⟨apart.transfer, fun a mem => apart.cells a ⟨going, last, ?_, mem⟩, apart.wires⟩
    rw [split]
    exact List.getLast?_concat

theorem token_length (bus : Nat) (w : BusWorld) : (w.token bus).length ≤ 1 := by
  rw [token]
  cases w.holder bus with
  | none => exact Nat.zero_le 1
  | some t =>
    cases w.isBusy bus
    · exact Nat.le_refl 1
    · exact Nat.le_refl 1

theorem token_free (free : w.holder bus = none) : w.token bus = [] := by
  rw [token, free]

theorem token_idle {t : TaskId} (held : w.holder bus = some t) (idle : w.isBusy bus = false) :
    w.token bus = [t] := by
  rw [token, held, idle]
  rfl

theorem token_busy {t : TaskId} (held : w.holder bus = some t) (busy : w.isBusy bus = true) :
    w.token bus = [.poll bus] := by
  rw [token, held, busy]
  rfl

/-- The bus is held, and its holder is in the main queue or about to run. -/
theorem inv_of_calm {finished queue : List Session} {s : Session} {begun : List Transfer}
    (taken : w.Taken bus finished s begun queue) (idle : w.isBusy bus = false)
    (orderly : w.board.kernel.Orderly) (feeds : w.board.feedQueue bus = .main feed)
    (placed : Placed clients bus (.main feed) w.board.kernel.chain w.hand [s.task])
    (bound : w.board.kernel.isBound s.task = true)
    (scripts : ∀ s ∈ w.sessions, clients s.client = true ∧ ∀ t ∈ s.script, t.fault? = none)
    (wired : w.Wired bus old) : Inv clients bus feed old w := by
  refine ⟨orderly, feeds, ?_, fun t held => ?_, fun busy => ?_, scripts, Or.inr ⟨_, _, _, _, taken⟩,
    wired⟩
  · rw [token_idle taken.holder idle]
    exact placed
  · rw [taken.holder] at held
    cases held
    exact bound
  · rw [idle] at busy
    cases busy

/-- The bus is held, and its poll task is in the main queue or about to run. -/
theorem inv_of_serving {finished queue : List Session} {s : Session} {begun : List Transfer}
    {before : List Started} {last : Started} {wires : List Wire}
    (taken : w.Taken bus finished s begun queue) (split : w.started = before ++ [last])
    (accepted : last.transfer.fault? = none) (traffic : Traffic before wires)
    (serving : w.board.Serving (· ∈ last.transfer.lent) last.memory last.transfer.beats
      (old ++ wires) bus)
    (orderly : w.board.kernel.Orderly) (feeds : w.board.feedQueue bus = .main feed)
    (placed : Placed clients bus (.main feed) w.board.kernel.chain w.hand [.poll bus])
    (held : w.board.kernel.isBound s.task = true)
    (polled : w.board.kernel.isBound (.poll bus) = true)
    (scripts : ∀ s ∈ w.sessions, clients s.client = true ∧ ∀ t ∈ s.script, t.fault? = none) :
    Inv clients bus feed old w := by
  have busy : w.isBusy bus = true := by
    obtain ⟨part, -, going⟩ := serving
    exact decide_eq_true going.busy
  refine ⟨orderly, feeds, ?_, fun t holds => ?_, fun _ => polled, scripts,
    Or.inr ⟨_, _, _, _, taken⟩, fun idle => ?_,
    fun _ => ⟨before, last, wires, split, accepted, traffic, serving⟩⟩
  · rw [token_busy taken.holder busy]
    exact placed
  · rw [taken.holder] at holds
    cases holds
    exact held
  · rw [busy] at idle
    cases idle

/-- What is about to run is the holder between two transfers, or the poll task during one. -/
theorem Inv.ready (h : Inv clients bus feed old w) {t : TaskId} (hand : w.hand = some t) :
    ∃ finished s begun queue, w.Taken bus finished s begun queue ∧
      Placed clients bus (.main feed) w.board.kernel.chain none [] ∧
      (w.isBusy bus = true ∧ t = .poll bus ∨ w.isBusy bus = false ∧ t = s.task) := by
  have placed := h.placed
  rw [hand] at placed
  obtain ⟨single, nobody⟩ := placed.of_hand (token_length bus w)
  rcases h.stage with free | ⟨finished, s, begun, queue, taken⟩
  · rw [token_free free.holder] at single
    cases single
  · refine ⟨finished, s, begun, queue, taken, nobody, ?_⟩
    cases busy : w.isBusy bus with
    | true =>
      rw [token_busy taken.holder busy] at single
      cases single
      exact Or.inl ⟨rfl, rfl⟩
    | false =>
      rw [token_idle taken.holder busy] at single
      cases single
      exact Or.inr ⟨rfl, rfl⟩

end BusWorld

structure Board.Queued (clients : Nat → Bool) (bus feed : Nat) (t : TaskId) (b b' : Board) :
    Prop where
  orderly : b'.kernel.Orderly
  feeds : b'.feedQueue bus = .main feed
  placed : Placed clients bus (.main feed) b'.kernel.chain none [t]
  waiting : b'.kernel.chain (.waiting (.bus bus)) = b.kernel.chain (.waiting (.bus bus))
  holder : b'.kernel.holder (.bus bus) = b.kernel.holder (.bus bus)
  bound : ∀ u, b.kernel.isBound u = true → b'.kernel.isBound u = true

theorem Board.queued_of_fed {b b₁ b₂ : Board} {feed : Nat} {t : TaskId}
    {lists : QueueId → List TaskId} (orderly : b.kernel.Orderly)
    (feeds : b.feedQueue bus = .main feed)
    (placed : Placed clients bus (.main feed) b.kernel.chain none [])
    (mine : ours clients bus t = true) (aside : t ∉ b.kernel.chain (.waiting (.bus bus)))
    (steady : Steady b b₁) (fed : Fed bus t b₁ b₂ b.kernel.chain lists) :
    Queued clients bus feed t b b₂ := by
  have holds : b₁.kernel.Holds b.kernel.chain := steady.holds _ orderly
  have idle : b₁.kernel.isQueued t = false := by
    rw [← Bool.not_eq_true, holds.queued_iff]
    rintro ⟨q, mem⟩
    exact placed.not_mem mine aside q mem
  have feeds₁ : b₁.feedQueue bus = .main feed := (steady.feeds bus).trans feeds
  have result := fed.result
  rw [idle, feeds₁, if_neg Bool.false_ne_true] at result
  obtain ⟨orderly', chain⟩ := fed.holds.orderly
  refine ⟨orderly', (fed.rearranged.feeds _).trans feeds₁, ?_, ?_, ?_, fun u bound => ?_⟩
  · rw [chain, result]
    exact placed.push mine
  · rw [chain, result]
    exact Function.update_of_ne QueueId.noConfusion ..
  · exact (fed.holder _).trans (steady.holder _)
  · exact (fed.rearranged.bound u).trans (steady.bound u bound)

end CoopKernel
