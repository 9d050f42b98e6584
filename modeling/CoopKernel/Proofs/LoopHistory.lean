import CoopKernel.Proofs.MachineRuns
import CoopKernel.Proofs.NestOperations
import CoopKernel.Proofs.QueueHistory
import CoopKernel.Proofs.SoftHistory

/-!
# What the main loop dispatches

A main queue that only the main loop takes tasks out of. Workers, handlers, nests
and buses may add to it at any time, so the account is kept by the steps of the
kernel: each of them keeps what joined and what left the queue in balance, and
only a turn of the loop takes a task out.
-/

namespace CoopKernel

namespace Event

def joining? (q : QueueId) : Event → Option TaskId
  | enqueued r t => if r = q then some t else none
  | _ => none

def leaving? (q : QueueId) : Event → Option TaskId
  | dequeued r t => if r = q then some t else none
  | _ => none

/-- The tasks that joined a queue, oldest first; the events are newest first. -/
def joined (q : QueueId) (es : List Event) : List TaskId := (es.filterMap (joining? q)).reverse

def departed (q : QueueId) (es : List Event) : List TaskId := (es.filterMap (leaving? q)).reverse

def Apart (q : QueueId) (e : Event) : Prop := e.joining? q = none ∧ e.leaving? q = none

variable {q r : QueueId} {t : TaskId} {e : Event} {es : List Event}

theorem joined_append (q : QueueId) (later es : List Event) :
    joined q (later ++ es) = joined q es ++ joined q later := by
  simp only [joined, List.filterMap_append, List.reverse_append]

theorem departed_append (q : QueueId) (later es : List Event) :
    departed q (later ++ es) = departed q es ++ departed q later := by
  simp only [departed, List.filterMap_append, List.reverse_append]

theorem joined_apart (apart : ∀ e ∈ es, e.Apart q) : joined q es = [] := by
  rw [joined, List.filterMap_eq_nil_iff.mpr fun e mem => (apart e mem).1, List.reverse_nil]

theorem departed_apart (apart : ∀ e ∈ es, e.Apart q) : departed q es = [] := by
  rw [departed, List.filterMap_eq_nil_iff.mpr fun e mem => (apart e mem).2, List.reverse_nil]

theorem apart_of_plain (plain : e.isQueueing = false) : e.Apart q := by
  cases e with
  | enqueued r t => cases plain
  | dequeued r t => cases plain
  | _ => exact ⟨rfl, rfl⟩

theorem apart_enqueued (other : r ≠ q) : (enqueued r t).Apart q := ⟨if_neg other, rfl⟩

theorem apart_dequeued (other : r ≠ q) : (dequeued r t).Apart q := ⟨rfl, if_neg other⟩

theorem not_apart_enqueued : ¬ (enqueued q t).Apart q := by simp [Apart, joining?]

theorem not_apart_dequeued : ¬ (dequeued q t).Apart q := by simp [Apart, leaving?]

end Event

namespace Kernel

open Event

variable {reserved : Nat → Prop} {k k' k'' : Kernel} {lists lists' lists'' : QueueId → List TaskId}
variable {es es' : List Event} {q : QueueId} {t : TaskId} {i : Nat}

/-- Every queue has what it had and what joined it, less what left it from its front. -/
structure Moved (k k' : Kernel) (lists lists' : QueueId → List TaskId) (es : List Event) :
    Prop where
  holds : k'.Holds lists'
  trace : k'.trace = es ++ k.trace
  balance : ∀ q, lists q ++ joined q es = departed q es ++ lists' q

theorem Moved.trans (h : k.Moved k' lists lists' es) (h' : k'.Moved k'' lists' lists'' es') :
    k.Moved k'' lists lists'' (es' ++ es) := by
  refine ⟨h'.holds, ?_, fun q => ?_⟩
  · rw [h'.trace, h.trace, List.append_assoc]
  · calc lists q ++ joined q (es' ++ es)
        = (lists q ++ joined q es) ++ joined q es' := by rw [joined_append, List.append_assoc]
      _ = departed q es ++ (lists' q ++ joined q es') := by rw [h.balance q, List.append_assoc]
      _ = departed q (es' ++ es) ++ lists'' q := by
        rw [h'.balance q, departed_append, List.append_assoc]

/-- Nothing joined a queue or left one. -/
theorem moved_apart (holds : k'.Holds lists) (trace : k'.trace = es ++ k.trace)
    (apart : ∀ e ∈ es, ∀ q, e.Apart q) : k.Moved k' lists lists es := by
  refine ⟨holds, trace, fun q => ?_⟩
  rw [joined_apart fun e mem => apart e mem q, departed_apart fun e mem => apart e mem q,
    List.append_nil, List.nil_append]

theorem moved_enqueued (holds : k'.Holds (Function.update lists q (lists q ++ [t])))
    (trace : k'.trace = .enqueued q t :: k.trace) :
    k.Moved k' lists (Function.update lists q (lists q ++ [t])) [.enqueued q t] := by
  refine ⟨holds, trace, fun r => ?_⟩
  by_cases same : r = q
  · subst same
    simp [joined, departed, joining?, leaving?]
  · simp [joined, departed, joining?, leaving?, same, Ne.symm same]

theorem moved_dequeued {rest : List TaskId} (first : lists q = t :: rest)
    (holds : k'.Holds (Function.update lists q rest))
    (trace : k'.trace = .dequeued q t :: k.trace) :
    k.Moved k' lists (Function.update lists q rest) [.dequeued q t] := by
  refine ⟨holds, trace, fun r => ?_⟩
  by_cases same : r = q
  · subst same
    simp [joined, departed, joining?, leaving?, first]
  · simp [joined, departed, joining?, leaving?, same, Ne.symm same]

/-- What a step does to a main queue that is left to the main loop: nothing, or an addition, or
the dispatch of its first task with nothing pending. -/
inductive MainStep (i : Nat) (k k' : Kernel) (lists : QueueId → List TaskId) :
    List Event → Prop where
  | apart {es : List Event} (apart : ∀ e ∈ es, e.Apart (.main i)) : MainStep i k k' lists es
  | added {t : TaskId} (ran : Kernel.add (.main i) t k = .ok true k') :
    MainStep i k k' lists [.enqueued (.main i) t]
  | turned {t : TaskId} {w : Worker} {rest : List TaskId} (calm : k.soft.pending = 0)
    (first : lists (.main i) = t :: rest) (taken : k' = k.turned (.main i) t w)
    (idle : k'.isQueued t = false) (bound : k'.isBound t = true) :
    MainStep i k k' lists [.taskRan t w true false, .dequeued (.main i) t]

/-- A step that nothing joins or leaves a queue in. -/
theorem still_step (holds : k'.Holds lists) (trace : k'.trace = es ++ k.trace)
    (apart : ∀ e ∈ es, ∀ q, e.Apart q) : ∃ lists' es, k.Moved k' lists lists' es ∧
      ∀ i, reserved i → MainStep i k k' lists es :=
  ⟨lists, es, moved_apart holds trace apart, fun i _ => .apart fun e mem => apart e mem (.main i)⟩

theorem exposed_trace (c : Cell) : ∃ es, (k.expose c).trace = es ++ k.trace ∧
    ∀ e ∈ es, ∀ q, e.Apart q := by
  rw [expose]
  split
  · exact ⟨[.exposed c], rfl, by simp [Apart, joining?, leaving?]⟩
  · exact ⟨[], rfl, by simp⟩

/-- Adding a task appends it to one queue or changes nothing. -/
theorem Holds.add_step (holds : k.Holds lists) (q : QueueId) (t : TaskId) :
    ∃ lists' es, k.Moved (Exec.final (Kernel.add q t) k) lists lists' es ∧
      ∀ i, reserved i → MainStep i k (Exec.final (Kernel.add q t) k) lists es := by
  cases bound : k.isBound t with
  | false =>
    rw [Exec.final_error (add_unbound q bound)]
    exact still_step holds (List.nil_append _).symm (by simp)
  | true =>
    cases queued : k.isQueued t with
    | true =>
      obtain ⟨k', added, holds', relinked⟩ := holds.add_queued q queued
      rw [Exec.final_ok added]
      exact still_step holds' relinked.trace (by simp)
    | false =>
      obtain ⟨k', added, holds', relinked⟩ := holds.add_idle q bound queued
      rw [Exec.final_ok added]
      refine ⟨_, _, moved_enqueued holds' relinked.trace, fun i _ => ?_⟩
      by_cases same : q = .main i
      · subst same
        exact .added added
      · exact .apart (by simpa using apart_enqueued same)

theorem Holds.pop_step (holds : k.Holds lists) {q : QueueId}
    (common : ∀ i, reserved i → q ≠ .main i) :
    ∃ lists' es, k.Moved (k.pop q).2 lists lists' es ∧
      ∀ i, reserved i → MainStep i k (k.pop q).2 lists es := by
  cases split : lists q with
  | nil =>
    obtain ⟨k', popped, holds', relinked⟩ := holds.pop_nil split
    rw [popped]
    exact still_step holds' relinked.trace (by simp)
  | cons t rest =>
    obtain ⟨k', popped, holds', relinked⟩ := holds.pop_cons split
    rw [popped]
    refine ⟨_, _, moved_dequeued split holds' relinked.trace, fun i kept => .apart ?_⟩
    simpa using apart_dequeued (common i kept)

/-- The task that is taken out is the first, and sits in no queue any more. -/
theorem Holds.pop_first (holds : k.Holds lists) (first : (k.pop q).1 = some t) :
    ∃ rest, lists q = t :: rest ∧ (k.pop q).2.Holds (Function.update lists q rest) ∧
      (k.pop q).2.trace = .dequeued q t :: k.trace ∧ (k.pop q).2.isQueued t = false ∧
      (k.pop q).2.isBound t = true := by
  cases split : lists q with
  | nil =>
    obtain ⟨k', popped, -, -⟩ := holds.pop_nil split
    rw [popped] at first
    cases first
  | cons u rest =>
    obtain ⟨k', popped, holds', relinked⟩ := holds.pop_cons split
    rw [popped] at first ⊢
    cases first
    have mem : t ∈ lists q := split ▸ List.mem_cons_self
    have idle : ¬ k'.isQueued t = true := by
      rw [holds'.queued_iff t]
      rintro ⟨r, there⟩
      exact ((mem_remove split (holds.nodup q) holds.apart).mp there).2 rfl
    refine ⟨rest, rfl, holds', relinked.trace, by simpa using idle, ?_⟩
    rw [relinked.isBound]
    exact holds.bound t (holds.queued mem)

theorem Holds.turn_step (holds : k.Holds lists) {w : Worker} (quiet : k.soft.lowest? = none)
    (first : (k.pop q).1 = some t) :
    ∃ lists' es, k.Moved (k.turned q t w) lists lists' es ∧
      ∀ i, reserved i → MainStep i k (k.turned q t w) lists es := by
  obtain ⟨rest, split, holds', trace, idle, bound⟩ := holds.pop_first first
  have started : (k.pop q).2.Moved (k.turned q t w) (Function.update lists q rest)
      (Function.update lists q rest) [.taskRan t w true false] := by
    refine moved_apart (holds'.congr rfl rfl) ?_ (by simp [Apart, joining?, leaving?])
    rw [turned, idle]
    rfl
  refine ⟨_, _, (moved_dequeued split holds' trace).trans started, fun i _ => ?_⟩
  by_cases same : q = .main i
  · subst same
    exact .turned (SoftTable.ids_eq_empty.mp (SoftTable.lowest_none.mp quiet)) split rfl idle bound
  · refine .apart fun e mem => ?_
    rcases List.mem_cons.mp mem with rfl | mem
    · exact ⟨rfl, rfl⟩
    · rw [List.mem_singleton.mp mem]
      exact apart_dequeued same

/-- What each step does to the queues. -/
theorem Step.moved (step : k.Step reserved k') (holds : k.Holds lists) :
    ∃ lists' es, k.Moved k' lists lists' es ∧ ∀ i, reserved i → MainStep i k k' lists es := by
  cases step with
  | add q t => exact holds.add_step q t
  | pop q common => exact holds.pop_step common
  | turn quiet first worker => exact holds.turn_step quiet first
  | count q => exact still_step (holds.congr rfl rfl) (List.nil_append _).symm (by simp)
  | isEmpty q => exact still_step (holds.congr rfl rfl) (List.nil_append _).symm (by simp)
  | grant n t =>
    obtain ⟨es, trace, apart⟩ := exposed_trace (k := k) (.current n)
    have granted : (k.grant n t).trace = (.granted n t :: es) ++ k.trace := by
      rw [List.cons_append, ← trace]
      rfl
    refine still_step (holds.grant n t) granted ?_
    simpa [Apart, joining?, leaving?] using apart
  | free n =>
    obtain ⟨es, trace, apart⟩ := exposed_trace (k := k) (.current n)
    exact still_step (holds.putCurrent n none) trace apart
  | submitted n t =>
    have trace : (k.note (.submitted n t)).trace = [.submitted n t] ++ k.trace := rfl
    exact still_step (holds.congr rfl rfl) trace (by simp [Apart, joining?, leaving?])
  | bindWorker t w =>
    obtain ⟨es, trace, apart⟩ := exposed_trace (k := k) (.worker t)
    exact still_step (holds.putWorker t w) trace apart
  | bindHandler id script =>
    by_cases inside : id < k.soft.slots
    · have ran : Kernel.bindHandler id script k =
          .ok () (k.enclosed fun k => ((), k.putHandler id script)).2 := by
        rw [Kernel.bindHandler, if_pos inside]
      rw [Exec.final_ok ran]
      exact still_step (holds.congr rfl rfl) (List.nil_append _).symm (by simp)
    · have refused : Kernel.bindHandler id script k = .error (.fault (.softIdOutOfRange id)) k := by
        rw [Kernel.bindHandler, if_neg inside]
      rw [Exec.final_error refused]
      exact still_step holds (List.nil_append _).symm (by simp)
  | raise id =>
    by_cases inside : id < k.soft.slots
    · let raised : Event := .raised id (!k.soft.pending.getLsbD id)
      have ran : Kernel.raise id k = .ok () ({ k with soft := k.soft.mark id }.note raised) := by
        rw [Kernel.raise, if_pos inside]
      have trace : ({ k with soft := k.soft.mark id }.note raised).trace =
          [raised] ++ k.trace := rfl
      rw [Exec.final_ok ran]
      exact still_step (holds.congr rfl rfl) trace (by simp [raised, Apart, joining?, leaving?])
    · have refused : Kernel.raise id k = .error (.fault (.softIdOutOfRange id)) k := by
        rw [Kernel.raise, if_neg inside]
      rw [Exec.final_error refused]
      exact still_step holds (List.nil_append _).symm (by simp)
  | @dispatch id script lowest bound =>
    have taken : k.takeLowest.2 = { k with soft := k.soft.clear id }.note (.served id) := by
      rw [takeLowest, lowest]
    have trace : (k.dispatched id script).trace =
        [.handlerRan id script true, .served id] ++ k.trace := by
      rw [dispatched, taken]
      rfl
    refine still_step ?_ trace (by simp [Apart, joining?, leaving?])
    rw [dispatched, taken]
    exact holds.congr rfl rfl
  | cpu c => exact still_step (holds.congr rfl rfl) (List.nil_append _).symm (by simp)
  | remark e plain =>
    have trace : (k.note e).trace = [e] ++ k.trace := rfl
    exact still_step (holds.congr rfl rfl) trace (by simpa using fun q => apart_of_plain plain.2)

/-- A task joins the queue when a caller that adds it is told that it was appended. -/
def AddedThere (i : Nat) (start k : Kernel) (earlier : List Event) (t : TaskId) : Prop :=
  ∃ k₀ k₁, start.Steps (· = i) k₀ ∧ k₀.trace = earlier ++ start.trace ∧
    Kernel.add (.main i) t k₀ = .ok true k₁ ∧ k₁.Halts (· = i) k

/-- A task leaves the queue when the main loop dispatches it: it is the first one, nothing is
pending, and when its worker starts it sits in no queue, so it can be queued again. -/
def DispatchedThere (i : Nat) (start k : Kernel) (earlier : List Event) (t : TaskId) (w : Worker) :
    Prop :=
  ∃ k₀ k₁, start.Steps (· = i) k₀ ∧ k₀.trace = earlier ++ start.trace ∧ k₀.soft.pending = 0 ∧
    (∃ rest, k₀.chain (.main i) = t :: rest) ∧ k₁ = k₀.turned (.main i) t w ∧
    k₁.isQueued t = false ∧ (∀ q, ∃ k₂, Kernel.add q t k₁ = .ok true k₂) ∧ k₁.Halts (· = i) k

/-- An account of a main queue and of what happened to it from one kernel to another. -/
structure LoopAccount (i : Nat) (start k : Kernel) (es : List Event) : Prop where
  trace : k.trace = es ++ start.trace
  balance : start.chain (.main i) ++ joined (.main i) es =
    departed (.main i) es ++ k.chain (.main i)
  added : ∀ later t earlier, es = later ++ .enqueued (.main i) t :: earlier →
    AddedThere i start k earlier t
  dispatched : ∀ later t earlier, es = later ++ .dequeued (.main i) t :: earlier →
    ∃ w more, later = more ++ [.taskRan t w true false] ∧ DispatchedThere i start k earlier t w

theorem LoopAccount.of_apart (holds : k.Holds lists) (moved : k.Moved k' lists lists es)
    (apart : ∀ e ∈ es, e.Apart (.main i)) : LoopAccount i k k' es where
  trace := moved.trace
  balance := by rw [holds.chain, moved.holds.chain, moved.balance]
  added := by
    rintro later t earlier rfl
    exact absurd (apart (.enqueued _ t) (by simp)) not_apart_enqueued
  dispatched := by
    rintro later t earlier rfl
    exact absurd (apart (.dequeued _ t) (by simp)) not_apart_dequeued

theorem MainStep.addition {newer earlier : List Event}
    (main : MainStep i k k' lists (newer ++ .enqueued (.main i) t :: earlier)) :
    newer = [] ∧ earlier = [] ∧ Kernel.add (.main i) t k = .ok true k' := by
  generalize split : newer ++ .enqueued (.main i) t :: earlier = es at main
  cases main with
  | apart apart => exact absurd (apart (.enqueued _ t) (by simp [← split])) not_apart_enqueued
  | added ran =>
    cases newer with
    | nil =>
      cases split
      exact ⟨rfl, rfl, ran⟩
    | cons e newer => simp at split
  | turned =>
    cases newer with
    | nil => cases split
    | cons e newer => simp [List.append_eq_singleton_iff] at split

/-- A task leaves the queue of the main loop in one way: it is dispatched. -/
theorem MainStep.turning {newer earlier : List Event}
    (main : MainStep i k k' lists (newer ++ .dequeued (.main i) t :: earlier)) :
    ∃ w, newer = [.taskRan t w true false] ∧ earlier = [] ∧ k.soft.pending = 0 ∧
      (∃ rest, lists (.main i) = t :: rest) ∧ k' = k.turned (.main i) t w ∧
      k'.isQueued t = false ∧ k'.isBound t = true := by
  generalize split : newer ++ .dequeued (.main i) t :: earlier = es at main
  cases main with
  | apart apart => exact absurd (apart (.dequeued _ t) (by simp [← split])) not_apart_dequeued
  | added ran =>
    cases newer with
    | nil => cases split
    | cons e newer => simp at split
  | @turned u w rest calm first taken idle bound =>
    cases newer with
    | nil => cases split
    | cons e newer =>
      cases newer with
      | nil =>
        cases split
        exact ⟨w, rfl, rfl, calm, ⟨rest, first⟩, taken, idle, bound⟩
      | cons e' newer => simp at split

/-- Where an event stands when events go on from a first step. -/
theorem split_events {later earlier es first : List Event} {e : Event}
    (split : es ++ first = later ++ e :: earlier) :
    (∃ older, es = later ++ e :: older ∧ earlier = older ++ first) ∨
      ∃ newer, later = es ++ newer ∧ first = newer ++ e :: earlier := by
  rcases List.append_eq_append_iff.mp split with ⟨newer, hlater, hfirst⟩ | ⟨tail, hes, htail⟩
  · exact Or.inr ⟨newer, hlater, hfirst⟩
  · cases tail with
    | nil => exact Or.inr ⟨[], by simpa using hes.symm, by simpa using htail.symm⟩
    | cons e' older =>
      obtain ⟨rfl, rfl⟩ := List.cons.inj htail
      exact Or.inl ⟨older, hes, rfl⟩

/-- One step more at the beginning. -/
theorem LoopAccount.step {first : List Event} (step : k.Step (· = i) k') (holds : k.Holds lists)
    (moved : k.Moved k' lists lists' first) (main : MainStep i k k' lists first)
    (halts : k'.Halts (· = i) k'') (rest : LoopAccount i k' k'' es) :
    LoopAccount i k k'' (es ++ first) where
  trace := by rw [rest.trace, moved.trace, List.append_assoc]
  balance := by
    have later := rest.balance
    rw [moved.holds.chain] at later
    rw [holds.chain, joined_append, departed_append, ← List.append_assoc, moved.balance,
      List.append_assoc, later, List.append_assoc]
  added := by
    intro later t earlier split
    rcases split_events split with ⟨older, hes, rfl⟩ | ⟨newer, -, rfl⟩
    · obtain ⟨k₀, k₁, steps, trace, ran, ends⟩ := rest.added later t older hes
      refine ⟨k₀, k₁, steps.head step, ?_, ran, ends⟩
      rw [trace, moved.trace, List.append_assoc]
    · obtain ⟨rfl, rfl, ran⟩ := main.addition
      exact ⟨k, k', .refl, rfl, ran, halts⟩
  dispatched := by
    intro later t earlier split
    rcases split_events split with ⟨older, hes, rfl⟩ | ⟨newer, hlater, rfl⟩
    · obtain ⟨w, more, hmore, k₀, k₁, steps, trace, there⟩ := rest.dispatched later t older hes
      refine ⟨w, more, hmore, k₀, k₁, steps.head step, ?_, there⟩
      rw [trace, moved.trace, List.append_assoc]
    · obtain ⟨w, rfl, rfl, calm, first, taken, idle, bound⟩ := main.turning
      have again : ∀ q, ∃ k₂, Kernel.add q t k' = .ok true k₂ := by
        intro q
        obtain ⟨k₂, added, -, -⟩ := moved.holds.add_idle q bound idle
        exact ⟨k₂, added⟩
      refine ⟨w, es, hlater, k, k', .refl, rfl, calm, ?_, taken, idle, again, halts⟩
      rw [holds.chain]
      exact first

/-- A task that is queued has a worker. -/
theorem Holds.no_workerless (holds : k.Holds lists) : ¬ k.Workerless k' := by
  rintro ⟨q, t, first, worker, -⟩
  obtain ⟨rest, -, -, -, -, bound⟩ := holds.pop_first first
  rw [isBound, worker] at bound
  cases bound

theorem Unhandled.moved (holds : k.Holds lists) (unhandled : k.Unhandled k') :
    ∃ id, k.Moved k' lists lists [.served id] := by
  obtain ⟨id, lowest, -, rfl⟩ := unhandled
  have taken : k.takeLowest.2 = { k with soft := k.soft.clear id }.note (.served id) := by
    rw [takeLowest, lowest]
  refine ⟨id, ?_⟩
  rw [taken]
  exact moved_apart (holds.congr rfl rfl) rfl (by simp [Apart, joining?, leaving?])

/-- By induction on the steps, from the first. -/
theorem Halts.loopAccount (halts : k.Halts (· = i) k'') (holds : k.Holds lists) :
    ∃ es, LoopAccount i k k'' es := by
  obtain ⟨last, steps, ended⟩ := halts
  induction steps using Relation.ReflTransGen.head_induction_on generalizing lists with
  | refl =>
    rcases ended with rfl | unhandled | workerless
    · exact ⟨[], .of_apart holds (moved_apart holds rfl (by simp)) (by simp)⟩
    · obtain ⟨id, moved⟩ := unhandled.moved holds
      exact ⟨_, .of_apart holds moved (by simp [Apart, joining?, leaving?])⟩
    · exact absurd workerless holds.no_workerless
  | head step steps ih =>
    obtain ⟨lists', first, moved, main⟩ := step.moved holds
    obtain ⟨es, rest⟩ := ih moved.holds
    exact ⟨es ++ first, rest.step step holds moved (main i rfl) ⟨last, steps, ended⟩⟩

theorem Steps.holds (steps : k.Steps reserved k') (holds : k.Holds lists) :
    ∃ lists', k'.Holds lists' := by
  induction steps with
  | refl => exact ⟨lists, holds⟩
  | tail _ step ih =>
    obtain ⟨lists', holds'⟩ := ih
    obtain ⟨lists'', es, moved, -⟩ := step.moved holds'
    exact ⟨lists'', moved.holds⟩

/-- The trace tells which attempts to add a task succeeded. -/
theorem Holds.add_recorded (holds : k.Holds lists) {appended : Bool}
    (ran : Kernel.add q t k = .ok appended k') :
    k'.trace = (if appended then [.enqueued q t] else []) ++ k.trace := by
  cases bound : k.isBound t with
  | false =>
    rw [add_unbound q bound] at ran
    cases ran
  | true =>
    cases queued : k.isQueued t with
    | true =>
      obtain ⟨k₁, added, -, relinked⟩ := holds.add_queued q queued
      rw [added] at ran
      cases ran
      exact relinked.trace
    | false =>
      obtain ⟨k₁, added, -, relinked⟩ := holds.add_idle q bound queued
      rw [added] at ran
      cases ran
      exact relinked.trace

end Kernel

namespace Machine

open Exec Event

/-- Whatever workers and handlers do, and however far the run got: what the main loop dispatched,
followed by what waits, is what was added, in that order. Each task that joined or left the queue
did so in one successful addition or in one dispatch. -/
theorem main_loop_dispatches_in_order (rounds depth i : Nat) {m : Machine}
    {lists : QueueId → List TaskId} (holds : m.kernel.Holds lists) (scripts : m.Spares (· = i))
    {actions : List Action} (own : ∀ a ∈ actions, a.Spares (· = i)) :
    m.kernel.Halts (· = i) (final (performAll rounds depth actions) m).kernel ∧
      (∀ k, m.kernel.Halts (· = i) k → ∃ es, Kernel.LoopAccount i m.kernel k es) ∧
      ∀ k, m.kernel.Steps (· = i) k → ∀ q t appended k', Kernel.add q t k = .ok appended k' →
        k'.trace = (if appended then [.enqueued q t] else []) ++ k.trace := by
  refine ⟨((follows_performAll rounds depth actions own m).final scripts).kernel, ?_, ?_⟩
  · intro k halts
    exact halts.loopAccount holds
  · intro k steps q t appended k' ran
    obtain ⟨lists', there⟩ := steps.holds holds
    exact there.add_recorded ran

/-- A worker that adds its own task again and raises an id whose handler adds another one. -/
theorem added_again_from_its_worker :
    let p : Plan := { slots := 2, tasks := [some 0, some 2], scripts := #[
      Script.ofSteps #[[.add 0 (some 0), .raise 1], []], Script.ofSteps #[[.add 0 (some 1)]]] }
    let actions : List Action := [.bindHandler 1 1, .add 0 (some 0), .turn 0, .turn 0, .turn 0]
    let ended := final (performAll 9 5 actions) p.boot
    ∃ es, Kernel.LoopAccount 0 p.bootKernel ended.kernel es ∧
      departed (.main 0) es = [.user 0, .user 0, .user 1] := by
  intro p actions ended
  have scripted : ∀ script run, ∀ a ∈ p.boot.scripts script run,
      a ∈ [Action.add 0 (some 0), .raise 1, .add 0 (some 1)] := by
    intro script run a mem
    match script, run with
    | 0, 0 => exact List.mem_append_left [Action.add 0 (some 1)] mem
    | 0, _ + 1 | 1, _ | _ + 2, _ => simp_all [p, Plan.boot, Script.ofSteps]
  have spares : p.boot.Spares (· = 0) := by
    rintro script run a mem _ rfl takes
    have listed := scripted script run a mem
    cases takes <;> simp at listed
  have own : ∀ a ∈ actions, a.Spares (· = 0) := by
    rintro a mem _ rfl takes
    cases takes <;> simp [actions] at mem
  have fresh : p.boot.kernel.Holds fun _ => [] := (Kernel.bootKernel_fresh p).holds
  obtain ⟨halts, accounts, -⟩ := main_loop_dispatches_in_order 9 5 0 fresh spares own
  obtain ⟨es, account⟩ := accounts _ halts
  have whole : es = ended.kernel.trace := by
    rw [account.trace]
    exact (List.append_nil es).symm
  refine ⟨es, account, ?_⟩
  rw [whole]
  decide +kernel

end Machine

end CoopKernel
