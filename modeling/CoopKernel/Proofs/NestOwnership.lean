import CoopKernel.Proofs.NestRoster
import CoopKernel.Proofs.QueueHistory
import Mathlib.Logic.Relation

/-!
# Ownership of the resources of nests

Any number of nests feed main queues that they may share. Tasks are submitted,
resources are handed over and main queues are added to and popped, in any order.
A resource that nobody holds is waited for by nobody, and the tasks that became
holders, followed by those that wait, are the submissions in their order. If
besides a task belongs to one nest and only comes back to a main queue as its
holder, then of the tasks of a nest only the holder is ever in a main queue.
-/

namespace CoopKernel

/-- What was submitted to each nest and who became its holder, oldest first. -/
structure NestWorld where
  kernel : Kernel
  submitted : NestId → List TaskId := fun _ => []
  granted : NestId → List TaskId := fun _ => []

namespace NestOp

def asks (n : NestId) : NestOp → List TaskId
  | submit m t => if m = n then [t] else []
  | _ => []

/-- The task that an operation makes the holder of a nest. A handover may leave the holder as it
was: a task that waits behind itself. -/
def takers (n : NestId) (op : NestOp) (k k' : Kernel) : List TaskId :=
  if op = .handOver n ∨ k'.holder n ≠ k.holder n then (k'.holder n).toList else []

end NestOp

namespace NestWorld

def boot (p : Plan) : NestWorld := { kernel := p.bootKernel }

def after (w : NestWorld) (op : NestOp) (k : Kernel) : NestWorld where
  kernel := k
  submitted n := w.submitted n ++ op.asks n
  granted n := w.granted n ++ op.takers n w.kernel k

/-- A task belongs to one nest, comes back to a main queue only as its holder, and keeps the
resource as long as it is in a main queue. -/
def Disciplined (w : NestWorld) : NestOp → Prop
  | .submit n t => ∀ m, t ∈ w.submitted m → m = n
  | .add _ t => ∀ n, t ∈ w.submitted n → w.kernel.holder n = some t
  | .handOver n => ∀ t, w.kernel.holder n = some t → ∀ i, t ∉ w.kernel.chain (.main i)
  | .pop _ => True

inductive Step (rule : NestWorld → NestOp → Prop) : NestWorld → NestWorld → Prop where
  | op {w : NestWorld} {op : NestOp} {k : Kernel} (fit : op.Fit w.kernel) (allowed : rule w op)
    (ran : op.run w.kernel = .ok () k) : Step rule w (w.after op k)

abbrev Run (rule : NestWorld → NestOp → Prop) : NestWorld → NestWorld → Prop :=
  Relation.ReflTransGen (Step rule)

variable {feeds : NestId → Nat} {r r' : Roster} {w w' : NestWorld} {n : NestId} {t : TaskId}
variable {op : NestOp} {k : Kernel}

/-- The new holders that an operation makes, as rosters have them. -/
def takers (n : NestId) (op : NestOp) (r r' : Roster) : List TaskId :=
  if op = .handOver n ∨ r'.holder n ≠ r.holder n then (r'.holder n).toList else []

theorem takers_eq (before : w.kernel.Shows feeds r) (after : k.Shows feeds r') :
    op.takers n w.kernel k = takers n op r r' := by
  simp only [NestOp.takers, takers, before.holder n, after.holder n]

/-- What waits, and is asked for, is granted or waits still. -/
theorem conserved (step : r.Step feeds op r') (n : NestId)
    (wanted : r.holder n = none → r.queues (.waiting n) = []) :
    r.queues (.waiting n) ++ op.asks n = takers n op r r' ++ r'.queues (.waiting n) := by
  cases step with
  | @waits m t u held idle =>
    by_cases same : m = n
    · subst same
      simp [takers, NestOp.asks]
    · have apart : QueueId.waiting n ≠ .waiting m := by simpa using Ne.symm same
      simp [takers, NestOp.asks, same, apart]
  | @granted m t free idle =>
    by_cases same : m = n
    · subst same
      simp [takers, NestOp.asks, Roster.holder_grant, free, wanted free]
    · simp [takers, NestOp.asks, Roster.holder_grant, same, Ne.symm same]
  | @freed m empty =>
    by_cases same : m = n
    · subst same
      simp [takers, NestOp.asks, Roster.holder_assign]
    · simp [takers, NestOp.asks, Roster.holder_assign, same, Ne.symm same]
  | @promoted m t rest first =>
    by_cases same : m = n
    · subst same
      simp [takers, NestOp.asks, Roster.holder_grant, first]
    · have apart : QueueId.waiting n ≠ .waiting m := by simpa using Ne.symm same
      simp [takers, NestOp.asks, Roster.holder_grant, same, Ne.symm same, apart]
  | refused => simp [takers, NestOp.asks]
  | added idle => simp [takers, NestOp.asks]
  | popped => simp [takers, NestOp.asks]

/-- A new holder is put at the end of the main queue in the same step. -/
theorem placed (step : r.Step feeds op r') (taken : t ∈ takers n op r r') :
    r'.holder n = some t ∧ r'.queues (.main (feeds n)) = r.queues (.main (feeds n)) ++ [t] := by
  rw [takers] at taken
  split at taken
  · rename_i made
    have held : r'.holder n = some t := Option.mem_toList.mp taken
    refine ⟨held, ?_⟩
    cases step with
    | waits _ _ => simp at made
    | @granted m u free idle =>
      rw [Roster.holder_grant] at held made
      by_cases same : n = m
      · subst same
        rw [if_pos rfl] at held
        cases held
        simp
      · simp [same] at made
    | @freed m empty =>
      rw [Roster.holder_assign] at held made
      by_cases same : n = m
      · simp [same] at held
      · simp [same, Ne.symm same] at made
    | @promoted m u rest first =>
      rw [Roster.holder_grant] at held made
      by_cases same : n = m
      · subst same
        rw [if_pos rfl] at held
        cases held
        simp
      · simp [same, Ne.symm same] at made
    | refused => simp at made
    | added _ => simp at made
    | popped => simp at made
  · cases taken

/-- Only a waiting list that somebody holds up grows. -/
theorem wanted_step (step : r.Step feeds op r')
    (wanted : ∀ n, r.holder n = none → r.queues (.waiting n) = []) (n : NestId)
    (free : r'.holder n = none) : r'.queues (.waiting n) = [] := by
  cases step with
  | @waits m t u held idle =>
    have apart : QueueId.waiting n ≠ .waiting m := by
      intro same
      injection same with same
      subst same
      rw [Roster.holder_append, held] at free
      cases free
    rw [Roster.queues_append_ne apart]
    exact wanted n free
  | @granted m t was idle =>
    rw [Roster.holder_grant] at free
    split at free
    · cases free
    · simpa using wanted n free
  | @freed m empty =>
    rw [Roster.holder_assign] at free
    split at free
    · rename_i same
      subst same
      exact empty
    · exact wanted n free
  | @promoted m t rest first =>
    rw [Roster.holder_grant] at free
    split at free
    · cases free
    · rename_i other
      have apart : QueueId.waiting n ≠ .waiting m := fun same => other (by injection same)
      simpa [apart] using wanted n free
  | refused => exact wanted n free
  | added idle => simpa using wanted n free
  | popped => simpa using wanted n free

/-- Nobody waits for a free resource, and resources are granted in the order of submissions. -/
structure Sound (feeds : NestId → Nat) (r : Roster) (w : NestWorld) : Prop where
  shows : w.kernel.Shows feeds r
  wanted : ∀ n, r.holder n = none → r.queues (.waiting n) = []
  order : ∀ n, w.granted n ++ r.queues (.waiting n) = w.submitted n

theorem Sound.step (h : Sound feeds r w) (shows : k.Shows feeds r') (step : r.Step feeds op r') :
    Sound feeds r' (w.after op k) where
  shows := shows
  wanted := wanted_step step h.wanted
  order n := by
    have law := conserved step n (h.wanted n)
    calc (w.after op k).granted n ++ r'.queues (.waiting n)
        = w.granted n ++ (takers n op r r' ++ r'.queues (.waiting n)) := by
          rw [← List.append_assoc, ← takers_eq h.shows shows, after]
      _ = w.granted n ++ r.queues (.waiting n) ++ op.asks n := by rw [← law, List.append_assoc]
      _ = w.submitted n ++ op.asks n := by rw [h.order n]

/-- Of the tasks submitted to a nest only its holder is in a main queue, and no task is submitted
to two nests. -/
structure Exclusive (r : Roster) (w : NestWorld) : Prop where
  own : ∀ {n t i}, t ∈ w.submitted n → t ∈ r.queues (.main i) → r.holder n = some t
  apart : ∀ {n m t}, t ∈ w.submitted n → t ∈ w.submitted m → n = m

theorem mem_submitted_after : t ∈ (w.after op k).submitted n ↔
    t ∈ w.submitted n ∨ op = .submit n t := by
  cases op with
  | submit m u =>
    by_cases same : m = n
    · simp [after, NestOp.asks, same, eq_comm]
    · simp [after, NestOp.asks, same]
  | _ => simp [after, NestOp.asks]

theorem Exclusive.apart_after (h : Exclusive r w) (allowed : Disciplined w op) {m : NestId}
    (first : t ∈ (w.after op k).submitted n) (second : t ∈ (w.after op k).submitted m) :
    n = m := by
  rcases mem_submitted_after.mp first with old | rfl
  · rcases mem_submitted_after.mp second with old' | rfl
    · exact h.apart old old'
    · exact allowed n old
  · rcases mem_submitted_after.mp second with old' | new
    · exact (allowed m old').symm
    · injection new

theorem Exclusive.leave_waiting (h : Exclusive r w) (n : NestId) (rest : List TaskId) :
    Exclusive (r.leave (.waiting n) rest) w where
  own mem queued := by
    rw [Roster.queues_leave_ne QueueId.noConfusion] at queued
    exact h.own mem queued
  apart := h.apart

/-- A grant puts the new holder in the main queue, where no task of the nest was. -/
theorem Exclusive.own_grant (h : Exclusive r w) {m : NestId} {u : TaskId} {i : Nat}
    (empty : ∀ {v j}, v ∈ w.submitted n → v ∉ r.queues (.main j))
    (mem : u ∈ w.submitted m ∨ u = t) (belongs : u = t → m = n)
    (queued : u ∈ (r.grant feeds n t).queues (.main i)) :
    (r.grant feeds n t).holder m = some u := by
  rw [Roster.holder_grant]
  by_cases new : u = t
  · rw [if_pos (belongs new), new]
  · have old := mem.resolve_right new
    have there := (Kernel.mem_append.mp queued).resolve_right fun last => new last.1
    have other : m ≠ n := by
      rintro rfl
      exact empty old there
    rw [if_neg other]
    exact h.own old there

/-- An operation of a disciplined program keeps every task with one nest. -/
theorem Exclusive.step (h : Exclusive r w) (sound : Sound feeds r w) (step : r.Step feeds op r')
    (allowed : Disciplined w op) : Exclusive r' (w.after op k) := by
  refine ⟨fun {m u i} mem queued => ?_, h.apart_after allowed⟩
  have mine := mem_submitted_after.mp mem
  cases step with
  | @waits n t v held idle =>
    rw [Roster.queues_append_ne QueueId.noConfusion] at queued
    rcases mine with old | new
    · exact h.own old queued
    · cases new
      exact absurd queued (idle _)
  | @granted n t free idle =>
    refine h.own_grant (n := n) (t := t) ?_ ?_ ?_ queued
    · intro v j old there
      have held := h.own old there
      rw [free] at held
      cases held
    · exact mine.imp_right fun new => by cases new; rfl
    · rintro rfl
      rcases mine with old | new
      · exact allowed m old
      · cases new
        rfl
  | @freed n empty =>
    have held := h.own (mine.resolve_right NestOp.noConfusion) queued
    rw [Roster.holder_assign]
    split
    · rename_i same
      subst same
      have away := allowed u ((sound.shows.holder m).trans held) i
      rw [sound.shows.chain] at away
      exact absurd queued away
    · exact held
  | @promoted n t rest first =>
    have old := mine.resolve_right NestOp.noConfusion
    have asked : t ∈ w.submitted n := by
      rw [← sound.order n, first]
      simp
    -- The old holder may only hand over while it is in no main queue, so none of the tasks is.
    refine (h.leave_waiting n rest).own_grant ?_ (Or.inl old) ?_ queued
    · intro v j mem there
      rw [Roster.queues_leave_ne QueueId.noConfusion] at there
      have away := allowed v ((sound.shows.holder n).trans (h.own mem there)) j
      rw [sound.shows.chain] at away
      exact away there
    · rintro rfl
      exact h.apart old asked
  | @refused q t => exact h.own (mine.resolve_right NestOp.noConfusion) queued
  | @added q t idle =>
    have old := mine.resolve_right NestOp.noConfusion
    rcases Kernel.mem_append.mp queued with there | ⟨same, -⟩
    · exact h.own old there
    · subst same
      exact (sound.shows.holder m).symm.trans (allowed m old)
  | @popped q =>
    have old := mine.resolve_right NestOp.noConfusion
    by_cases same : i = q
    · subst same
      rw [Roster.queues_leave_self] at queued
      exact h.own old (List.mem_of_mem_tail queued)
    · rw [Roster.queues_leave_ne (by simpa using same)] at queued
      exact h.own old queued

theorem boot_sound (p : Plan) : ∃ feeds, Sound feeds ⟨fun _ => [], fun _ => none⟩ (boot p) := by
  choose feeds main using fun n => (Kernel.nests_boot p n).2
  refine ⟨feeds, ⟨(Kernel.bootKernel_fresh p).holds, ?_, main⟩, fun _ _ => rfl, fun _ => rfl⟩
  exact fun n => (Kernel.nests_boot p n).1

/-- By induction on the run: every step is one that a roster can make. -/
theorem Run.sound {rule : NestWorld → NestOp → Prop} (run : Run rule w w')
    (start : Sound feeds r w) : ∃ r', Sound feeds r' w' := by
  induction run with
  | refl => exact ⟨r, start⟩
  | tail _ step ih =>
    obtain ⟨r₁, sound⟩ := ih
    obtain ⟨fit, -, ran⟩ := step
    obtain ⟨k, r', ran', shows, step⟩ := sound.shows.run fit
    cases ran.symm.trans ran'
    exact ⟨r', sound.step shows step⟩

theorem Run.exclusive (run : Run Disciplined w w') (start : Sound feeds r w)
    (exclusive : Exclusive r w) : ∃ r', Sound feeds r' w' ∧ Exclusive r' w' := by
  induction run with
  | refl => exact ⟨r, start, exclusive⟩
  | tail _ step ih =>
    obtain ⟨r₁, sound, only⟩ := ih
    obtain ⟨fit, allowed, ran⟩ := step
    obtain ⟨k, r', ran', shows, step⟩ := sound.shows.run fit
    cases ran.symm.trans ran'
    exact ⟨r', sound.step shows step, only.step sound step allowed⟩

/-- Nobody waits for a free resource; resources are granted in the order in which they were asked
for; a task that becomes the holder is put at the end of the main queue by the same operation. -/
structure InOrder (w : NestWorld) : Prop where
  wanted : ∀ n, w.kernel.holder n = none → w.kernel.chain (.waiting n) = []
  order : ∀ n, w.granted n ++ w.kernel.chain (.waiting n) = w.submitted n
  queued : ∀ t, w.kernel.isQueued t = true ↔ ∃ q, t ∈ w.kernel.chain q
  runs : ∀ op : NestOp, op.Fit w.kernel → ∃ k, op.run w.kernel = .ok () k ∧
    ∀ n t, t ∈ op.takers n w.kernel k → k.holder n = some t ∧
      ∃ i, k.feeds n = .main i ∧ k.chain (.main i) = w.kernel.chain (.main i) ++ [t]
  promotes : ∀ n t rest, w.kernel.chain (.waiting n) = t :: rest →
    ∃ k, Kernel.handOver n w.kernel = .ok () k ∧ k.holder n = some t ∧
      k.chain (.waiting n) = rest ∧
      ∃ i, k.feeds n = .main i ∧ k.chain (.main i) = w.kernel.chain (.main i) ++ [t]

/-- Queues and holders are those of the roster, so they are in order when it is sound. -/
theorem Sound.inOrder (h : Sound feeds r w) : InOrder w where
  wanted n free := by
    rw [h.shows.chain]
    exact h.wanted n ((h.shows.holder n).symm.trans free)
  order n := by
    rw [h.shows.chain]
    exact h.order n
  queued t := by
    simp only [h.shows.holds.queued_iff, h.shows.chain]
  runs op fit := by
    obtain ⟨k, r', ran, shows, step⟩ := h.shows.run fit
    refine ⟨k, ran, fun n t taken => ?_⟩
    rw [takers_eq h.shows shows] at taken
    obtain ⟨held, last⟩ := placed step taken
    refine ⟨(shows.holder n).trans held, feeds n, shows.feeds n, ?_⟩
    rw [shows.chain, h.shows.chain]
    exact last
  promotes n t rest first := by
    rw [h.shows.chain] at first
    obtain ⟨k, r', ran, shows, step⟩ := h.shows.handOver n
    have law := conserved step n (h.wanted n)
    cases step with
    | freed empty =>
      rw [empty] at first
      cases first
    | promoted first' =>
      cases first.symm.trans first'
      refine ⟨k, ran, (shows.holder n).trans ?_, ?_, feeds n, shows.feeds n, ?_⟩
      · simp [Roster.holder_grant]
      · rw [shows.chain]
        simp
      · rw [shows.chain, h.shows.chain]
        simp

/-- Whatever the nests and the order of operations, resources are free or owned as they should be.
When tasks keep to one nest and come back to main queues only as holders, a task that was submitted
to a nest is in a main queue only while it is the holder, and then it is the only one. -/
theorem resources_are_owned_by_their_holders (p : Plan) :
    (∀ w, Run (fun _ _ => True) (boot p) w → InOrder w) ∧
      ∀ w, Run Disciplined (boot p) w → ∀ n t i, t ∈ w.submitted n →
        t ∈ w.kernel.chain (.main i) →
          w.kernel.holder n = some t ∧ (w.kernel.chain (.main i)).count t = 1 ∧
          ∀ u j, u ∈ w.submitted n → u ∈ w.kernel.chain (.main j) → u = t ∧ j = i := by
  obtain ⟨feeds, start⟩ := boot_sound p
  constructor
  · intro w run
    obtain ⟨r, sound⟩ := run.sound start
    exact sound.inOrder
  · intro w run n t i mem queued
    have nobody : Exclusive ⟨fun _ => [], fun _ => none⟩ (boot p) :=
      ⟨fun {_ _ _} mem => absurd mem List.not_mem_nil,
        fun {_ _ _} mem => absurd mem List.not_mem_nil⟩
    obtain ⟨r, sound, only⟩ := run.exclusive start nobody
    have chain := sound.shows.chain
    rw [chain] at queued
    have held := only.own mem queued
    refine ⟨(sound.shows.holder n).trans held, ?_, fun u j mem' queued' => ?_⟩
    · rw [chain]
      exact List.count_eq_one_of_mem (sound.shows.holds.nodup _) queued
    · rw [chain] at queued'
      cases held.symm.trans (only.own mem' queued')
      have same := sound.shows.holds.apart queued' queued
      injection same with same
      exact ⟨rfl, same⟩

def next (w : NestWorld) (op : NestOp) : NestWorld := w.after op (Exec.final op.run w.kernel)

theorem step_next {rule : NestWorld → NestOp → Prop} (h : InOrder w) (fit : op.Fit w.kernel)
    (allowed : rule w op) : Step rule w (w.next op) := by
  obtain ⟨k, ran, -⟩ := h.runs op fit
  rw [next, Exec.final_ok ran]
  exact .op fit allowed ran

/-- Two nests feed one main queue. The first task of one nest lets go while the second waits. -/
theorem second_task_gets_the_resource :
    let p : Plan := { nests := [0, 0], tasks := [some 0, some 0, some 0] }
    let asked := (((boot p).next (.submit (.shared 0) (.user 0))).next
      (.submit (.shared 0) (.user 1))).next (.submit (.shared 1) (.user 2))
    let w := (asked.next (.pop 0)).next (.handOver (.shared 0))
    Run Disciplined (boot p) w ∧ w.granted (.shared 0) = [.user 0, .user 1] ∧
      w.kernel.chain (.waiting (.shared 0)) = [] ∧
      w.kernel.chain (.main 0) = [.user 2, .user 1] ∧
      w.kernel.holder (.shared 0) = some (.user 1) := by
  intro p asked w
  have anything : ∀ {v w : NestWorld}, Run Disciplined v w → Run (fun _ _ => True) v w := by
    intro v w run
    refine Relation.ReflTransGen.mono ?_ _ _ run
    rintro _ _ ⟨fit, -, ran⟩
    exact .op fit trivial ran
  obtain ⟨orderly, owned⟩ := resources_are_owned_by_their_holders p
  have extend : ∀ {v : NestWorld} (op : NestOp), Run Disciplined (boot p) v → op.Fit v.kernel →
      Disciplined v op → Run Disciplined (boot p) (v.next op) := fun _ run fit allowed =>
    run.tail (step_next (orderly _ (anything run)) fit allowed)
  have fresh : ∀ {v : NestWorld} {op : NestOp} {t : TaskId} {n m : NestId},
      t ∈ (v.next op).submitted n → (t ∈ v.submitted n → n = m) → (op = .submit n t → n = m) →
        n = m := fun mem old new => (mem_submitted_after.mp mem).elim old new
  have run₁ := extend (.submit (.shared 0) (.user 0)) .refl (by decide +kernel)
    fun n mem => absurd mem List.not_mem_nil
  have run₂ := extend (.submit (.shared 0) (.user 1)) run₁ (by decide +kernel)
    fun n mem => fresh mem (fun old => absurd old List.not_mem_nil) (by simp)
  have run₃ := extend (.submit (.shared 1) (.user 2)) run₂ (by decide +kernel)
    fun n mem => fresh mem (fun mem => fresh mem (fun old => absurd old List.not_mem_nil) (by simp))
      (by simp)
  have run₄ := extend (.pop 0) run₃ trivial trivial
  have away : Disciplined (asked.next (.pop 0)) (.handOver (.shared 0)) := by
    intro t held i there
    have holder : (asked.next (.pop 0)).kernel.holder (.shared 0) = some (.user 0) := by
      decide +kernel
    cases held.symm.trans holder
    have idle : (asked.next (.pop 0)).kernel.isQueued (.user 0) = false := by decide +kernel
    have queued := ((orderly _ (anything run₄)).queued (.user 0)).mpr ⟨_, there⟩
    exact absurd queued (by rw [idle]; exact Bool.false_ne_true)
  have run₅ := extend (.handOver (.shared 0)) run₄ trivial away
  have last : w.kernel.chain (.main 0) = [.user 2, .user 1] := by decide +kernel
  have asked₁ : TaskId.user 1 ∈ w.submitted (.shared 0) := by decide +kernel
  refine ⟨run₅, by decide +kernel, by decide +kernel, last, ?_⟩
  exact (owned w run₅ (.shared 0) (.user 1) 0 asked₁ (by rw [last]; decide)).1

end NestWorld

end CoopKernel
