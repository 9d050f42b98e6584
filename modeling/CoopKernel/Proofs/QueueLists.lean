import CoopKernel.Proofs.TaskChain

/-!
# Queues as lists

One relation ties the whole kernel to one list a queue: links, heads, tails and
flags all say the same thing, for every task and every queue at once. Linking
a task in and taking one out are then changes of one of the lists, whatever the
other queues hold.
-/

namespace CoopKernel.Kernel

structure Holds (k : Kernel) (lists : QueueId → List TaskId) : Prop where
  linked : ∀ q, Segment k.tasks none (k.queues.get q).head (lists q)
  tail : ∀ q, (k.queues.get q).tail = (lists q).getLast?
  nodup : ∀ q, (lists q).Nodup
  apart : ∀ {q r t}, t ∈ lists q → t ∈ lists r → q = r
  queued_iff : ∀ t, k.isQueued t = true ↔ ∃ q, t ∈ lists q
  loose : ∀ t, k.isQueued t = false → (k.tasks.get t).next = none
  bound : ∀ t, k.isQueued t = true → k.isBound t = true
  stored : ∀ t, k.isQueued t = true → Numbered.number t < k.tasks.size

/-- Only links, flags, heads, tails and the count of disables may have changed, and the
trace has grown by `events`, newest first. -/
structure Relinked (k k' : Kernel) (events : List Event) : Prop where
  enabled : k'.cpu.enabled = k.cpu.enabled
  sleeps : k'.cpu.sleeps = k.cpu.sleeps
  nests : k'.nests = k.nests
  soft : k'.soft = k.soft
  trace : k'.trace = events ++ k.trace
  worker : ∀ t, (k'.tasks.get t).worker = (k.tasks.get t).worker
  size : k.tasks.size ≤ k'.tasks.size

variable {k k' : Kernel} {lists : QueueId → List TaskId} {q : QueueId} {t : TaskId}
variable {events : List Event}

theorem Relinked.isBound (h : k.Relinked k' events) (t : TaskId) : k'.isBound t = k.isBound t := by
  rw [Kernel.isBound, h.worker t, Kernel.isBound]

/-- A section puts the flag back, since its body leaves it clear. -/
theorem Relinked.section (h : k.disable.Relinked k' events) :
    k.Relinked (k'.restore k.cpu.enabled) events where
  enabled := by
    have off : k'.cpu.enabled = false := h.enabled
    simp [restore, Cpu.enabled_restore, off]
  sleeps := by
    have same : k'.cpu.sleeps = k.cpu.sleeps := h.sleeps
    cases hk : k.cpu.enabled <;> simpa [restore, Cpu.restore, Cpu.enable] using same
  nests := h.nests
  soft := h.soft
  trace := h.trace
  worker := h.worker
  size := h.size

theorem expose_of_disabled (off : k.cpu.enabled = false) (c : Cell) : k.expose c = k := by
  simp [expose, off]

theorem Holds.congr (h : k.Holds lists) (tasks : k'.tasks = k.tasks)
    (queues : k'.queues = k.queues) : k'.Holds lists := by
  obtain ⟨linked, tail, nodup, apart, queued_iff, loose, bound, stored⟩ := h
  constructor <;> simp only [isQueued, isBound, tasks, queues] at * <;> assumption

theorem Holds.queued (h : k.Holds lists) (mem : t ∈ lists q) : k.isQueued t = true :=
  (h.queued_iff t).mpr ⟨q, mem⟩

theorem Holds.not_mem (h : k.Holds lists) (idle : k.isQueued t = false) (q : QueueId) :
    t ∉ lists q := by
  intro mem
  rw [h.queued mem] at idle
  cases idle

theorem Holds.head (h : k.Holds lists) (q : QueueId) :
    (k.queues.get q).head = (lists q).head? :=
  segment_start (h.linked q)

theorem Holds.tail_mem (h : k.Holds lists) (last : (k.queues.get q).tail = some t) :
    t ∈ lists q := List.mem_of_getLast? ((h.tail q).symm.trans last)

/-- The bound of the walk never cuts a queue off. -/
theorem Holds.chain (h : k.Holds lists) (q : QueueId) : k.chain q = lists q := by
  refine segment_walk (h.linked q) (length_le_of_numbers (h.nodup q) ?_)
  intro t mem
  exact h.stored t (h.queued mem)

/-- The cells of every task after one is linked in. -/
theorem tasks_link (off : k.cpu.enabled = false) (u : TaskId) :
    (k.link q t).tasks.get u =
      { worker := (k.tasks.get u).worker
        next := if (k.queues.get q).tail = some u then some t
          else if u = t then none else (k.tasks.get u).next
        queued := if u = t then true else (k.tasks.get u).queued } := by
  cases hq : (k.queues.get q).tail with
  | none =>
    simp only [link, putNext, putQueued, putHead, putTail, note, expose_of_disabled, off, hq,
      Bank.get_modify]
    by_cases hu : u = t <;> simp [hu]
  | some last =>
    simp only [link, putNext, putQueued, putTail, note, expose_of_disabled, off, hq,
      Bank.get_modify, Option.some.injEq]
    by_cases hl : last = u
    · subst hl
      by_cases hu : last = t <;> simp [hu]
    · by_cases hu : u = t
      · subst hu
        simp [hl, Ne.symm hl]
      · simp [hu, hl, Ne.symm hl]

theorem queues_link (off : k.cpu.enabled = false) (r : QueueId) :
    (k.link q t).queues.get r =
      if r = q then
        { head := if (k.queues.get q).tail.isNone then some t else (k.queues.get q).head
          tail := some t }
      else k.queues.get r := by
  cases hq : (k.queues.get q).tail with
  | none =>
    simp only [link, putNext, putQueued, putHead, putTail, note, expose_of_disabled, off, hq,
      Bank.get_modify]
    by_cases hr : r = q <;> simp [hr]
  | some last =>
    simp only [link, putNext, putQueued, putTail, note, expose_of_disabled, off, hq,
      Bank.get_modify]
    by_cases hr : r = q <;> simp [hr]

theorem size_link (off : k.cpu.enabled = false) :
    k.tasks.size ≤ (k.link q t).tasks.size ∧ Numbered.number t < (k.link q t).tasks.size := by
  cases hq : (k.queues.get q).tail with
  | none =>
    simp only [link, putNext, putQueued, putHead, putTail, note, expose_of_disabled, off, hq,
      Bank.modify, Bank.size_set]
    omega
  | some last =>
    simp only [link, putNext, putQueued, putTail, note, expose_of_disabled, off, hq,
      Bank.modify, Bank.size_set]
    omega

theorem relinked_link (off : k.cpu.enabled = false) :
    k.Relinked (k.link q t) [.enqueued q t] := by
  have worker : ∀ u, ((k.link q t).tasks.get u).worker = (k.tasks.get u).worker := by
    intro u
    rw [tasks_link off]
  have size := (size_link (q := q) (t := t) off).1
  cases hq : (k.queues.get q).tail with
  | none =>
    constructor
    case worker => exact worker
    case size => exact size
    all_goals
      simp [link, putNext, putQueued, putHead, putTail, note, expose_of_disabled, off, hq]
  | some last =>
    constructor
    case worker => exact worker
    case size => exact size
    all_goals simp [link, putNext, putQueued, putTail, note, expose_of_disabled, off, hq]

theorem isQueued_link (off : k.cpu.enabled = false) (u : TaskId) :
    (k.link q t).isQueued u = if u = t then true else k.isQueued u := by
  rw [isQueued, tasks_link off, isQueued]

theorem mem_append {r : QueueId} {u : TaskId} :
    u ∈ Function.update lists q (lists q ++ [t]) r ↔ u ∈ lists r ∨ (u = t ∧ r = q) := by
  by_cases hr : r = q
  · subst hr
    simp
  · simp [hr]

/-- Of all links only that of the last task is set, and that of the new task is cleared. -/
theorem Holds.next_link (h : k.Holds lists) (off : k.cpu.enabled = false)
    (idle : k.isQueued t = false) {r : QueueId} {u : TaskId} (mem : u ∈ lists r)
    (inner : (k.queues.get q).tail ≠ some u) :
    ((k.link q t).tasks.get u).next = (k.tasks.get u).next := by
  have other : u ≠ t := fun same => h.not_mem idle r (same ▸ mem)
  rw [tasks_link off]
  simp [inner, other]

theorem Holds.next_link_self (h : k.Holds lists) (off : k.cpu.enabled = false)
    (idle : k.isQueued t = false) : ((k.link q t).tasks.get t).next = none := by
  have other : (k.queues.get q).tail ≠ some t := fun last => h.not_mem idle q (h.tail_mem last)
  rw [tasks_link off]
  simp [other]

theorem Holds.linked_link_self (h : k.Holds lists) (off : k.cpu.enabled = false)
    (idle : k.isQueued t = false) :
    Segment (k.link q t).tasks none ((k.link q t).queues.get q).head (lists q ++ [t]) := by
  have ending := h.next_link_self (q := q) off idle
  rw [queues_link off, if_pos rfl]
  by_cases empty : lists q = []
  · have no_tail : (k.queues.get q).tail = none := by rw [h.tail q, empty]; rfl
    simp only [empty, no_tail, Option.isNone_none, if_true, List.nil_append]
    exact ⟨rfl, ending⟩
  · have some_tail : (k.queues.get q).tail.isNone = false := by
      rw [h.tail q, Option.isNone_eq_false_iff, List.getLast?_isSome]
      exact empty
    simp only [some_tail, Bool.false_eq_true, if_false]
    refine segment_join (h.linked q) (h.nodup q) empty ?_ ending ?_
    · intro last is_last
      rw [tasks_link off]
      simp [(h.tail q).trans is_last]
    · intro u mem inner
      exact h.next_link off idle mem (by rwa [h.tail q])

theorem Holds.linked_link_other (h : k.Holds lists) (off : k.cpu.enabled = false)
    (idle : k.isQueued t = false) {r : QueueId} (other : r ≠ q) :
    Segment (k.link q t).tasks none ((k.link q t).queues.get r).head (lists r) := by
  rw [queues_link off, if_neg other]
  refine segment_congr (h.linked r) fun u mem => h.next_link off idle mem fun last => ?_
  exact other (h.apart mem (h.tail_mem last))

theorem Holds.tail_link (h : k.Holds lists) (off : k.cpu.enabled = false) (r : QueueId) :
    ((k.link q t).queues.get r).tail =
      (Function.update lists q (lists q ++ [t]) r).getLast? := by
  rw [queues_link off]
  by_cases hr : r = q
  · subst hr
    simp
  · rw [if_neg hr, Function.update_of_ne hr, h.tail r]

theorem Holds.nodup_append (h : k.Holds lists) (idle : k.isQueued t = false) (r : QueueId) :
    (Function.update lists q (lists q ++ [t]) r).Nodup := by
  have joined : (lists q ++ [t]).Nodup := by
    refine List.nodup_append.mpr ⟨h.nodup q, List.nodup_singleton t, ?_⟩
    rintro u mem _ new rfl
    exact h.not_mem idle q (List.mem_singleton.mp new ▸ mem)
  exact (Function.forall_update_iff lists fun _ list => list.Nodup).mpr
    ⟨joined, fun r _ => h.nodup r⟩ r

theorem Holds.apart_append (h : k.Holds lists) (idle : k.isQueued t = false) {r s : QueueId}
    {u : TaskId} (hr : u ∈ Function.update lists q (lists q ++ [t]) r)
    (hs : u ∈ Function.update lists q (lists q ++ [t]) s) : r = s := by
  rcases mem_append.mp hr with old | ⟨rfl, rfl⟩
  · rcases mem_append.mp hs with old' | ⟨rfl, rfl⟩
    · exact h.apart old old'
    · exact absurd old (h.not_mem idle r)
  · rcases mem_append.mp hs with old' | ⟨_, rfl⟩
    · exact absurd old' (h.not_mem idle s)
    · rfl

theorem Holds.queued_link_iff (h : k.Holds lists) (off : k.cpu.enabled = false) (u : TaskId) :
    (k.link q t).isQueued u = true ↔
      ∃ r, u ∈ Function.update lists q (lists q ++ [t]) r := by
  simp only [mem_append, exists_or, exists_and_left, exists_eq, and_true]
  rw [isQueued_link off, ← h.queued_iff u]
  by_cases hu : u = t <;> simp [hu]

theorem Holds.loose_link (h : k.Holds lists) (off : k.cpu.enabled = false) {u : TaskId}
    (free : (k.link q t).isQueued u = false) : ((k.link q t).tasks.get u).next = none := by
  rw [isQueued_link off] at free
  have other : u ≠ t := by rintro rfl; simp at free
  rw [if_neg other] at free
  have inner : (k.queues.get q).tail ≠ some u := fun last => h.not_mem free q (h.tail_mem last)
  rw [tasks_link off]
  simp [inner, other, h.loose u free]

/-- What was queued stays so, and one task is new. -/
theorem queued_of_link (off : k.cpu.enabled = false) {u : TaskId}
    (queued : (k.link q t).isQueued u = true) : u = t ∨ k.isQueued u = true := by
  rw [isQueued_link off] at queued
  by_cases hu : u = t
  · exact Or.inl hu
  · exact Or.inr (by simpa [hu] using queued)

theorem Holds.bound_link (h : k.Holds lists) (off : k.cpu.enabled = false)
    (bound : k.isBound t = true) {u : TaskId} (queued : (k.link q t).isQueued u = true) :
    (k.link q t).isBound u = true := by
  rw [(relinked_link off).isBound]
  obtain rfl | old := queued_of_link off queued
  · exact bound
  · exact h.bound u old

theorem Holds.stored_link (h : k.Holds lists) (off : k.cpu.enabled = false) {u : TaskId}
    (queued : (k.link q t).isQueued u = true) :
    Numbered.number u < (k.link q t).tasks.size := by
  obtain rfl | old := queued_of_link off queued
  · exact (size_link off).2
  · exact (h.stored u old).trans_le (size_link off).1

/-- The task joins one list, and all others stay. -/
theorem Holds.link (h : k.Holds lists) (off : k.cpu.enabled = false)
    (idle : k.isQueued t = false) (bound : k.isBound t = true) :
    (k.link q t).Holds (Function.update lists q (lists q ++ [t])) where
  linked r := by
    by_cases hr : r = q
    · subst hr
      rw [Function.update_self]
      exact h.linked_link_self off idle
    · rw [Function.update_of_ne hr]
      exact h.linked_link_other off idle hr
  tail := h.tail_link off
  nodup := h.nodup_append idle
  apart := h.apart_append idle
  queued_iff := h.queued_link_iff off
  loose _ := h.loose_link off
  bound _ := h.bound_link off bound
  stored _ := h.stored_link off

theorem unlink_fst : (k.unlink q).1 = (k.queues.get q).head := by
  cases hq : (k.queues.get q).head <;> simp [unlink, hq]

theorem tasks_unlink (off : k.cpu.enabled = false) (first : (k.queues.get q).head = some t)
    (u : TaskId) :
    (k.unlink q).2.tasks.get u =
      { worker := (k.tasks.get u).worker
        next := if u = t then none else (k.tasks.get u).next
        queued := if u = t then false else (k.tasks.get u).queued } := by
  cases hn : (k.tasks.get t).next with
  | none =>
    simp only [unlink, first, hn, putNext, putQueued, putHead, putTail, note,
      expose_of_disabled, off, Option.isNone_none, if_true, Bank.get_modify]
    by_cases hu : u = t <;> simp [hu]
  | some next =>
    simp only [unlink, first, hn, putNext, putQueued, putHead, note, expose_of_disabled, off,
      Option.isNone_some, Bool.false_eq_true, if_false, Bank.get_modify]
    by_cases hu : u = t <;> simp [hu]

theorem queues_unlink (off : k.cpu.enabled = false) (first : (k.queues.get q).head = some t)
    (r : QueueId) :
    (k.unlink q).2.queues.get r =
      if r = q then
        { head := (k.tasks.get t).next
          tail := if (k.tasks.get t).next.isNone then none else (k.queues.get q).tail }
      else k.queues.get r := by
  cases hn : (k.tasks.get t).next with
  | none =>
    simp only [unlink, first, hn, putNext, putQueued, putHead, putTail, note,
      expose_of_disabled, off, Option.isNone_none, if_true, Bank.get_modify]
    by_cases hr : r = q <;> simp [hr]
  | some next =>
    simp only [unlink, first, hn, putNext, putQueued, putHead, note, expose_of_disabled, off,
      Option.isNone_some, Bool.false_eq_true, if_false, Bank.get_modify]

theorem relinked_unlink (off : k.cpu.enabled = false) (first : (k.queues.get q).head = some t) :
    k.Relinked (k.unlink q).2 [.dequeued q t] := by
  have worker : ∀ u, ((k.unlink q).2.tasks.get u).worker = (k.tasks.get u).worker := by
    intro u
    rw [tasks_unlink off first]
  have size : k.tasks.size ≤ (k.unlink q).2.tasks.size := by
    cases hn : (k.tasks.get t).next <;>
      simp only [unlink, first, hn, putNext, putQueued, putHead, putTail, note,
        expose_of_disabled, off, Option.isNone_none, Option.isNone_some, Bool.false_eq_true,
        if_true, if_false, Bank.modify, Bank.size_set] <;> omega
  cases hn : (k.tasks.get t).next with
  | none =>
    constructor
    case worker => exact worker
    case size => exact size
    all_goals
      simp [unlink, first, hn, putNext, putQueued, putHead, putTail, note, expose_of_disabled,
        off]
  | some next =>
    constructor
    case worker => exact worker
    case size => exact size
    all_goals
      simp [unlink, first, hn, putNext, putQueued, putHead, note, expose_of_disabled, off]

theorem isQueued_unlink (off : k.cpu.enabled = false) (first : (k.queues.get q).head = some t)
    (u : TaskId) : (k.unlink q).2.isQueued u = if u = t then false else k.isQueued u := by
  rw [isQueued, tasks_unlink off first, isQueued]

theorem mem_remove {rest : List TaskId} (split : lists q = t :: rest) (nodup : (lists q).Nodup)
    (apart : ∀ {q r t}, t ∈ lists q → t ∈ lists r → q = r) {r : QueueId} {u : TaskId} :
    u ∈ Function.update lists q rest r ↔ u ∈ lists r ∧ u ≠ t := by
  have first : t ∈ lists q := split ▸ List.mem_cons_self
  by_cases hr : r = q
  · subst hr
    rw [split] at nodup
    have hout := (List.nodup_cons.mp nodup).1
    rw [Function.update_self, split, List.mem_cons]
    constructor
    · intro hu
      exact ⟨Or.inr hu, by rintro rfl; exact hout hu⟩
    · rintro ⟨hu | hu, hne⟩
      · exact absurd hu hne
      · exact hu
  · rw [Function.update_of_ne hr]
    exact ⟨fun hu => ⟨hu, by rintro rfl; exact hr (apart hu first)⟩, And.left⟩

theorem next_unlink (off : k.cpu.enabled = false) (first : (k.queues.get q).head = some t)
    {u : TaskId} (other : u ≠ t) : ((k.unlink q).2.tasks.get u).next = (k.tasks.get u).next := by
  rw [tasks_unlink off first]
  simp [other]

theorem queued_of_unlink (off : k.cpu.enabled = false) (first : (k.queues.get q).head = some t)
    {u : TaskId} (queued : (k.unlink q).2.isQueued u = true) : u ≠ t ∧ k.isQueued u = true := by
  rw [isQueued_unlink off first] at queued
  by_cases hu : u = t
  · simp [hu] at queued
  · exact ⟨hu, by simpa [hu] using queued⟩

theorem Holds.head_cons (h : k.Holds lists) {rest : List TaskId} (split : lists q = t :: rest) :
    (k.queues.get q).head = some t := by
  rw [h.head q, split]
  rfl

theorem Holds.mem_rest (h : k.Holds lists) {rest : List TaskId} (split : lists q = t :: rest)
    {r : QueueId} {u : TaskId} :
    u ∈ Function.update lists q rest r ↔ u ∈ lists r ∧ u ≠ t :=
  mem_remove split (h.nodup q) h.apart

theorem Holds.linked_rest (h : k.Holds lists) {rest : List TaskId} (split : lists q = t :: rest) :
    Segment k.tasks none (k.tasks.get t).next rest := by
  have linked := h.linked q
  rw [split] at linked
  exact linked.2

/-- The tasks that stay keep their links. -/
theorem Holds.linked_unlink (h : k.Holds lists) (off : k.cpu.enabled = false)
    {rest : List TaskId} (split : lists q = t :: rest) (r : QueueId) :
    Segment (k.unlink q).2.tasks none ((k.unlink q).2.queues.get r).head
      (Function.update lists q rest r) := by
  have first := h.head_cons split
  have before : Segment k.tasks none ((k.unlink q).2.queues.get r).head
      (Function.update lists q rest r) := by
    rw [queues_unlink off first]
    by_cases hr : r = q
    · subst hr
      rw [Function.update_self, if_pos rfl]
      exact h.linked_rest split
    · rw [Function.update_of_ne hr, if_neg hr]
      exact h.linked r
  exact segment_congr before fun u mem => next_unlink off first ((h.mem_rest split).mp mem).2

theorem Holds.tail_unlink (h : k.Holds lists) (off : k.cpu.enabled = false)
    {rest : List TaskId} (split : lists q = t :: rest) (r : QueueId) :
    ((k.unlink q).2.queues.get r).tail = (Function.update lists q rest r).getLast? := by
  rw [queues_unlink off (h.head_cons split)]
  by_cases hr : r = q
  · subst hr
    rw [Function.update_self, if_pos rfl, segment_start (h.linked_rest split)]
    cases rest with
    | nil => rfl
    | cons u rest =>
      simp only [List.head?_cons, Option.isNone_some, Bool.false_eq_true, if_false]
      rw [h.tail r, split, List.getLast?_cons_cons]
  · rw [Function.update_of_ne hr, if_neg hr]
    exact h.tail r

theorem Holds.nodup_rest (h : k.Holds lists) {rest : List TaskId} (split : lists q = t :: rest)
    (r : QueueId) : (Function.update lists q rest r).Nodup := by
  have nodup := h.nodup q
  rw [split] at nodup
  exact (Function.forall_update_iff lists fun _ list => list.Nodup).mpr
    ⟨(List.nodup_cons.mp nodup).2, fun r _ => h.nodup r⟩ r

theorem Holds.queued_unlink_iff (h : k.Holds lists) (off : k.cpu.enabled = false)
    {rest : List TaskId} (split : lists q = t :: rest) (u : TaskId) :
    (k.unlink q).2.isQueued u = true ↔ ∃ r, u ∈ Function.update lists q rest r := by
  simp only [h.mem_rest split, exists_and_right]
  rw [isQueued_unlink off (h.head_cons split), ← h.queued_iff u]
  by_cases hu : u = t <;> simp [hu]

theorem Holds.loose_unlink (h : k.Holds lists) (off : k.cpu.enabled = false)
    (first : (k.queues.get q).head = some t) {u : TaskId}
    (free : (k.unlink q).2.isQueued u = false) : ((k.unlink q).2.tasks.get u).next = none := by
  by_cases hu : u = t
  · rw [tasks_unlink off first]
    simp [hu]
  · rw [isQueued_unlink off first, if_neg hu] at free
    rw [next_unlink off first hu]
    exact h.loose u free

/-- The first task leaves its list, and all others stay. -/
theorem Holds.unlink (h : k.Holds lists) (off : k.cpu.enabled = false) {rest : List TaskId}
    (split : lists q = t :: rest) : (k.unlink q).2.Holds (Function.update lists q rest) where
  linked := h.linked_unlink off split
  tail := h.tail_unlink off split
  nodup := h.nodup_rest split
  apart hr hs := h.apart ((h.mem_rest split).mp hr).1 ((h.mem_rest split).mp hs).1
  queued_iff := h.queued_unlink_iff off split
  loose _ := h.loose_unlink off (h.head_cons split)
  bound u queued := by
    have first := h.head_cons split
    rw [(relinked_unlink off first).isBound]
    exact h.bound u (queued_of_unlink off first queued).2
  stored u queued := by
    have first := h.head_cons split
    have old := h.stored u (queued_of_unlink off first queued).2
    exact old.trans_le (relinked_unlink off first).size

end CoopKernel.Kernel
