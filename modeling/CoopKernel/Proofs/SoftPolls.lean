import CoopKernel.Machine.Boot
import CoopKernel.Proofs.MachineRuns
import CoopKernel.Proofs.SoftRuns

/-!
# Polling soft interrupts

A poll dispatches pending ids until none is left. Its handlers may do anything,
raise ids and poll again among them; the dispatches of such inner polls are not
its own. A poll ends in one of a few ways, and each can be told from where it
stands after its own dispatches.
-/

namespace CoopKernel.Machine

open Exec

variable {perform : List Action → Exec Machine Unit}

/-- The dispatches of one poll in turn: each takes the lowest pending id, and its handler
returns. -/
inductive Serves (perform : List Action → Exec Machine Unit) :
    Machine → List Nat → Machine → Prop where
  | done {m : Machine} : Serves perform m [] m
  | next {m m₁ m' : Machine} {id script : Nat} {ids : List Nat}
    (lowest : m.kernel.soft.lowest? = some id)
    (bound : m.kernel.soft.handlers.get id = some script)
    (ran : runScript perform script (m.dispatched id script) = .ok () m₁)
    (rest : Serves perform (m₁.modifyKernel Kernel.disable) ids m') :
    Serves perform m (id :: ids) m'

/-- How a poll is stopped that has so many rounds left: it has none, the lowest pending id has no
handler, or its handler is stopped itself. -/
inductive Breaks (perform : List Action → Exec Machine Unit) (m : Machine) :
    Nat → Stop → Machine → Prop where
  | hung : Breaks perform m 0 .hung m
  | unhandled {left id : Nat} (lowest : m.kernel.soft.lowest? = some id)
    (unbound : m.kernel.soft.handlers.get id = none) :
    Breaks perform m (left + 1) (.fault (.noHandler id))
      (m.modifyKernel fun k => k.takeLowest.2.enable)
  | handler {left id script : Nat} {e : Stop} {m' : Machine}
    (lowest : m.kernel.soft.lowest? = some id)
    (bound : m.kernel.soft.handlers.get id = some script)
    (ran : runScript perform script (m.dispatched id script) = .error e m') :
    Breaks perform m (left + 1) e m'

variable {m m' m₁ : Machine} {id script n rounds served : Nat} {ids : List Nat} {e : Stop}

theorem Serves.disabled (h : Serves perform m ids m') (off : m.kernel.cpu.enabled = false) :
    m'.kernel.cpu.enabled = false := by
  induction h with
  | done => exact off
  | next _ _ _ _ ih => exact ih rfl

/-- A round whose handler returns is followed by the rounds that are left. -/
theorem serve_next (lowest : m.kernel.soft.lowest? = some id)
    (bound : m.kernel.soft.handlers.get id = some script)
    (ran : runScript perform script (m.dispatched id script) = .ok () m₁) :
    serve perform (rounds + 1) served m =
      serve perform rounds (served + 1) (m₁.modifyKernel Kernel.disable) := by
  rw [serve_handled rounds served lowest bound, bind_ok ran, modify_bind]

theorem serve_stopped (lowest : m.kernel.soft.lowest? = some id)
    (bound : m.kernel.soft.handlers.get id = some script)
    (ran : runScript perform script (m.dispatched id script) = .error e m₁) :
    serve perform (rounds + 1) served m = .error e m₁ := by
  rw [serve_handled rounds served lowest bound, bind_error ran]

/-- Serving is dispatching, and then it ends or is stopped. -/
theorem serve_of_serves (h : Serves perform m ids m') (few : ids.length ≤ rounds) :
    serve perform rounds served m =
      serve perform (rounds - ids.length) (served + ids.length) m' := by
  induction h generalizing rounds served with
  | done => rfl
  | @next m m₁ m' id script ids lowest bound ran _ ih =>
    obtain ⟨left, rfl⟩ : ∃ left, rounds = left + 1 := by
      cases rounds with
      | zero => simp at few
      | succ left => exact ⟨left, rfl⟩
    have fewer : ids.length ≤ left := by simpa using few
    rw [serve_next lowest bound ran, ih fewer, List.length_cons]
    congr 1 <;> omega

variable (perform) in
/-- By induction on the rounds: either all is served, or something stops it. -/
theorem serves_to_end (rounds : Nat) (m : Machine) :
    ∃ ids last, Serves perform m ids last ∧ ids.length ≤ rounds ∧
      (ids.length < rounds ∧ last.kernel.soft.lowest? = none ∨
        ∃ e m', Breaks perform last (rounds - ids.length) e m') := by
  induction rounds generalizing m with
  | zero => exact ⟨[], m, .done, le_rfl, Or.inr ⟨_, _, .hung⟩⟩
  | succ rounds ih =>
    cases lowest : m.kernel.soft.lowest? with
    | none => exact ⟨[], m, .done, Nat.zero_le _, Or.inl ⟨Nat.succ_pos _, lowest⟩⟩
    | some id =>
      cases bound : m.kernel.soft.handlers.get id with
      | none => exact ⟨[], m, .done, Nat.zero_le _, Or.inr ⟨_, _, .unhandled lowest bound⟩⟩
      | some script =>
        cases ran : runScript perform script (m.dispatched id script) with
        | error e m₁ =>
          exact ⟨[], m, .done, Nat.zero_le _, Or.inr ⟨_, _, .handler lowest bound ran⟩⟩
        | ok _ m₁ =>
          obtain ⟨ids, last, serves, few, ending⟩ := ih (m₁.modifyKernel Kernel.disable)
          refine ⟨id :: ids, last, .next lowest bound ran serves, Nat.succ_le_succ few, ?_⟩
          rw [List.length_cons, Nat.add_sub_add_right, Nat.add_lt_add_iff_right]
          exact ending

theorem serve_of_breaks (h : Breaks perform m rounds e m') :
    serve perform rounds served m = .error e m' := by
  cases h with
  | hung => rfl
  | unhandled lowest unbound => exact serve_unhandled _ _ lowest unbound
  | handler lowest bound ran => exact serve_stopped lowest bound ran

theorem serve_of_empty (some_left : 0 < rounds) (lowest : m.kernel.soft.lowest? = none) :
    serve perform rounds served m = .ok served m := by
  obtain ⟨left, rfl⟩ := Nat.exists_eq_succ_of_ne_zero some_left.ne'
  exact serve_none left served lowest

theorem serve_ok_iff : serve perform rounds 0 m = .ok n m' ↔
    ∃ ids, Serves perform m ids m' ∧ m'.kernel.soft.lowest? = none ∧ ids.length = n ∧
      n < rounds := by
  constructor
  · intro ran
    obtain ⟨ids, last, serves, few, ⟨less, empty⟩ | ⟨e, m₁, breaks⟩⟩ :=
      serves_to_end perform rounds m
    · rw [serve_of_serves serves few, serve_of_empty (by omega) empty] at ran
      cases ran
      exact ⟨ids, serves, empty, by omega, by omega⟩
    · rw [serve_of_serves serves few, serve_of_breaks breaks] at ran
      cases ran
  · rintro ⟨ids, serves, empty, rfl, less⟩
    rw [serve_of_serves serves less.le, serve_of_empty (by omega) empty, Nat.zero_add]

theorem serve_error_iff : serve perform rounds 0 m = .error e m' ↔
    ∃ ids last, Serves perform m ids last ∧ ids.length ≤ rounds ∧
      Breaks perform last (rounds - ids.length) e m' := by
  constructor
  · intro ran
    obtain ⟨ids, last, serves, few, ⟨less, empty⟩ | ⟨e, m₁, breaks⟩⟩ :=
      serves_to_end perform rounds m
    · rw [serve_of_serves serves few, serve_of_empty (by omega) empty] at ran
      cases ran
    · rw [serve_of_serves serves few, serve_of_breaks breaks] at ran
      cases ran
      exact ⟨ids, last, serves, few, breaks⟩
  · rintro ⟨ids, last, serves, few, breaks⟩
    rw [serve_of_serves serves few, serve_of_breaks breaks]

theorem pollSoft_enabled (rounds : Nat) (on : m.kernel.cpu.enabled = true) :
    pollSoft perform rounds m = .error (.fault .polledWithInterruptsEnabled) m := by
  rw [pollSoft, get_bind]
  exact congrFun (if_pos on) m

theorem pollSoft_disabled (rounds : Nat) (off : m.kernel.cpu.enabled = false) :
    pollSoft perform rounds m = serve perform rounds 0 m := by
  rw [pollSoft, get_bind, off]
  rfl

/-- The handlers of the pending ids return. They neither raise nor dispatch anything, and they
leave the table and the scripts as they are. -/
def Harmless (perform : List Action → Exec Machine Unit) (m : Machine) : Prop :=
  ∀ id ∈ m.kernel.soft.ids, ∃ script, m.kernel.soft.handlers.get id = some script ∧
    ∀ m₁ : Machine, m₁.scripts = m.scripts → ∃ m₂, runScript perform script m₁ = .ok () m₂ ∧
      m₁.kernel.Unraised m₂.kernel ∧
      m₂.kernel.soft.handlers = m₁.kernel.soft.handlers ∧ m₂.scripts = m₁.scripts

theorem dispatched_soft (script : Nat) (lowest : m.kernel.soft.lowest? = some id) :
    (m.dispatched id script).kernel.soft.ids = m.kernel.soft.ids.erase id ∧
      (m.dispatched id script).kernel.soft.handlers = m.kernel.soft.handlers := by
  have taken : m.kernel.takeLowest.2 =
      { m.kernel with soft := m.kernel.soft.clear id }.note (.served id) := by
    rw [Kernel.takeLowest, lowest]
  change m.kernel.takeLowest.2.soft.ids = _ ∧ m.kernel.takeLowest.2.soft.handlers = _
  rw [taken]
  exact ⟨SoftTable.ids_clear, rfl⟩

theorem Harmless.next (h : Harmless perform m) (lowest : m.kernel.soft.lowest? = some id) :
    ∃ script m₁, m.kernel.soft.handlers.get id = some script ∧
      runScript perform script (m.dispatched id script) = .ok () m₁ ∧
      (m₁.modifyKernel Kernel.disable).kernel.soft.ids = m.kernel.soft.ids.erase id ∧
      Harmless perform (m₁.modifyKernel Kernel.disable) := by
  obtain ⟨script, bound, returns⟩ := h id (SoftTable.lowest_some lowest).1
  obtain ⟨ids, handlers⟩ := dispatched_soft script lowest
  obtain ⟨m₁, ran, unraised, table, scripts⟩ := returns (m.dispatched id script) rfl
  have pending : m₁.kernel.soft.ids = m.kernel.soft.ids.erase id := by
    rw [SoftTable.ids, unraised.pending]
    exact ids
  refine ⟨script, m₁, bound, ran, pending, fun i mem => ?_⟩
  have old : i ∈ m.kernel.soft.ids := Finset.mem_of_mem_erase (pending ▸ mem)
  obtain ⟨script', bound', returns'⟩ := h i old
  refine ⟨script', ?_, fun m₂ same => returns' m₂ (same.trans scripts)⟩
  change m₁.kernel.soft.handlers.get i = _
  rw [table, handlers, bound']

/-- By induction on how many ids are pending: they are served in ascending order. -/
theorem Harmless.serves (h : Harmless perform m) :
    ∃ m', Serves perform m m.kernel.soft.ids.sort m' ∧ m'.kernel.soft.ids = ∅ := by
  induction count : m.kernel.soft.ids.card generalizing m with
  | zero =>
    have empty := Finset.card_eq_zero.mp count
    refine ⟨m, ?_, empty⟩
    rw [empty, Finset.sort_empty]
    exact .done
  | succ count' ih =>
    cases lowest : m.kernel.soft.lowest? with
    | none =>
      rw [SoftTable.lowest_none.mp lowest] at count
      cases count
    | some id =>
      obtain ⟨mem, least⟩ := SoftTable.lowest_some lowest
      obtain ⟨script, m₁, bound, ran, ids, harmless⟩ := h.next lowest
      have fewer : (m₁.modifyKernel Kernel.disable).kernel.soft.ids.card = count' := by
        rw [ids, Finset.card_erase_of_mem mem, count, Nat.add_sub_cancel]
      obtain ⟨m', serves, empty⟩ := ih harmless fewer
      rw [ids] at serves
      refine ⟨m', ?_, empty⟩
      rw [SoftHistory.sort_least mem least]
      exact .next lowest bound ran serves

/-- In every run each dispatch takes the lowest pending id, with its bit cleared, and runs its
handler with interrupts enabled; only the last dispatch of a run that is stopped may lack a handler.
Raises that found their bit clear and dispatches balance, and no bit outside the table is set. -/
structure Accountable (rounds depth : Nat) (m : Machine) : Prop where
  history : ∀ actions, ∃ last, m.kernel.Recounts last ∧
    match performAll rounds depth actions m with
    | .ok _ m' => m'.kernel = last
    | .error _ m' => m'.kernel = last ∨ last.Unhandled m'.kernel
  balance : ∀ actions, m.kernel.Balances (final (performAll rounds depth actions) m).kernel
  inside : (∀ id ∈ m.kernel.soft.ids, id < m.kernel.soft.slots) → ∀ actions,
    ∀ id ∈ (final (performAll rounds depth actions) m).kernel.soft.ids, id < m.kernel.soft.slots

theorem accountable (rounds depth : Nat) (m : Machine) : Accountable rounds depth m := by
  have walks actions := walks_performAll rounds depth actions m
  have halts : ∀ actions,
      m.kernel.Halts (fun _ => False) (final (performAll rounds depth actions) m).kernel :=
    fun actions => ((walks actions).final m.unreserved).kernel
  refine ⟨fun actions => ?_, fun actions => (halts actions).balances,
    fun bounded actions => ((halts actions).inside bounded).2⟩
  cases ran : performAll rounds depth actions m with
  | ok _ m' => exact ⟨m'.kernel, ((walks actions).ok m.unreserved ran).kernel.recounts, rfl⟩
  | error e m' => exact ((walks actions).error m.unreserved ran).kernel.recounts

/-- A poll returns when nothing is pending, with interrupts disabled and the number of its own
dispatches. It is stopped where it was called with interrupts enabled, or after its own dispatches.
When nothing is raised meanwhile, handlers run in ascending order of the pending ids, and when these
have handlers that return, the poll returns. -/
structure Drains (perform : List Action → Exec Machine Unit) (m : Machine) : Prop where
  returns : ∀ limit n m', pollSoft perform limit m = .ok n m' ↔ m.kernel.cpu.enabled = false ∧
    ∃ ids, Serves perform m ids m' ∧ m'.kernel.soft.pending = 0 ∧ ids.length = n ∧ n < limit
  disabled : ∀ limit n m', pollSoft perform limit m = .ok n m' → m'.kernel.cpu.enabled = false
  stops : ∀ limit e m', pollSoft perform limit m = .error e m' ↔
    m.kernel.cpu.enabled = true ∧ e = .fault .polledWithInterruptsEnabled ∧ m' = m ∨
    m.kernel.cpu.enabled = false ∧ ∃ ids last, Serves perform m ids last ∧ ids.length ≤ limit ∧
      Breaks perform last (limit - ids.length) e m'
  ascending : ∀ limit n m', pollSoft perform limit m = .ok n m' →
    ∃ es, m'.kernel.trace = es ++ m.kernel.trace ∧
      ((∀ id fresh, Event.raised id fresh ∉ es) →
        SoftHistory.handled es = m.kernel.soft.ids.sort)
  harmless : ∀ limit, m.kernel.cpu.enabled = false → Harmless perform m →
    m.kernel.soft.ids.card < limit →
      ∃ m', pollSoft perform limit m = .ok m.kernel.soft.ids.card m' ∧
        Serves perform m m.kernel.soft.ids.sort m'

theorem pollSoft_ok_iff {limit : Nat} : pollSoft perform limit m = .ok n m' ↔
    m.kernel.cpu.enabled = false ∧
      ∃ ids, Serves perform m ids m' ∧ m'.kernel.soft.pending = 0 ∧ ids.length = n ∧ n < limit := by
  cases flag : m.kernel.cpu.enabled with
  | true =>
    rw [pollSoft_enabled limit flag]
    simp
  | false =>
    rw [pollSoft_disabled limit flag, serve_ok_iff]
    simp only [SoftTable.lowest_none, SoftTable.ids_eq_empty, true_and]

theorem pollSoft_error_iff {limit : Nat} : pollSoft perform limit m = .error e m' ↔
    m.kernel.cpu.enabled = true ∧ e = .fault .polledWithInterruptsEnabled ∧ m' = m ∨
    m.kernel.cpu.enabled = false ∧ ∃ ids last, Serves perform m ids last ∧ ids.length ≤ limit ∧
      Breaks perform last (limit - ids.length) e m' := by
  cases flag : m.kernel.cpu.enabled with
  | true =>
    rw [pollSoft_enabled limit flag]
    simp [eq_comm]
  | false =>
    rw [pollSoft_disabled limit flag, serve_error_iff]
    simp

theorem drains (walks : ∀ list, Walks (fun _ => False) (perform list)) (m : Machine) :
    Drains perform m where
  returns limit n m' := pollSoft_ok_iff
  disabled limit n m' ran := by
    obtain ⟨off, ids, serves, -⟩ := pollSoft_ok_iff.mp ran
    exact serves.disabled off
  stops limit e m' := pollSoft_error_iff
  ascending limit n m' ran := by
    have steps := (walks_pollSoft (fun list _ => walks list) limit m).ok m.unreserved ran
    obtain ⟨-, es, split, history⟩ := steps.kernel.recounts
    obtain ⟨-, ids, -, empty, -⟩ := pollSoft_ok_iff.mp ran
    refine ⟨es, split, fun none_raised => ?_⟩
    have sorted := history.ascending none_raised
    rw [SoftTable.ids_eq_empty.mpr empty, Finset.sort_empty, List.append_nil] at sorted
    exact sorted
  harmless limit off harmless few := by
    obtain ⟨m', serves, empty⟩ := harmless.serves
    refine ⟨m', pollSoft_ok_iff.mpr ⟨off, _, serves, SoftTable.ids_eq_empty.mp empty, ?_, few⟩,
      serves⟩
    exact Finset.length_sort _

/-- Scripts may nest as they like and raise, bind, clear and poll whatever they want: no soft
interrupt is lost or served twice, the lowest goes first, and a poll leaves none behind. -/
theorem soft_interrupts_are_drained_by_priority (rounds depth : Nat) (m : Machine) :
    Accountable rounds depth m ∧ Drains (performAll rounds depth) m ∧
      ∀ list, (∀ id ∈ list, id < m.kernel.soft.slots) →
        ∃ k, List.forM list Kernel.raise m.kernel = .ok ⟨⟩ k ∧
          k.soft.ids = m.kernel.soft.ids ∪ list.toFinset :=
  ⟨accountable rounds depth m, drains (walks_performAll rounds depth) m, Kernel.raise_all⟩

/-- A handler raises a lower id that was served before: it is served again. Handlers that do
nothing serve what was raised out of order, and raised twice, in order and once. -/
theorem lower_id_is_served_again :
    let p : Plan := {
      slots := 4
      scripts := #[Script.ofSteps #[], Script.ofSteps #[[.raise 1], []]] }
    let bind : List Action := [.bindHandler 1 0, .bindHandler 3 1, .raise 3, .raise 1, .raise 3,
      .disable]
    let quiet := final (performAll 9 5 [.bindHandler 0 0, .bindHandler 2 0, .raise 2, .raise 0,
      .raise 2, .disable]) p.boot
    (∃ m', performAll 9 5 (bind ++ [.poll]) p.boot = .ok () m' ∧
      p.boot.kernel.Recounts m'.kernel ∧ SoftHistory.handled m'.kernel.trace = [1, 3, 1]) ∧
    ∃ m', pollSoft (performAll 9 5) 9 quiet = .ok 2 m' ∧
      Serves (performAll 9 5) quiet [0, 2] m' := by
  intro p bind quiet
  constructor
  · have seen : (after? (performAll 9 5 (bind ++ [.poll])) p.boot).map
        (fun m' => SoftHistory.handled m'.kernel.trace) = some [1, 3, 1] := by decide +kernel
    obtain ⟨m', ran, seen⟩ := Option.map_eq_some_iff.mp seen
    obtain ⟨⟨history, -, -⟩, -⟩ := soft_interrupts_are_drained_by_priority 9 5 p.boot
    obtain ⟨last, recounts, same⟩ := history (bind ++ [.poll])
    rw [of_after ran] at same
    exact ⟨m', of_after ran, same ▸ recounts, seen⟩
  · obtain ⟨-, drains, -⟩ := soft_interrupts_are_drained_by_priority 9 5 quiet
    have ids : quiet.kernel.soft.ids = {0, 2} := by decide +kernel
    have harmless : Harmless (performAll 9 5) quiet := by
      intro id mem
      have bound : ∀ id ∈ quiet.kernel.soft.ids, quiet.kernel.soft.handlers.get id = some 0 := by
        decide +kernel
      refine ⟨0, bound id mem, fun m₁ same => ?_⟩
      have nothing : m₁.scripts 0 (m₁.runs.get 0) = [] := by
        rw [same]
        rfl
      refine ⟨{ m₁ with runs := m₁.runs.set 0 (m₁.runs.get 0 + 1) }, ?_, .of_eq rfl rfl, rfl, rfl⟩
      rw [runScript, get_bind, set_bind, nothing]
      rfl
    obtain ⟨m', ran, serves⟩ := drains.harmless 9 (by decide +kernel) harmless (by rw [ids]; decide)
    have sorted : ({0, 2} : Finset Nat).sort = [0, 2] := by
      rw [Finset.sort_insert _ (by decide) (by decide), Finset.sort_singleton]
    rw [ids, sorted] at serves
    rw [ids] at ran
    exact ⟨m', ran, serves⟩

end CoopKernel.Machine
