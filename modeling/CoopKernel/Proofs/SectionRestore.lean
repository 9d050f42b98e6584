import CoopKernel.Proofs.InterruptTransparency
import CoopKernel.Proofs.SoftPolls

/-!
# What a critical section restores

The flag that a section saved is the one that it restores, whatever ran between.
But restoring sets the flag and never clears it: a section that was entered with
interrupts enabled ends with them enabled, and one that was entered with
interrupts disabled ends as its body ended. So it takes a body that enables
interrupts, such as a turn of the main loop, for a section not to end as it began.
-/

namespace CoopKernel

open Exec

namespace Machine

variable {m m' m₁ : Machine}

/-- Flags that were saved stay, and a guard that is still held keeps its flag. -/
structure Retains (m m' : Machine) : Prop where
  saved : m.saved <+: m'.saved
  taken : m.guards.length ≤ m'.guards.length
  held : ∀ {i flag}, i < m.guards.length → m'.guards.getD i none = some flag →
    m.guards.getD i none = some flag

theorem Retains.of_eq (saved : m'.saved = m.saved) (guards : m'.guards = m.guards) :
    m.Retains m' where
  saved := by rw [saved]
  taken := by rw [guards]
  held _ now := by rw [← guards, now]

theorem Retains.trans (h : m.Retains m₁) (h' : m₁.Retains m') : m.Retains m' where
  saved := h.saved.trans h'.saved
  taken := h.taken.trans h'.taken
  held lt now := h.held lt (h'.held (lt.trans_le h.taken) now)

theorem retains_drop (i : Nat) (m : Machine) :
    m.Retains { m with guards := m.guards.set i none } where
  saved := List.prefix_rfl
  taken := (List.length_set ..).ge
  held {j flag} lt now := by
    by_cases same : i = j
    · subst same
      simp [List.getD_eq_getElem?_getD, lt] at now
    · simpa [List.getD_eq_getElem?_getD, List.getElem?_set_ne same] using now

theorem Step.retains {reserved : Nat → Prop} (step : m.Step reserved m') : m.Retains m' := by
  cases step with
  | save => exact ⟨List.prefix_append .., le_rfl, fun _ now => now⟩
  | guard =>
    refine ⟨List.prefix_rfl, by simp, fun lt now => ?_⟩
    rwa [List.getD_eq_getElem?_getD, List.getElem?_append_left lt,
      ← List.getD_eq_getElem?_getD] at now
  | drop i => exact retains_drop i m
  | _ => exact .of_eq rfl rfl

theorem Steps.retains {reserved : Nat → Prop} (steps : m.Steps reserved m') : m.Retains m' := by
  induction steps with
  | refl => exact .of_eq rfl rfl
  | tail _ step ih => exact ih.trans step.retains

end Machine

/-- What is done in a critical section: actions, and sections that save the flag or take a
guard. -/
inductive Body where
  | done
  | act (a : Action)
  | andThen (first rest : Body)
  | saved (body : Body)
  | guarded (body : Body)

namespace Body

open Machine

/-- Perform two actions with a body between them. The closing one is chosen at the start. -/
def between (rounds depth : Nat) (opening : Action) (closing : Machine → Action)
    (body : Exec Machine Unit) : Exec Machine Unit := do
  let m ← get
  performNested rounds (performAll rounds depth) opening
  body
  performNested rounds (performAll rounds depth) (closing m)

/-- A section restores the flag that it saved, or drops the guard that it took. -/
def run (rounds depth : Nat) : Body → Exec Machine Unit
  | done => pure ()
  | act a => performNested rounds (performAll rounds depth) a
  | andThen first rest => do
    first.run rounds depth
    rest.run rounds depth
  | saved body =>
    between rounds depth .save (fun m => .restore m.saved.length) (body.run rounds depth)
  | guarded body =>
    between rounds depth .guard (fun m => .dropGuard m.guards.length) (body.run rounds depth)

variable {rounds depth : Nat} {opening : Action} {closing : Machine → Action}

theorem between_ok_iff {body : Exec Machine Unit} {m m' : Machine} :
    between rounds depth opening closing body m = .ok () m' ↔
      ∃ m₁ mid, performNested rounds (performAll rounds depth) opening m = .ok () m₁ ∧
        body m₁ = .ok () mid ∧
        performNested rounds (performAll rounds depth) (closing m) mid = .ok () m' := by
  rw [between, get_bind]
  constructor
  · intro ran
    obtain ⟨⟨⟩, m₁, opened, rest⟩ := bind_ok_iff.mp ran
    obtain ⟨⟨⟩, mid, inside, closed⟩ := bind_ok_iff.mp rest
    exact ⟨m₁, mid, opened, inside, closed⟩
  · rintro ⟨m₁, mid, opened, inside, closed⟩
    rw [bind_ok opened, bind_ok inside, closed]

theorem walks_act (rounds depth : Nat) (a : Action) :
    Walks (fun _ => False) (performNested rounds (performAll rounds depth) a) :=
  walks_performNested rounds (follows_performAll rounds depth) (spares_nothing a)

theorem walks_between {body : Exec Machine Unit} (inside : Walks (fun _ => False) body) :
    Walks (fun _ => False) (between rounds depth opening closing body) :=
  walks_get fun m => walks_bind (walks_act rounds depth _) (fun _ =>
    walks_bind inside fun _ => walks_act rounds depth _) m

theorem walks_run (rounds depth : Nat) (body : Body) :
    Walks (fun _ => False) (body.run rounds depth) := by
  induction body with
  | done => exact walks_pure ()
  | act a => exact walks_act rounds depth a
  | andThen first rest first_ih rest_ih => exact walks_bind first_ih fun _ => rest_ih
  | saved body ih => exact walks_between ih
  | guarded body ih => exact walks_between ih

end Body

namespace Machine

variable (rounds : Nat) (nested : List Action → Exec Machine Unit) (m : Machine)

theorem save_ok :
    ∃ m₁, performNested rounds nested .save m = .ok () m₁ ∧ m₁.kernel.cpu.enabled = false ∧
      m₁.saved = m.saved ++ [m.kernel.cpu.enabled] := ⟨_, rfl, rfl, rfl⟩

theorem guard_ok :
    ∃ m₁, performNested rounds nested .guard m = .ok () m₁ ∧ m₁.kernel.cpu.enabled = false ∧
      m₁.guards = m.guards ++ [some m.kernel.cpu.enabled] := ⟨_, rfl, rfl, rfl⟩

theorem restore_ok (i : Nat) :
    ∃ m', performNested rounds nested (.restore i) m = .ok () m' ∧
      m'.kernel.cpu.enabled = (m.saved.getD i false || m.kernel.cpu.enabled) :=
  ⟨_, rfl, Cpu.enabled_restore _ _⟩

/-- Dropping a guard a second time restores nothing. -/
theorem dropGuard_ok (i : Nat) :
    ∃ m', performNested rounds nested (.dropGuard i) m = .ok () m' ∧
      m'.kernel.cpu.enabled =
        ((m.guards.getD i none).getD false || m.kernel.cpu.enabled) := by
  cases held : m.guards.getD i none with
  | none =>
    have ran : Machine.perform rounds nested (.dropGuard i) m = .ok (.flag false) m := by
      rw [Machine.perform, get_bind, held]
      rfl
    rw [performNested, bind_ok ran]
    exact ⟨_, rfl, rfl⟩
  | some flag =>
    have ran : Machine.perform rounds nested (.dropGuard i) m =
        .ok (.flag true)
          { m.modifyKernel (Kernel.restore flag) with guards := m.guards.set i none } := by
      rw [Machine.perform, get_bind, held]
      rfl
    rw [performNested, bind_ok ran]
    exact ⟨_, rfl, Cpu.enabled_restore flag m.kernel.cpu⟩

end Machine

namespace Body

open Machine

variable {m mid : Machine} {rounds depth : Nat} {body : Body}

/-- A section whose body has run to its end returns, and it sets the flag if it was saved set. -/
theorem saved_ok (ran : ((act .save).andThen body).run rounds depth m = .ok () mid) :
    ∃ m', (saved body).run rounds depth m = .ok () m' ∧
      m'.kernel.cpu.enabled = (m.kernel.cpu.enabled || mid.kernel.cpu.enabled) := by
  obtain ⟨m₁, opened, -, flags⟩ := save_ok rounds (performAll rounds depth) m
  have inside : body.run rounds depth m₁ = .ok () mid := (bind_ok opened).symm.trans ran
  obtain ⟨m', closed, flag⟩ := restore_ok rounds (performAll rounds depth) mid m.saved.length
  refine ⟨m', between_ok_iff.mpr ⟨m₁, mid, opened, inside, closed⟩, ?_⟩
  -- The flag is read from where the section put it.
  have retained := ((walks_run rounds depth body m₁).ok m₁.unreserved inside).retains
  obtain ⟨later, all⟩ := retained.saved
  have read : mid.saved.getD m.saved.length false = m.kernel.cpu.enabled := by
    rw [← all, flags]
    simp
  rw [flag, read]

/-- The same for a guard, if nothing but the section drops it. -/
theorem guarded_ok (ran : ((act .guard).andThen body).run rounds depth m = .ok () mid) :
    ∃ m', (guarded body).run rounds depth m = .ok () m' ∧
      (mid.guards.getD m.guards.length none ≠ none →
        m'.kernel.cpu.enabled = (m.kernel.cpu.enabled || mid.kernel.cpu.enabled)) ∧
      (m'.kernel.cpu.enabled = true →
        m.kernel.cpu.enabled = true ∨ mid.kernel.cpu.enabled = true) := by
  obtain ⟨m₁, opened, -, flags⟩ := guard_ok rounds (performAll rounds depth) m
  have inside : body.run rounds depth m₁ = .ok () mid := (bind_ok opened).symm.trans ran
  obtain ⟨m', closed, flag⟩ := dropGuard_ok rounds (performAll rounds depth) mid m.guards.length
  refine ⟨m', between_ok_iff.mpr ⟨m₁, mid, opened, inside, closed⟩, ?_⟩
  have retained := ((walks_run rounds depth body m₁).ok m₁.unreserved inside).retains
  cases held : mid.guards.getD m.guards.length none with
  | none =>
    rw [held] at flag
    exact ⟨fun lost => absurd rfl lost, fun on => Or.inr (flag.symm.trans on)⟩
  | some saved =>
    have taken := retained.held (by rw [flags]; simp) held
    rw [flags, List.getD_eq_getElem?_getD, List.getElem?_concat_length] at taken
    cases taken
    rw [held] at flag
    exact ⟨fun _ => flag, fun on => by simpa using flag.symm.trans on⟩

end Body

/-- Whether interrupts may be enabled when the action returns; `entry` says whether they may be
when it is called. A task may enable them, and a flag that is restored may be a set one. -/
def Action.mayEnable (entry : Bool) : Action → Bool
  | .enable | .sleep | .reset | .restore _ | .dropGuard _ => true
  | .runHand | .run _ | .drain _ _ | .turn _ | .turnWhileRan _ _ | .turnForever _ => true
  | .disable | .save | .guard | .poll => false
  | .identifyChip _ done | .awaitChip _ done => entry || !done.isEmpty
  | _ => entry

/-- The same for a body. A section enables no more than its body does. -/
def Body.mayEnable (entry : Bool) : Body → Bool
  | done => entry
  | act a => a.mayEnable entry
  | andThen first rest => rest.mayEnable (first.mayEnable entry)
  | saved body | guarded body => entry || body.mayEnable false

theorem Action.mayEnable_operation {a : Action} {b : Board} {op : Board.Operation} (entry : Bool)
    (is : a.operation? b = some op) : a.mayEnable entry = entry := by
  cases a <;> simp only [Action.operation?, reduceCtorEq] at is <;> rfl

namespace Machine

variable {m m' : Machine} {rounds depth : Nat} {a : Action} {entry : Bool}

def FlagKept (m m' : Machine) : Prop := m'.kernel.cpu.enabled = m.kernel.cpu.enabled

theorem leads_flagKept : Leads FlagKept FlagKept := ⟨id, fun h h' => Eq.trans h' h⟩

theorem flagKept_onBoard {α : Type} {x : Exec Board α} (op : Board.Operation)
    (is : ∀ b, final x b = final op.run b) : Obeys FlagKept (onBoard x) := by
  intro m
  rw [FlagKept, final_onBoard, is]
  exact (Board.obeys_run op m.board).flag

theorem flagKept_converse (op : Board.Operation) {step : Exec Board Flash.Progress}
    (is : ∀ b, final step b = final op.run b) :
    Obeys FlagKept (converse (performAll rounds depth) [] step) := by
  refine leads_flagKept.bind (flagKept_onBoard op is) fun progress => ?_
  have idle : performAll rounds depth [] = pure () := by cases depth <;> rfl
  rw [idle]
  split <;> exact fun _ => rfl

theorem enabled_poll {n : Nat}
    (ran : pollSoft (performAll rounds depth) rounds m = .ok n m') :
    m'.kernel.cpu.enabled = false := by
  obtain ⟨off, ids, serves, -⟩ := pollSoft_ok_iff.mp ran
  exact serves.disabled off

/-- The bound of an action holds whenever it returns: where interrupts are enabled afterwards, it
allowed them. -/
theorem perform_mayEnable {r : Reply}
    (ran : Machine.perform rounds (performAll rounds depth) a m = .ok r m')
    (before : m.kernel.cpu.enabled = true → entry = true) (after : m'.kernel.cpu.enabled = true) :
    a.mayEnable entry = true := by
  -- Most actions keep the flag.
  have kept (same : a.mayEnable entry = entry)
      (flag : FlagKept m (final (Machine.perform rounds (performAll rounds depth) a) m)) :
      a.mayEnable entry = true := by
    rw [final_ok ran] at flag
    exact same.trans (before (flag.symm.trans after))
  cases is : a.operation? m.board with
  | some op =>
    refine kept (Action.mayEnable_operation entry is) ?_
    rw [final_perform_operation rounds is]
    exact (Board.obeys_run op m.board).flag
  | none =>
    cases a <;> simp only [Action.operation?, reduceCtorEq] at is
    case poll =>
      obtain ⟨n, m₁, polled, returned⟩ := bind_ok_iff.mp ran
      cases returned
      rw [enabled_poll polled] at after
      cases after
    case disable | save | guard =>
      cases ran
      cases after
    case pop q =>
      refine kept rfl (leads_flagKept.bind (flagKept_onBoard (.pop _) (final_dropped _))
        (fun _ => ?_) m)
      exact fun _ => rfl
    case identifyChip i done =>
      cases done with
      | nil =>
        exact kept (Bool.or_false entry) (flagKept_converse (.identifyChip i) (final_dropped _) m)
      | cons a rest => exact Bool.or_true entry
    case awaitChip i done =>
      cases done with
      | nil =>
        exact kept (Bool.or_false entry) (flagKept_converse (.awaitChip i) (final_dropped _) m)
      | cons a rest => exact Bool.or_true entry
    case enable | sleep | reset | restore | dropGuard => rfl
    case runHand | run | drain | turn | turnWhileRan | turnForever => rfl
    all_goals exact kept rfl rfl

theorem performNested_mayEnable
    (ran : performNested rounds (performAll rounds depth) a m = .ok () m')
    (before : m.kernel.cpu.enabled = true → entry = true) (after : m'.kernel.cpu.enabled = true) :
    a.mayEnable entry = true := by
  obtain ⟨r, m₁, performed, noted⟩ := bind_ok_iff.mp ran
  have flag : m'.kernel.cpu.enabled = m₁.kernel.cpu.enabled := by
    split at noted <;> cases noted <;> rfl
  exact perform_mayEnable performed before (flag.symm.trans after)

end Machine

/-- By induction on the body: the bound before each part bounds the flag after it. -/
theorem Body.run_mayEnable {rounds depth : Nat} {body : Body} {m m' : Machine} {entry : Bool}
    (ran : body.run rounds depth m = .ok () m')
    (before : m.kernel.cpu.enabled = true → entry = true) (after : m'.kernel.cpu.enabled = true) :
    body.mayEnable entry = true := by
  induction body generalizing m m' entry with
  | done =>
    cases ran
    exact before after
  | act a => exact Machine.performNested_mayEnable ran before after
  | andThen first rest first_ih rest_ih =>
    obtain ⟨⟨⟩, m₁, ran_first, ran_rest⟩ := bind_ok_iff.mp ran
    exact rest_ih ran_rest (first_ih ran_first before) after
  | saved body ih =>
    obtain ⟨m₁, mid, opened, inside, -⟩ := between_ok_iff.mp ran
    obtain ⟨m'', again, flag⟩ := saved_ok ((bind_ok opened).trans inside)
    cases ran.symm.trans again
    rw [flag, Bool.or_eq_true] at after
    exact Bool.or_eq_true_iff.mpr (after.imp before
      (ih inside (Machine.performNested_mayEnable opened fun _ => rfl)))
  | guarded body ih =>
    obtain ⟨m₁, mid, opened, inside, -⟩ := between_ok_iff.mp ran
    obtain ⟨m'', again, -, enabled⟩ := guarded_ok ((bind_ok opened).trans inside)
    cases ran.symm.trans again
    exact Bool.or_eq_true_iff.mpr ((enabled after).imp before
      (ih inside (Machine.performNested_mayEnable opened fun _ => rfl)))

/-- The bound for what runs up to the end of a section, which is entered with any flag. -/
theorem Body.disabled_of_opened {rounds depth : Nat} {body : Body} {m mid : Machine}
    {opening : Action} (disables : opening.mayEnable true = false)
    (never : body.mayEnable false = false)
    (ran : ((act opening).andThen body).run rounds depth m = .ok () mid) :
    mid.kernel.cpu.enabled = false := by
  by_contra on
  have enables : ((act opening).andThen body).mayEnable true = true :=
    run_mayEnable ran (fun _ => rfl) (by simpa using on)
  rw [mayEnable, mayEnable, disables, never] at enables
  cases enables

/-- A section whose body has run to its end returns. It ends with interrupts enabled exactly if it
was entered with them enabled or its body ended with them enabled, so it ends as it was entered if
its body leaves them disabled. A guard has to be held by then. -/
theorem sections_restore_unless_their_body_enables (rounds depth : Nat) (body : Body)
    (m mid : Machine) :
    (((Body.act .save).andThen body).run rounds depth m = .ok () mid →
      ∃ m', (Body.saved body).run rounds depth m = .ok () m' ∧
        m'.kernel.cpu.enabled = (m.kernel.cpu.enabled || mid.kernel.cpu.enabled) ∧
        (body.mayEnable false = false → m'.kernel.cpu.enabled = m.kernel.cpu.enabled)) ∧
    (((Body.act .guard).andThen body).run rounds depth m = .ok () mid →
      mid.guards.getD m.guards.length none ≠ none →
      ∃ m', (Body.guarded body).run rounds depth m = .ok () m' ∧
        m'.kernel.cpu.enabled = (m.kernel.cpu.enabled || mid.kernel.cpu.enabled) ∧
        (body.mayEnable false = false → m'.kernel.cpu.enabled = m.kernel.cpu.enabled)) := by
  constructor
  · intro ran
    obtain ⟨m', section_ran, flag⟩ := Body.saved_ok ran
    refine ⟨m', section_ran, flag, fun never => ?_⟩
    rw [flag, Body.disabled_of_opened rfl never ran, Bool.or_false]
  · intro ran held
    obtain ⟨m', section_ran, flag, -⟩ := Body.guarded_ok ran
    refine ⟨m', section_ran, flag held, fun never => ?_⟩
    rw [flag held, Body.disabled_of_opened rfl never ran, Bool.or_false]

/-- A turn of the main loop ends with interrupts enabled, and the code after it disables them. -/
theorem turn_restored_by_a_guard :
    let body : Body := .andThen (.act (.turn 0)) (.act .disable)
    (∃ m', (Body.saved body).run 1 1 ({} : Plan).boot = .ok () m' ∧
      m'.kernel.cpu.enabled = true) ∧
    ∃ m', (Body.guarded body).run 1 1 (({} : Plan).boot.modifyKernel Kernel.disable) = .ok () m' ∧
      m'.kernel.cpu.enabled = false := by
  intro body
  have sections := sections_restore_unless_their_body_enables 1 1 body
  constructor
  · obtain ⟨m', ran, -, flag⟩ := (sections ({} : Plan).boot _).1 (ok_final rfl)
    exact ⟨m', ran, flag rfl⟩
  · obtain ⟨m', ran, -, flag⟩ :=
      (sections (({} : Plan).boot.modifyKernel Kernel.disable) _).2 (ok_final rfl) (by decide)
    exact ⟨m', ran, flag rfl⟩

/-- A guard that is taken with interrupts disabled, around a turn of the main loop. -/
theorem turn_defeats_a_guard :
    ¬ ∀ (p : Plan) (rounds depth : Nat) (before body : Body) (m m' : Machine),
      before.run rounds depth p.boot = .ok () m →
      (Body.guarded body).run rounds depth m = .ok () m' →
      m'.kernel.cpu.enabled = m.kernel.cpu.enabled := by
  intro restores
  have same := restores {} 1 1 (.act .disable) (.act (.turn 0)) _ _ (ok_final rfl) (ok_final rfl)
  exact absurd same (by decide)

end CoopKernel
