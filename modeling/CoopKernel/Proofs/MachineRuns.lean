import CoopKernel.Proofs.MachineSteps

/-!
# Following the interpreter

Every action that the machine performs is followed down to the steps of the
machine, with the nested performer as a parameter. The scripts are then followed
by induction on depth. No other property of runs needs the interpreter again.
-/

namespace CoopKernel.Machine

open Exec

variable {reserved : Nat → Prop} {perform : List Action → Exec Machine Unit} {α β : Type}
variable {m m' : Machine}

theorem popped_bind {α : Type} (q : QueueId) (f : Option TaskId → Exec Machine α) (m : Machine) :
    (onKernel (modifyGet (Kernel.pop q)) >>= f) m =
      f (m.kernel.pop q).1 (m.modifyKernel fun k => (k.pop q).2) := rfl

theorem walks_runScript (walks : Follows reserved perform) (script : Nat) :
    Walks reserved (runScript perform script) := by
  intro m spares
  let counted : Machine := { m with runs := m.runs.set script (m.runs.get script + 1) }
  have started : runScript perform script m =
      perform (m.scripts script (m.runs.get script)) counted := rfl
  exact walksAt_later started (.single (.count _)) (walks _ (spares script _) counted) spares

def runWorker (perform : List Action → Exec Machine Unit) : Worker → Exec Machine Unit
  | .poller bus => onBoard (Board.runPoller bus)
  | .script script => runScript perform script

theorem walks_runWorker (walks : Follows reserved perform) (w : Worker) :
    Walks reserved (runWorker perform w) := by
  cases w with
  | poller bus =>
    exact walks_operation (.runPoller bus) (fun _ _ same => by cases same) fun _ => rfl
  | script script => exact walks_runScript walks script

theorem dispatch_none {m : Machine} {t : TaskId} (worker : (m.kernel.tasks.get t).worker = none) :
    dispatch perform t m = .error (.fault .ranWithoutWorker) m := by
  rw [dispatch, get_bind, worker]
  rfl

theorem dispatch_some {m : Machine} {t : TaskId} {w : Worker}
    (worker : (m.kernel.tasks.get t).worker = some w) :
    dispatch perform t m = runWorker perform w
      (m.modifyKernel (Kernel.note (.taskRan t w m.kernel.cpu.enabled (m.kernel.isQueued t)))) := by
  rw [dispatch, get_bind, worker]
  cases w <;> rfl

theorem walks_dispatch (walks : Follows reserved perform) (t : TaskId) :
    Walks reserved (dispatch perform t) := by
  intro m
  cases worker : (m.kernel.tasks.get t).worker with
  | none =>
    intro _
    rw [dispatch_none worker]
    exact Steps.halts .refl
  | some w =>
    exact walksAt_later (dispatch_some worker) (.single (.remark ⟨rfl, rfl⟩))
      (walks_runWorker walks w _)

/-- A round of serving with nothing pending. -/
theorem serve_none {m : Machine} (rounds served : Nat) (lowest : m.kernel.soft.lowest? = none) :
    serve perform (rounds + 1) served m = .ok served m := by
  have nothing : m.kernel.takeLowest = (none, m.kernel) := by rw [Kernel.takeLowest, lowest]
  have taken : onKernel (modifyGet Kernel.takeLowest) m = .ok none m := by
    change EStateM.Result.ok m.kernel.takeLowest.1
      (m.modifyKernel fun _ => m.kernel.takeLowest.2) = _
    rw [nothing]
    rfl
  rw [serve, bind_ok taken]
  rfl

theorem take_some {m : Machine} {id : Nat} (lowest : m.kernel.soft.lowest? = some id) :
    onKernel (modifyGet Kernel.takeLowest) m =
      .ok (some id) (m.modifyKernel fun k => k.takeLowest.2) := by
  have first : m.kernel.takeLowest.1 = some id := by rw [Kernel.takeLowest, lowest]
  change EStateM.Result.ok m.kernel.takeLowest.1 _ = _
  rw [first]
  rfl

theorem handlers_taken {m : Machine} {id : Nat} (lowest : m.kernel.soft.lowest? = some id) :
    (m.modifyKernel fun k => k.takeLowest.2.enable).kernel.soft.handlers =
      m.kernel.soft.handlers := by
  change m.kernel.takeLowest.2.soft.handlers = _
  rw [Kernel.takeLowest, lowest]
  rfl

/-- A round that finds no handler for the lowest pending id. -/
theorem serve_unhandled {m : Machine} {id : Nat} (rounds served : Nat)
    (lowest : m.kernel.soft.lowest? = some id)
    (unbound : m.kernel.soft.handlers.get id = none) :
    serve perform (rounds + 1) served m =
      .error (.fault (.noHandler id)) (m.modifyKernel fun k => k.takeLowest.2.enable) := by
  have taken : ((m.modifyKernel fun k => k.takeLowest.2).modifyKernel
      Kernel.enable).kernel.soft.handlers.get id = none := by
    rw [← unbound, ← handlers_taken lowest]
    rfl
  rw [serve, bind_ok (take_some lowest)]
  dsimp only
  rw [modify_bind, get_bind, taken]
  rfl

/-- A round that runs the handler of the lowest pending id. -/
theorem serve_handled {m : Machine} {id script : Nat} (rounds served : Nat)
    (lowest : m.kernel.soft.lowest? = some id)
    (bound : m.kernel.soft.handlers.get id = some script) :
    serve perform (rounds + 1) served m =
      (do runScript perform script
          modify (modifyKernel Kernel.disable)
          serve perform rounds (served + 1) : Exec Machine Nat) (m.dispatched id script) := by
  have taken : ((m.modifyKernel fun k => k.takeLowest.2).modifyKernel
      Kernel.enable).kernel.soft.handlers.get id = some script := by
    rw [← bound, ← handlers_taken lowest]
    rfl
  rw [serve, bind_ok (take_some lowest)]
  dsimp only
  rw [modify_bind, get_bind, taken]
  rfl

theorem walks_serve (walks : Follows reserved perform) (rounds served : Nat) :
    Walks reserved (serve perform rounds served) := by
  induction rounds generalizing served with
  | zero => exact walks_throw _
  | succ rounds ih =>
    intro m
    cases lowest : m.kernel.soft.lowest? with
    | none =>
      intro _
      rw [serve_none rounds served lowest]
    | some i =>
      cases bound : m.kernel.soft.handlers.get i with
      | none =>
        -- A bit is cleared and nothing ran.
        intro _
        rw [serve_unhandled rounds served lowest bound]
        exact ⟨m, .refl, Or.inr ⟨_, Or.inl ⟨i, lowest, bound, rfl⟩, rfl⟩⟩
      | some script =>
        refine walksAt_later (serve_handled rounds served lowest bound)
          (.single (.dispatch lowest bound)) ?_
        exact walks_bind (walks_runScript walks script)
          (fun _ => walks_bind walks_disable fun _ => ih (served + 1)) _

/-- Serving returns only when nothing is pending. -/
theorem serve_quiet {m m' : Machine} {rounds served n : Nat}
    (ran : serve perform rounds served m = .ok n m') : m'.kernel.soft.lowest? = none := by
  induction rounds generalizing served m with
  | zero => cases ran
  | succ rounds ih =>
    cases lowest : m.kernel.soft.lowest? with
    | none =>
      rw [serve_none rounds served lowest] at ran
      cases ran
      exact lowest
    | some i =>
      cases bound : m.kernel.soft.handlers.get i with
      | none =>
        rw [serve_unhandled rounds served lowest bound] at ran
        cases ran
      | some script =>
        rw [serve_handled rounds served lowest bound] at ran
        cases handled : runScript perform script (m.dispatched i script) with
        | error e m₁ =>
          rw [bind_error handled] at ran
          cases ran
        | ok _ m₁ =>
          rw [bind_ok handled] at ran
          exact ih ran

theorem walks_pollSoft (walks : Follows reserved perform) (rounds : Nat) :
    Walks reserved (pollSoft perform rounds) :=
  walks_get fun m => by
    split
    · exact walks_throw _ m
    · exact walks_serve walks rounds 0 m

theorem pollSoft_quiet {m m' : Machine} {rounds n : Nat}
    (ran : pollSoft perform rounds m = .ok n m') : m'.kernel.soft.lowest? = none := by
  rw [pollSoft, get_bind] at ran
  split at ran
  · cases ran
  · exact serve_quiet ran

/-- What a turn does with what it took out of its queue. -/
def runTaken (perform : List Action → Exec Machine Unit) : Option TaskId → Exec Machine Turn
  | some t => do
    modify (modifyKernel Kernel.enable)
    dispatch perform t
    return .ran
  | none => do
    modify (modifyKernel Kernel.sleep)
    return .idle

theorem taken_none {q : QueueId} {m : Machine} (first : (m.kernel.pop q).1 = none) :
    (onKernel (modifyGet (Kernel.pop q)) >>= runTaken perform) m =
      .ok .idle (m.modifyKernel fun k => (k.pop q).2.sleep) := by
  rw [popped_bind, first]
  rfl

/-- A turn that took out a task goes on with its dispatch. -/
theorem taken_first {q : QueueId} {m : Machine} {t : TaskId}
    (first : (m.kernel.pop q).1 = some t) :
    (onKernel (modifyGet (Kernel.pop q)) >>= runTaken perform) m =
      (dispatch perform t >>= fun _ => pure Turn.ran)
        (m.modifyKernel fun k => (k.pop q).2.enable) := by
  rw [popped_bind, first]
  rfl

theorem taken_workerless {q : QueueId} {m : Machine} {t : TaskId}
    (first : (m.kernel.pop q).1 = some t)
    (worker : ((m.kernel.pop q).2.tasks.get t).worker = none) :
    (onKernel (modifyGet (Kernel.pop q)) >>= runTaken perform) m =
      .error (.fault .ranWithoutWorker) (m.modifyKernel fun k => (k.pop q).2.enable) := by
  rw [taken_first first]
  exact bind_error (dispatch_none worker)

theorem taken_some {q : QueueId} {m : Machine} {t : TaskId} {w : Worker}
    (first : (m.kernel.pop q).1 = some t)
    (worker : ((m.kernel.pop q).2.tasks.get t).worker = some w) :
    (onKernel (modifyGet (Kernel.pop q)) >>= runTaken perform) m =
      (runWorker perform w >>= fun _ => pure Turn.ran) (m.modifyKernel (Kernel.turned q t w)) := by
  rw [taken_first first]
  exact bind_same (dispatch_some worker)

/-- A pop that finds nothing changes no more than the count of disables, so the sleep is what is
left of the turn. -/
theorem steps_slept {q : QueueId} (first : (m.kernel.pop q).1 = none) :
    m.Steps reserved (m.modifyKernel fun k => (k.pop q).2.sleep) := by
  have same : m.modifyKernel (fun k => (k.pop q).2.sleep) =
      (m.modifyKernel ({ · with cpu := (m.kernel.pop q).2.cpu.sleep })).modifyKernel
        (Kernel.note .slept) := by
    change { m with board := { m.board with kernel := (m.kernel.pop q).2.sleep } } = _
    rw [Kernel.pop_none first]
    rfl
  rw [same]
  exact .tail (.single (.cpu _)) (.remark ⟨rfl, rfl⟩)

/-- The end of a turn that found nothing pending. -/
theorem walksAt_runTaken (walks : Follows reserved perform) (q : QueueId)
    (quiet : m.kernel.soft.lowest? = none) :
    WalksAt reserved m (onKernel (modifyGet (Kernel.pop q)) >>= runTaken perform) := by
  cases first : (m.kernel.pop q).1 with
  | none =>
    intro _
    rw [taken_none first]
    exact steps_slept first
  | some t =>
    cases worker : ((m.kernel.pop q).2.tasks.get t).worker with
    | none =>
      intro _
      rw [taken_workerless first worker]
      exact ⟨m, .refl, Or.inr ⟨_, Or.inr ⟨q, t, first, worker, rfl⟩, rfl⟩⟩
    | some w =>
      exact walksAt_later (taken_some first worker) (.single (.turn quiet first worker))
        (walks_bind (walks_runWorker walks w) (fun _ => walks_pure Turn.ran) _)

theorem walks_turn (walks : Follows reserved perform) (rounds : Nat) (q : QueueId) :
    Walks reserved (turn perform rounds q) :=
  walks_bind walks_disable fun _ m => walksAt_bind (walks_pollSoft walks rounds m)
    fun _ _ polled => walksAt_runTaken walks q (pollSoft_quiet polled)

theorem walks_turnWhileRan (walks : Follows reserved perform) (rounds : Nat)
    (q : QueueId) (limit ran : Nat) :
    Walks reserved (turnWhileRan perform rounds q limit ran) := by
  induction limit generalizing ran with
  | zero => exact walks_pure ran
  | succ limit ih =>
    refine walks_bind (walks_turn walks rounds q) fun outcome => ?_
    cases outcome with
    | ran => exact ih (ran + 1)
    | idle => exact walks_pure ran

theorem walks_turnForever (walks : Follows reserved perform) (rounds : Nat)
    (q : QueueId) (left : Nat) : Walks reserved (turnForever perform rounds q left) := by
  induction left with
  | zero => exact walks_throw _
  | succ left ih => exact walks_bind (walks_turn walks rounds q) fun _ => ih

theorem walks_drain (walks : Follows reserved perform) {q : QueueId}
    (common : ∀ i, reserved i → q ≠ .main i) (limit ran : Nat) :
    Walks reserved (drain perform q limit ran) := by
  induction limit generalizing ran with
  | zero => exact walks_pure ran
  | succ limit ih =>
    refine walks_bind (walks_pop common) fun popped => ?_
    cases popped with
    | none => exact walks_pure ran
    | some t => exact walks_bind (walks_dispatch walks t) fun _ => ih (ran + 1)

theorem final_operation (op : Board.Operation) {x : Exec Board α} {f : α → Exec Machine β}
    (is : ∀ b, final x b = final op.run b) (m : Machine)
    (still : ∀ a m, final (f a) m = m := by intros; rfl) :
    final (onBoard x >>= f) m = { m with board := final op.run m.board } := by
  rw [final_bind_still still, final_onBoard, is]

theorem final_unanswered (op : Board.Operation) (m : Machine) :
    final (withoutReply (onBoard op.run)) m = { m with board := final op.run m.board } :=
  final_operation op (fun _ => rfl) m

/-- What an action does that is an operation on the board. -/
theorem final_perform_operation (rounds : Nat) {a : Action} {m : Machine} {op : Board.Operation}
    (is : a.operation? m.board = some op) :
    final (Machine.perform rounds perform a) m = { m with board := final op.run m.board } := by
  cases a <;> simp only [Action.operation?, Option.some.injEq, reduceCtorEq] at is <;> subst is
  case add q t => exact final_operation (.add _ _) (final_dropped _) m
  case isEmpty q => exact final_operation (.isEmpty _) (final_dropped _) m
  case queueLiteral q => exact final_operation (.count _) (final_dropped _) m
  case bindWorker t script => rfl
  case submit n t => exact final_operation (.submit _ _) (final_dropped _) m
  case handOver n => exact final_unanswered (.handOver _) m
  case countFed n =>
    rw [Machine.perform, final_get]
    exact final_operation (.count _) (final_dropped _) m
  case bindHandler id script => exact final_unanswered (.bindHandler _ _) m
  case tryBindHandler id script =>
    refine final_operation (.tryBindHandler _ _) (final_dropped _) m fun answer m => ?_
    cases answer <;> rfl
  case clearHandler id => exact final_unanswered (.bindHandler _ _) m
  case raise id => exact final_unanswered (.raise _) m
  case transfer bus t => exact final_unanswered (.start _ _) m
  case request bus t => exact final_operation (.request _ _) (final_dropped _) m
  case release bus => exact final_unanswered (.release _) m
  case select d => rfl
  case deselect d => rfl
  case requestChip i t =>
    rw [Machine.perform, final_get]
    exact final_operation (.request _ _) (final_dropped _) m
  case releaseChip i =>
    rw [Machine.perform, final_get]
    exact final_unanswered (.release _) m
  case selectChip i => rfl
  case deselectChip i => rfl
  case readChip i into =>
    rw [Machine.perform, final_get]
    exact final_unanswered (.start _ _) m
  case writeChip i data =>
    rw [Machine.perform, final_get]
    exact final_unanswered (.start _ _) m
  case askStatus i => exact final_unanswered (.askStatus _) m
  case askId i => exact final_unanswered (.askId _) m
  case command i c => exact final_unanswered (.command _ _) m
  case print level text => exact final_unanswered (.print _ _) m

theorem walks_converse (walks : Follows reserved perform) {done : List Action}
    (spares : ∀ a ∈ done, a.Spares reserved) (op : Board.Operation) (other : ∀ q, op ≠ .pop q)
    {step : Exec Board Flash.Progress} (is : ∀ b, final step b = final op.run b) :
    Walks reserved (converse perform done step) := by
  refine walks_bind (walks_operation op (fun _ _ => other _) is) fun progress => ?_
  dsimp only
  split
  · exact walks_bind (walks done spares) fun _ => walks_pure _
  · exact walks_pure _

/-- Whatever one action does, in the machine or through the scripts that it nests, it does in steps.
An operation on the board is one step. -/
theorem walks_perform (rounds : Nat) (walks : Follows reserved perform) {a : Action}
    (spares : a.Spares reserved) : Walks reserved (Machine.perform rounds perform a) := by
  intro m
  cases is : a.operation? m.board with
  | some op =>
    apply walksAt_of_final
    rw [final_perform_operation rounds is]
    exact .single (.operation op fun _ _ => Action.operation_ne_pop is _)
  | none =>
    -- What is left dispatches, talks to a chip to the end of a conversation, or changes a part of
    -- the machine that no operation on the board is about.
    cases a <;> simp only [Action.operation?, reduceCtorEq] at is
    case pop q =>
      have common : ∀ i, reserved i → QueueId.main q ≠ .main i := by
        rintro i kept ⟨⟩
        exact spares q kept .pop
      exact walks_bind (walks_pop common) (fun _ =>
        walks_bind (walks_modify fun _ => .single (.hold _)) fun _ => walks_pure _) m
    case runHand =>
      refine walks_get (fun m => ?_) m
      split
      · exact walks_pure _ m
      · exact walks_withoutReply (walks_dispatch walks _) m
    case run t => exact walks_withoutReply (walks_dispatch walks _) m
    case drain q limit =>
      have common : ∀ i, reserved i → QueueId.main q ≠ .main i := by
        rintro i kept ⟨⟩
        exact spares q kept (.drain limit)
      exact walks_reply (walks_drain walks common _ _) _ m
    case isBound t => exact fun _ => .refl
    case taskLiteral t => exact fun _ => .refl
    case isPending id => exact fun _ => .refl
    case poll => exact walks_reply (walks_pollSoft walks rounds) _ m
    case turn q => exact walks_reply (walks_turn walks rounds _) _ m
    case turnWhileRan q limit => exact walks_reply (walks_turnWhileRan walks rounds _ _ _) _ m
    case turnForever q => exact walks_withoutReply (walks_turnForever walks rounds _ _) m
    case enable => exact walks_withoutReply walks_enable m
    case disable => exact walks_withoutReply walks_disable m
    case sleep => exact walks_withoutReply walks_sleep m
    case reset => exact fun _ => .single (.cpu {})
    case save => exact fun _ => .tail (.single .save) (.cpu m.kernel.cpu.disable)
    case restore i => exact fun _ => .single (.cpu (m.kernel.cpu.restore (m.saved.getD i false)))
    case guard => exact fun _ => .tail (.single .guard) (.cpu m.kernel.cpu.disable)
    case dropGuard i =>
      refine walks_get (fun m => ?_) m
      split
      · exact fun _ => .refl
      · rename_i enabled held
        exact fun _ => .tail (.single (.drop i)) (.cpu (m.kernel.cpu.restore enabled))
    case describe d => exact fun _ => .refl
    case resetStats bus => exact fun _ => .single (.around rfl)
    case pollReport bus => exact fun _ => .refl
    case respond bus data => exact fun _ => .single (.around rfl)
    case reschedule bus ready => exact fun _ => .single (.around rfl)
    case setBuffer into data => exact fun _ => .single (.around rfl)
    case initController bus => exact fun _ => .single (.around rfl)
    case shutDownController bus => exact fun _ => .single (.around rfl)
    case controllerEnabled bus => exact fun _ => .refl
    case poke bus offset value => exact fun _ => .single (.around rfl)
    case identifyChip i done =>
      have inner : ∀ a ∈ done, a.Spares reserved :=
        fun a mem j kept takes => spares j kept (.identified mem takes)
      exact walks_converse walks inner (.identifyChip i) (by simp) (final_dropped _) m
    case awaitChip i done =>
      have inner : ∀ a ∈ done, a.Spares reserved :=
        fun a mem j kept takes => spares j kept (.awaited mem takes)
      exact walks_converse walks inner (.awaitChip i) (by simp) (final_dropped _) m
    case remark text => exact fun _ => .refl
    case halt text => exact walks_throw _ m

theorem walks_performNested (rounds : Nat) (walks : Follows reserved perform) {a : Action}
    (spares : a.Spares reserved) : Walks reserved (performNested rounds perform a) := by
  refine walks_bind (walks_perform rounds walks spares) fun reply => ?_
  split
  · exact walks_note ⟨rfl, rfl⟩
  · exact walks_pure _

/-- By induction on the depth to which scripts nest. -/
theorem follows_performAll (rounds depth : Nat) : Follows reserved (performAll rounds depth) := by
  induction depth with
  | zero =>
    intro actions _
    cases actions with
    | nil => exact walks_pure _
    | cons a rest => exact walks_throw _
  | succ depth ih =>
    intro actions spares
    cases actions with
    | nil => exact walks_pure _
    | cons a rest => exact walks_forM fun b mem => walks_performNested rounds ih (spares b mem)

theorem spares_nothing (a : Action) : a.Spares fun _ => False := fun _ kept => kept.elim

theorem unreserved (m : Machine) : m.Spares fun _ => False := fun _ _ a _ => spares_nothing a

/-- With no queue left to the main loop, whatever is performed. -/
theorem walks_performAll (rounds depth : Nat) (actions : List Action) :
    Walks (fun _ => False) (performAll rounds depth actions) :=
  follows_performAll rounds depth actions fun a _ => spares_nothing a

end CoopKernel.Machine
