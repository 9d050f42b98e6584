import CoopKernel.Fault

/-!
# Running computations that may stop

Equations for one computation after another, and the state in which a
computation ends, stopped or not.
-/

namespace CoopKernel.Exec

variable {σ α β : Type} {x : Exec σ α} {f : α → Exec σ β} {s s' : σ}

theorem bind_ok {a : α} (ran : x s = .ok a s') : (x >>= f) s = f a s' := by
  simp only [bind, EStateM.bind, ran]

theorem bind_error {e : Stop} (ran : x s = .error e s') : (x >>= f) s = .error e s' := by
  simp only [bind, EStateM.bind, ran]

/-- Two computations in a row return if both do. -/
theorem bind_ok_iff {b : β} : (x >>= f) s = .ok b s' ↔
    ∃ a s₁, x s = .ok a s₁ ∧ f a s₁ = .ok b s' := by
  constructor
  · intro ran
    cases first : x s with
    | ok a s₁ => exact ⟨a, s₁, rfl, (bind_ok first).symm.trans ran⟩
    | error e s₁ =>
      rw [bind_error first] at ran
      cases ran
  · rintro ⟨a, s₁, first, rest⟩
    exact (bind_ok first).trans rest

theorem bind_same {y : Exec σ α} (same : x s = y s') : (x >>= f) s = (y >>= f) s' := by
  simp only [bind, EStateM.bind, same]

theorem get_bind (f : σ → Exec σ β) (s : σ) : (get >>= f) s = f s s := rfl

theorem set_bind (s' : σ) (f : PUnit → Exec σ β) (s : σ) : (set s' >>= f) s = f ⟨⟩ s' := rfl

theorem modify_bind (g : σ → σ) (f : PUnit → Exec σ β) (s : σ) :
    (modify g >>= f) s = f ⟨⟩ (g s) := rfl

/-- What an operation leaves, unless a fault stops it. -/
def after? (x : Exec σ α) (s : σ) : Option σ :=
  match x s with
  | .ok _ s' => some s'
  | .error _ _ => none

theorem of_after {x : Exec σ Unit} (h : after? x s = some s') : x s = .ok () s' := by
  rw [after?] at h
  split at h
  · rename_i ran
    cases h
    exact ran
  · cases h

def answering? [DecidableEq α] (a : α) (x : Exec σ α) (s : σ) : Option σ :=
  match x s with
  | .ok a' s' => if a' = a then some s' else none
  | .error _ _ => none

theorem of_answering [DecidableEq α] {a : α} (h : answering? a x s = some s') :
    x s = .ok a s' := by
  rw [answering?] at h
  split at h
  · rename_i ran
    obtain ⟨rfl, left⟩ := Option.ite_none_right_eq_some.mp h
    cases left
    exact ran
  · cases h

/-- The state that is left, also by a stop. -/
def final (x : Exec σ α) (s : σ) : σ :=
  match x s with
  | .ok _ s' | .error _ s' => s'

theorem final_ok {a : α} (ran : x s = .ok a s') : final x s = s' := by
  rw [final, ran]

theorem final_error {e : Stop} (ran : x s = .error e s') : final x s = s' := by
  rw [final, ran]

/-- A computation that is known to return. -/
theorem ok_final {x : Exec σ Unit} (returns : (after? x s).isSome = true) :
    x s = .ok () (final x s) := by
  obtain ⟨s', left⟩ := Option.isSome_iff_exists.mp returns
  have ran := of_after left
  rw [final_ok ran, ran]

theorem final_bind_ok {a : α} (ran : x s = .ok a s') : final (x >>= f) s = final (f a) s' := by
  rw [final, bind_ok ran, final]

theorem final_bind_error {e : Stop} (ran : x s = .error e s') : final (x >>= f) s = s' :=
  final_error (bind_error ran)

theorem final_get (f : σ → Exec σ β) (s : σ) : final (get >>= f) s = final (f s) s := rfl

/-- What follows makes no difference to the state. -/
theorem final_bind_still (still : ∀ a s, final (f a) s = s) (s : σ) :
    final (x >>= f) s = final x s := by
  cases ran : x s with
  | ok a s' => rw [final_bind_ok ran, final_ok ran, still]
  | error e s' => rw [final_bind_error ran, final_error ran]

/-- An answer that is replaced by another. -/
theorem final_answer (x : Exec σ α) (b : β) (s : σ) :
    final (do let _ ← x; return b) s = final x s := final_bind_still (fun _ _ => rfl) s

/-- The state that is left, also by a stop, is related to the one before. -/
def Obeys (R : σ → σ → Prop) (x : Exec σ α) : Prop := ∀ s, R s (final x s)

/-- What `Q` relates may come before what `R` relates, and may be all that happens. -/
structure Leads (Q R : σ → σ → Prop) : Prop where
  stop : ∀ {s s'}, Q s s' → R s s'
  trans : ∀ {s s' s''}, Q s s' → R s' s'' → R s s''

variable {Q R : σ → σ → Prop}

theorem Leads.bind (leads : Leads Q R) (first : Obeys Q x) (rest : ∀ a, Obeys R (f a)) :
    Obeys R (x >>= f) := by
  intro s
  have begun := first s
  cases ran : x s with
  | ok a s' =>
    rw [final_ok ran] at begun
    rw [final_bind_ok ran]
    exact leads.trans begun (rest a s')
  | error e s' =>
    rw [final_error ran] at begun
    rw [final_bind_error ran]
    exact leads.stop begun

theorem obeys_get {f : σ → Exec σ β} (rest : ∀ s, Obeys R (f s)) : Obeys R (get >>= f) :=
  fun s => rest s s

theorem Obeys.answer (h : Obeys R x) (b : β) : Obeys R (do let _ ← x; return b) := by
  intro s
  rw [final_answer]
  exact h s

end CoopKernel.Exec
