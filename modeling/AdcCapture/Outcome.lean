/-
  How a call ends, and calls as state transformers. A call gives a value, reports an error, or
  breaks one of the library's assertions; in all three cases the state it reached is kept.
-/

namespace AdcCapture

/-- An assertion of the library that a call can break. -/
inductive Fault where
  /-- A completion was signalled or waited on while it carried no signature. -/
  | completionUnsigned
  /-- A completion was signalled twice without being set up in between. -/
  | completionTwice
  /-- A raw readout is too short for the samples asked of it. -/
  | rawTooShort
  /-- An interrupt reached a descriptor that had been finalised. -/
  | deadDescriptor
  /-- A ring was asked for with no usable slot. -/
  | ringTooSmall
  /-- A size left the 64-bit range, or the bounds of a clamp were out of order. -/
  | arithmetic
  /-- A stretch of an array was asked for that is not inside it. -/
  | outOfRange
deriving DecidableEq, Repr

/-- The text of the assertion; faults of arithmetic and of indices have none. -/
def Fault.text? : Fault → Option String
  | completionUnsigned => some "completion used without init"
  | completionTwice => some "completion signalled twice"
  | rawTooShort => some "raw FIFO buffer too short"
  | deadDescriptor => some "FIFO interrupt on a dead descriptor"
  | ringTooSmall => some "ring must have at least 2 slots (1 usable)"
  | arithmetic => none
  | outOfRange => none

/-- How a call ends. -/
inductive Outcome (ε α : Type) where
  | ok (value : α)
  | error (cause : ε)
  | fault (broken : Fault)
deriving DecidableEq, Repr

namespace Outcome

variable {ε ε' α β : Type}

def map (f : α → β) : Outcome ε α → Outcome ε β
  | ok a => ok (f a)
  | error e => error e
  | fault b => fault b

def mapError (f : ε → ε') : Outcome ε α → Outcome ε' α
  | ok a => ok a
  | error e => error (f e)
  | fault b => fault b

/-- An error or a fault ends the sequence. -/
instance : Monad (Outcome ε) where
  pure := ok
  bind o f :=
    match o with
    | ok a => f a
    | error e => error e
    | fault b => fault b

end Outcome

/-- A call on a state `σ`: how it ends, and the state it leaves, whichever way it ends. -/
def Action (σ ε α : Type) : Type := σ → Outcome ε α × σ

/-- A state `τ` that is a component of a state `σ`. -/
structure Part (σ τ : Type) where
  get : σ → τ
  set : τ → σ → σ

/-- A state as a component of itself. -/
def Part.whole (σ : Type) : Part σ σ where
  get s := s
  set s _ := s

/-- The first component of a pair. -/
def Part.first (σ τ : Type) : Part (σ × τ) σ where
  get s := s.1
  set a s := (a, s.2)

/-- A component of a component. -/
def Part.andThen {σ τ υ : Type} (p : Part σ τ) (q : Part τ υ) : Part σ υ where
  get s := q.get (p.get s)
  set u s := p.set (q.set u (p.get s)) s

namespace Action

variable {σ τ ε ε' α β : Type}

def run (a : Action σ ε α) (s : σ) : Outcome ε α × σ := a s

/-- An error or a fault ends the sequence; the state reached so far stays. -/
instance : Monad (Action σ ε) where
  pure a s := (.ok a, s)
  bind a f s :=
    match a s with
    | (.ok v, t) => f v t
    | (.error e, t) => (.error e, t)
    | (.fault b, t) => (.fault b, t)

instance : LawfulMonad (Action σ ε) :=
  LawfulMonad.mk' _
    (fun a => by
      funext s
      simp only [Functor.map]
      rcases a s with ⟨o, t⟩
      cases o <;> rfl)
    (fun _ _ => rfl)
    (fun a _ _ => by
      funext s
      simp only [bind]
      rcases a s with ⟨o, t⟩
      cases o <;> rfl)

/-- Ends with an error and changes nothing. -/
def fail (e : ε) : Action σ ε α := fun s => (.error e, s)

/-- Ends with the given outcome and changes nothing. -/
def give (o : Outcome ε α) : Action σ ε α := fun s => (o, s)

/-- The state as it is. -/
def state : Action σ ε σ := fun s => (.ok s, s)

def update (f : σ → σ) : Action σ ε Unit := fun s => (.ok (), f s)

/-- Hands an error to the caller as a value. A fault is not caught. -/
def attempt (a : Action σ ε α) : Action σ ε' (Except ε α) := fun s =>
  match a s with
  | (.ok v, t) => (.ok (.ok v), t)
  | (.error e, t) => (.ok (.error e), t)
  | (.fault b, t) => (.fault b, t)

def mapError (f : ε → ε') (a : Action σ ε α) : Action σ ε' α := fun s =>
  match a s with
  | (o, t) => (o.mapError f, t)

/-- Answers an error with another call, which runs from the state that the error left. -/
def recover (a : Action σ ε α) (h : ε → Action σ ε' α) : Action σ ε' α := fun s =>
  match a s with
  | (.ok v, t) => (.ok v, t)
  | (.error e, t) => h e t
  | (.fault b, t) => (.fault b, t)

/-- Runs a call on a component of the state and leaves the rest of the state alone. -/
def within (p : Part σ τ) (a : Action τ ε α) : Action σ ε α := fun s =>
  match a (p.get s) with
  | (o, t) => (o, p.set t s)

/-- Ends as the given result does. -/
def ofExcept : Except ε α → Action σ ε α
  | .ok a => pure a
  | .error e => .fail e

/-! ### What each of these does to a state -/

section Apply

variable (s : σ)

@[simp] theorem pure_apply (v : α) : (pure v : Action σ ε α) s = (.ok v, s) := rfl

@[simp] theorem fail_apply (e : ε) : (fail e : Action σ ε α) s = (.error e, s) := rfl

@[simp] theorem give_apply (o : Outcome ε α) : give o s = (o, s) := rfl

@[simp] theorem state_apply : (state : Action σ ε σ) s = (.ok s, s) := rfl

@[simp] theorem update_apply (f : σ → σ) : (update f : Action σ ε Unit) s = (.ok (), f s) := rfl

theorem bind_apply (a : Action σ ε α) (f : α → Action σ ε β) :
    (a >>= f) s =
      match a s with
      | (.ok v, t) => f v t
      | (.error e, t) => (.error e, t)
      | (.fault b, t) => (.fault b, t) := rfl

theorem within_apply (p : Part σ τ) (a : Action τ ε α) :
    within p a s = ((a (p.get s)).1, p.set (a (p.get s)).2 s) := rfl

theorem within_eq {p : Part σ τ} {a : Action τ ε α} {o : Outcome ε α} {t : τ}
    (h : a (p.get s) = (o, t)) : within p a s = (o, p.set t s) := by rw [within_apply, h]

@[simp] theorem state_bind (f : σ → Action σ ε β) : (state >>= f) s = f s s := rfl

@[simp] theorem give_ok_bind (v : α) (f : α → Action σ ε β) : (give (.ok v) >>= f) s = f v s := rfl

@[simp] theorem update_bind (g : σ → σ) (f : Unit → Action σ ε β) :
    (update g >>= f) s = f () (g s) := rfl

@[simp] theorem fail_bind (e : ε) (f : α → Action σ ε β) :
    ((fail e : Action σ ε α) >>= f) s = (.error e, s) := rfl

theorem bind_ok {a : Action σ ε α} {v : α} {t : σ} (h : a s = (.ok v, t)) (f : α → Action σ ε β) :
    (a >>= f) s = f v t := by rw [bind_apply, h]

theorem bind_error {a : Action σ ε α} {e : ε} {t : σ} (h : a s = (.error e, t))
    (f : α → Action σ ε β) : (a >>= f) s = (.error e, t) := by rw [bind_apply, h]

theorem attempt_ok {a : Action σ ε α} {v : α} {t : σ} (h : a s = (.ok v, t)) :
    (attempt a : Action σ ε' _) s = (.ok (.ok v), t) := by
  unfold attempt
  rw [h]

theorem attempt_error {a : Action σ ε α} {e : ε} {t : σ} (h : a s = (.error e, t)) :
    (attempt a : Action σ ε' _) s = (.ok (.error e), t) := by
  unfold attempt
  rw [h]

theorem recover_ok {a : Action σ ε α} {v : α} {t : σ} (h : a s = (.ok v, t))
    (f : ε → Action σ ε' α) : a.recover f s = (.ok v, t) := by
  unfold recover
  rw [h]

theorem recover_error {a : Action σ ε α} {e : ε} {t : σ} (h : a s = (.error e, t))
    (f : ε → Action σ ε' α) : a.recover f s = f e t := by
  unfold recover
  rw [h]

theorem attempt_within (p : Part σ τ) (a : Action τ ε α) :
    (attempt (within p a) : Action σ ε' _) s = within p (attempt a) s := by
  unfold attempt within
  rcases h : a (p.get s) with ⟨o, t⟩
  dsimp only
  rw [h]
  cases o <;> rfl

/-- A sequence that gives a value has gone through both of its parts. -/
theorem of_bind_ok {a : Action σ ε α} {f : α → Action σ ε β} {v : β} {u : σ}
    (h : (a >>= f) s = (.ok v, u)) : ∃ w t, a s = (.ok w, t) ∧ f w t = (.ok v, u) := by
  rw [bind_apply] at h
  rcases hs : a s with ⟨o, t⟩
  rw [hs] at h
  cases o with
  | ok w => exact ⟨w, t, rfl, h⟩
  | error e => cases h
  | fault b => cases h

/-- A sequence that ends with an error has met it in one of its parts. -/
theorem of_bind_error {a : Action σ ε α} {f : α → Action σ ε β} {e : ε} {u : σ}
    (h : (a >>= f) s = (.error e, u)) :
    a s = (.error e, u) ∨ ∃ w t, a s = (.ok w, t) ∧ f w t = (.error e, u) := by
  rw [bind_apply] at h
  rcases hs : a s with ⟨o, t⟩
  rw [hs] at h
  cases o with
  | ok w => exact .inr ⟨w, t, rfl, h⟩
  | error e' =>
    cases h
    exact .inl rfl
  | fault b => cases h

/-- A call whose errors are answered gives a value of its own, or the answer does. -/
theorem of_recover_ok {a : Action σ ε α} {h : ε → Action σ ε' α} {v : α} {u : σ}
    (hs : a.recover h s = (.ok v, u)) :
    a s = (.ok v, u) ∨ ∃ e t, a s = (.error e, t) ∧ h e t = (.ok v, u) := by
  unfold recover at hs
  rcases ha : a s with ⟨o, t⟩
  rw [ha] at hs
  cases o with
  | ok w =>
    cases hs
    exact .inl rfl
  | error e => exact .inr ⟨e, t, rfl, hs⟩
  | fault b => cases hs

/-- A call whose errors are answered ends with an error only if the answer does. -/
theorem of_recover_error {a : Action σ ε α} {h : ε → Action σ ε' α} {e : ε'} {u : σ}
    (hs : a.recover h s = (.error e, u)) :
    ∃ e' t, a s = (.error e', t) ∧ h e' t = (.error e, u) := by
  unfold recover at hs
  rcases ha : a s with ⟨o, t⟩
  rw [ha] at hs
  cases o with
  | ok w => cases hs
  | error e' => exact ⟨e', t, rfl, hs⟩
  | fault b => cases hs

theorem of_attempt {a : Action σ ε α} {r : Except ε α} {u : σ}
    (hs : (attempt a : Action σ ε' _) s = (.ok r, u)) :
    (∃ v, r = .ok v ∧ a s = (.ok v, u)) ∨ ∃ e, r = .error e ∧ a s = (.error e, u) := by
  unfold attempt at hs
  rcases ha : a s with ⟨o, t⟩
  rw [ha] at hs
  cases o with
  | ok v =>
    cases hs
    exact .inl ⟨v, rfl, rfl⟩
  | error e =>
    cases hs
    exact .inr ⟨e, rfl, rfl⟩
  | fault b => cases hs

theorem of_mapError_ok {a : Action σ ε α} {f : ε → ε'} {v : α} {u : σ}
    (hs : a.mapError f s = (.ok v, u)) : a s = (.ok v, u) := by
  unfold mapError at hs
  rcases ha : a s with ⟨o, t⟩
  rw [ha] at hs
  cases o with
  | ok w =>
    cases hs
    rfl
  | error e => cases hs
  | fault b => cases hs

theorem of_mapError_error {a : Action σ ε α} {f : ε → ε'} {e : ε'} {u : σ}
    (hs : a.mapError f s = (.error e, u)) : ∃ e', e = f e' ∧ a s = (.error e', u) := by
  unfold mapError at hs
  rcases ha : a s with ⟨o, t⟩
  rw [ha] at hs
  cases o with
  | ok w => cases hs
  | error e' =>
    cases hs
    exact ⟨e', rfl, rfl⟩
  | fault b => cases hs

theorem of_within_ok {p : Part σ τ} {a : Action τ ε α} {v : α} {u : σ}
    (h : within p a s = (.ok v, u)) : ∃ t, a (p.get s) = (.ok v, t) ∧ u = p.set t s := by
  rw [within_apply, Prod.mk.injEq] at h
  exact ⟨_, Prod.ext h.1 rfl, h.2.symm⟩

theorem of_within_error {p : Part σ τ} {a : Action τ ε α} {e : ε} {u : σ}
    (h : within p a s = (.error e, u)) : ∃ t, a (p.get s) = (.error e, t) ∧ u = p.set t s := by
  rw [within_apply, Prod.mk.injEq] at h
  exact ⟨_, Prod.ext h.1 rfl, h.2.symm⟩

end Apply

end Action

end AdcCapture
