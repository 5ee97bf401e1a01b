/-
  What a call may rely on and what it may do. A contract is an invariant of a state together with
  the changes of the state that are allowed. A call obeys it if, made where the invariant holds,
  it breaks no assertion, leaves the invariant true and changes the state only as allowed.
  Sequencing and the other ways to put calls together respect this, so a call obeys a contract as
  soon as its steps do; a call on a component obeys a contract of the whole through
  `Obeys.within`.
-/
import AdcCapture.Outcome

namespace AdcCapture

variable {σ τ ε ε' α β : Type}

/-- The assertion that a call broke, if it broke one. -/
def Outcome.fault? : Outcome ε α → Option Fault
  | ok _ => none
  | error _ => none
  | fault b => some b

/-- The result that an outcome tells of, unless it is a fault. -/
def Outcome.result? : Outcome ε α → Option (Except ε α)
  | ok v => some (.ok v)
  | error e => some (.error e)
  | fault _ => none

theorem Outcome.isSome_result? {o : Outcome ε α} (h : o.fault? = none) : o.result?.isSome := by
  cases o with
  | ok v => rfl
  | error e => rfl
  | fault b => cases h

theorem Outcome.of_map_ok {f : α → β} {o : Outcome ε α} {w : β} (h : o.map f = .ok w) :
    ∃ v, o = .ok v ∧ f v = w := by
  cases o with
  | ok v => exact ⟨v, rfl, Outcome.ok.inj h⟩
  | error e => cases h
  | fault b => cases h

/-- A call that breaks no assertion gives a value or fails. -/
theorem Action.ends_of_sure {a : Action σ ε α} {s : σ} (h : (a s).1.fault? = none) :
    (∃ v t, a s = (.ok v, t)) ∨ ∃ e t, a s = (.error e, t) := by
  rcases ha : a s with ⟨o, t⟩
  rw [ha] at h
  cases o with
  | ok v => exact .inl ⟨v, t, rfl⟩
  | error e => exact .inr ⟨e, t, rfl⟩
  | fault b => cases h

theorem Action.attempt_of_sure (κ : Type) {a : Action σ ε α} {s : σ}
    (h : (a s).1.fault? = none) :
    ∃ r, (a s).1.result? = some r ∧
      (Action.attempt a : Action σ κ (Except ε α)) s = (.ok r, (a s).2) := by
  unfold Action.attempt
  rcases ha : a s with ⟨o, t⟩
  rw [ha] at h
  cases o with
  | ok v => exact ⟨.ok v, rfl, rfl⟩
  | error e => exact ⟨.error e, rfl, rfl⟩
  | fault b => cases h

/-- An invariant of a state, and the changes of the state that are allowed while it holds. -/
structure Contract (σ : Type) where
  inv : σ → Prop
  allows : σ → σ → Prop
  refl : ∀ s, allows s s
  trans : ∀ {s t u}, allows s t → allows t u → allows s u

namespace Contract

/-- How a call from the state `s` ended, and where: without a fault and within the contract. -/
structure Keeps (c : Contract σ) (s : σ) (x : Outcome ε α × σ) : Prop where
  sure : x.1.fault? = none
  inv : c.inv x.2
  allowed : c.allows s x.2

namespace Keeps

variable {c : Contract σ} {s : σ}

theorem here {o : Outcome ε α} (hs : c.inv s) (ho : o.fault? = none) : c.Keeps s (o, s) :=
  ⟨ho, hs, c.refl s⟩

theorem bind {a : Action σ ε α} {f : α → Action σ ε β} (ha : c.Keeps s (a s))
    (hf : ∀ v t, a s = (.ok v, t) → c.inv t → c.Keeps t (f v t)) : c.Keeps s ((a >>= f) s) := by
  obtain ⟨sure, inv, allowed⟩ := ha
  rw [Action.bind_apply]
  rcases h : a s with ⟨o, t⟩
  rw [h] at sure inv allowed
  cases o with
  | ok v =>
    obtain ⟨sure', inv', allowed'⟩ := hf v t h inv
    exact ⟨sure', inv', c.trans allowed allowed'⟩
  | error e => exact ⟨rfl, inv, allowed⟩
  | fault b => cases sure

theorem recover {a : Action σ ε α} {h : ε → Action σ ε' α} (ha : c.Keeps s (a s))
    (hh : ∀ e t, a s = (.error e, t) → c.inv t → c.Keeps t (h e t)) :
    c.Keeps s (a.recover h s) := by
  obtain ⟨sure, inv, allowed⟩ := ha
  unfold Action.recover
  rcases he : a s with ⟨o, t⟩
  rw [he] at sure inv allowed
  cases o with
  | ok v => exact ⟨rfl, inv, allowed⟩
  | error e =>
    obtain ⟨sure', inv', allowed'⟩ := hh e t he inv
    exact ⟨sure', inv', c.trans allowed allowed'⟩
  | fault b => cases sure

theorem attempt {a : Action σ ε α} (ha : c.Keeps s (a s)) :
    c.Keeps s ((Action.attempt a : Action σ ε' (Except ε α)) s) := by
  obtain ⟨sure, inv, allowed⟩ := ha
  unfold Action.attempt
  rcases h : a s with ⟨o, t⟩
  rw [h] at sure inv allowed
  cases o with
  | ok v => exact ⟨rfl, inv, allowed⟩
  | error e => exact ⟨rfl, inv, allowed⟩
  | fault b => cases sure

theorem mapError {a : Action σ ε α} {f : ε → ε'} (ha : c.Keeps s (a s)) :
    c.Keeps s (a.mapError f s) := by
  obtain ⟨sure, inv, allowed⟩ := ha
  unfold Action.mapError
  rcases h : a s with ⟨o, t⟩
  rw [h] at sure inv allowed
  cases o with
  | ok v => exact ⟨rfl, inv, allowed⟩
  | error e => exact ⟨rfl, inv, allowed⟩
  | fault b => cases sure

end Keeps

end Contract

/-- The call keeps to the contract wherever the invariant holds. -/
def Action.Obeys (a : Action σ ε α) (c : Contract σ) : Prop := ∀ s, c.inv s → c.Keeps s (a s)

namespace Action.Obeys

variable {c : Contract σ}

theorem pure (v : α) : (Pure.pure v : Action σ ε α).Obeys c := fun _ hs => .here hs rfl

theorem fail (e : ε) : (Action.fail e : Action σ ε α).Obeys c := fun _ hs => .here hs rfl

theorem state : (Action.state : Action σ ε σ).Obeys c := fun _ hs => .here hs rfl

theorem give {o : Outcome ε α} (h : o.fault? = none) : (Action.give o : Action σ ε α).Obeys c :=
  fun _ hs => .here hs h

theorem ofExcept (r : Except ε α) : (Action.ofExcept r : Action σ ε α).Obeys c := by
  cases r with
  | ok v => exact pure v
  | error e => exact fail e

theorem update {f : σ → σ} (h : ∀ s, c.inv s → c.inv (f s) ∧ c.allows s (f s)) :
    (Action.update f : Action σ ε Unit).Obeys c :=
  fun s hs => ⟨rfl, (h s hs).1, (h s hs).2⟩

theorem bind {a : Action σ ε α} {f : α → Action σ ε β} (ha : a.Obeys c)
    (hf : ∀ v, (f v).Obeys c) : (a >>= f).Obeys c :=
  fun s hs => (ha s hs).bind fun v t _ ht => hf v t ht

theorem recover {a : Action σ ε α} {h : ε → Action σ ε' α} (ha : a.Obeys c)
    (hh : ∀ e, (h e).Obeys c) : (a.recover h).Obeys c :=
  fun s hs => (ha s hs).recover fun e t _ ht => hh e t ht

theorem attempt {a : Action σ ε α} (ha : a.Obeys c) :
    (Action.attempt a : Action σ ε' (Except ε α)).Obeys c := fun s hs => (ha s hs).attempt

theorem mapError {a : Action σ ε α} (f : ε → ε') (ha : a.Obeys c) : (a.mapError f).Obeys c :=
  fun s hs => (ha s hs).mapError

/-- A call on a component obeys a contract of the whole if the component's contract is enough for
it. -/
theorem within {p : Part σ τ} {a : Action τ ε α} {d : Contract τ} (ha : a.Obeys d)
    (hget : ∀ s, c.inv s → d.inv (p.get s))
    (hset : ∀ s t, c.inv s → d.inv t → d.allows (p.get s) t →
      c.inv (p.set t s) ∧ c.allows s (p.set t s)) :
    (Action.within p a).Obeys c := by
  intro s hs
  obtain ⟨sure, inv, allowed⟩ := ha (p.get s) (hget s hs)
  obtain ⟨hinv, hallowed⟩ := hset s _ hs inv allowed
  exact ⟨sure, hinv, hallowed⟩

end Action.Obeys

end AdcCapture
