/-
  Calls that mirror each other. A mirror gives each state its counterpart; a call mirrors another
  one if, made on the counterpart of a state, it ends as the counterpart of how the other one ends,
  in the counterpart of the state that the other one leaves. The ways to put calls together respect
  this, so a call that is put together mirrors another one as soon as its steps do.
-/
import AdcCapture.Outcome

namespace AdcCapture

/-- The counterpart of a state, and the states that have one. -/
structure Mirror (σ : Type) where
  image : σ → σ
  inv : σ → Prop

/-- A state that is its own counterpart. -/
def Mirror.still (σ : Type) : Mirror σ where
  image s := s
  inv _ := True

variable {σ τ υ ε ε' κ κ' α α' β β' : Type} {M : Mirror σ} {N : Mirror τ} {O : Mirror υ}

/-- The component of a counterpart is the counterpart of the component. -/
structure Part.Mirrored (p : Part σ τ) (M : Mirror σ) (N : Mirror τ) : Prop where
  get : ∀ s, p.get (M.image s) = N.image (p.get s)
  set : ∀ t s, N.inv t → M.inv s → p.set (N.image t) (M.image s) = M.image (p.set t s)
  inv : ∀ s, M.inv s → N.inv (p.get s)
  kept : ∀ t s, N.inv t → M.inv s → M.inv (p.set t s)

theorem Part.Mirrored.andThen {p : Part σ τ} {q : Part τ υ} (hp : p.Mirrored M N)
    (hq : q.Mirrored N O) : (p.andThen q).Mirrored M O where
  get s := (congrArg q.get (hp.get s)).trans (hq.get _)
  set u s hu hs := by
    have hget := hp.inv s hs
    change p.set (q.set (O.image u) (p.get (M.image s))) (M.image s) = _
    rw [hp.get, hq.set u _ hu hget, hp.set _ s (hq.kept u _ hu hget) hs]
    rfl
  inv s hs := hq.inv _ (hp.inv s hs)
  kept u s hu hs := hp.kept _ s (hq.kept u _ hu (hp.inv s hs)) hs

/-- A value or an error, each with its counterpart. -/
def bothMap (e : ε → ε') (v : α → α') : Except ε α → Except ε' α'
  | .ok x => .ok (v x)
  | .error c => .error (e c)

/-- On the counterpart of a state the call `a'` ends as the counterpart of how `a` ends, and in the
counterpart of the state that `a` leaves. -/
def Action.Mirrors (M : Mirror σ) (e : ε → ε') (v : α → α') (a : Action σ ε α)
    (a' : Action σ ε' α') : Prop :=
  ∀ s, M.inv s →
    a' (M.image s) = (((a s).1.mapError e).map v, M.image (a s).2) ∧ M.inv (a s).2

/-- On the counterpart of a state a step gives the counterpart of its reply, and leaves the
counterpart of the state that it leaves. -/
def Mirror.Respected {ρ : Type} (M : Mirror σ) (v : ρ → ρ) (run : σ → ρ × σ) : Prop :=
  ∀ s, M.inv s → run (M.image s) = (v (run s).1, M.image (run s).2) ∧ M.inv (run s).2

namespace Action.Mirrors

variable {e : ε → ε'} {v : α → α'} {w : β → β'} {a : Action σ ε α} {a' : Action σ ε' α'}

theorem pure (x : α) : (Pure.pure x : Action σ ε α).Mirrors M e v (Pure.pure (v x)) :=
  fun _ hs => ⟨rfl, hs⟩

theorem fail (c : ε) : (Action.fail c : Action σ ε α).Mirrors M e v (.fail (e c)) :=
  fun _ hs => ⟨rfl, hs⟩

theorem give (o : Outcome ε α) :
    (Action.give o : Action σ ε α).Mirrors M e v (.give ((o.mapError e).map v)) :=
  fun _ hs => ⟨rfl, hs⟩

theorem update {f f' : σ → σ} (h : ∀ s, M.inv s → f' (M.image s) = M.image (f s) ∧ M.inv (f s)) :
    (Action.update f : Action σ ε Unit).Mirrors M e id (.update f') :=
  fun s hs => ⟨congrArg (Prod.mk _) (h s hs).1, (h s hs).2⟩

theorem ofExcept (r : Except ε α) :
    (Action.ofExcept r : Action σ ε α).Mirrors M e v (.ofExcept (bothMap e v r)) := by
  cases r with
  | ok x => exact pure x
  | error c => exact fail c

theorem bind {f : α → Action σ ε β} {f' : α' → Action σ ε' β'} (ha : a.Mirrors M e v a')
    (hf : ∀ x, (f x).Mirrors M e w (f' (v x))) : (a >>= f).Mirrors M e w (a' >>= f') := by
  intro s hs
  obtain ⟨hrun, hinv⟩ := ha s hs
  rw [Action.bind_apply, Action.bind_apply, hrun]
  rcases has : a s with ⟨o, t⟩
  rw [has] at hinv
  -- The second call runs on both sides or on neither.
  cases o with
  | ok x => exact hf x t hinv
  | error c => exact ⟨rfl, hinv⟩
  | fault b => exact ⟨rfl, hinv⟩

theorem ite {c : Prop} [Decidable c] {b : Action σ ε α} {b' : Action σ ε' α'}
    (ha : c → a.Mirrors M e v a') (hb : ¬ c → b.Mirrors M e v b') :
    (if c then a else b).Mirrors M e v (if c then a' else b') := by
  by_cases hc : c
  · rw [if_pos hc, if_pos hc]
    exact ha hc
  · rw [if_neg hc, if_neg hc]
    exact hb hc

/-- What follows may depend on the state that it starts from. -/
theorem stateBind {f : σ → Action σ ε β} {f' : σ → Action σ ε' β'}
    (hf : ∀ s, M.inv s → (f s).Mirrors M e w (f' (M.image s))) :
    (Action.state >>= f).Mirrors M e w (Action.state >>= f') :=
  fun s hs => hf s hs s hs

/-- One more step that only changes the value. -/
theorem thenPure (g : α' → β) (ha : a.Mirrors M e v a') :
    a.Mirrors M e (fun x => g (v x)) (do return g (← a')) := by
  intro s hs
  obtain ⟨hrun, hinv⟩ := ha s hs
  rw [Action.bind_apply, hrun]
  rcases has : a s with ⟨o, t⟩
  rw [has] at hinv
  cases o with
  | ok x => exact ⟨rfl, hinv⟩
  | error c => exact ⟨rfl, hinv⟩
  | fault b => exact ⟨rfl, hinv⟩

theorem recover {k : κ → κ'} {h : ε → Action σ κ α} {h' : ε' → Action σ κ' α'}
    (ha : a.Mirrors M e v a') (hh : ∀ c, (h c).Mirrors M k v (h' (e c))) :
    (a.recover h).Mirrors M k v (a'.recover h') := by
  intro s hs
  obtain ⟨hrun, hinv⟩ := ha s hs
  unfold Action.recover
  rw [hrun]
  rcases has : a s with ⟨o, t⟩
  rw [has] at hinv
  cases o with
  | ok x => exact ⟨rfl, hinv⟩
  | error c => exact hh c t hinv
  | fault b => exact ⟨rfl, hinv⟩

theorem attempt {k : κ → κ'} (ha : a.Mirrors M e v a') :
    (Action.attempt a : Action σ κ _).Mirrors M k (bothMap e v) (.attempt a') := by
  intro s hs
  obtain ⟨hrun, hinv⟩ := ha s hs
  unfold Action.attempt
  rw [hrun]
  rcases has : a s with ⟨o, t⟩
  rw [has] at hinv
  cases o with
  | ok x => exact ⟨rfl, hinv⟩
  | error c => exact ⟨rfl, hinv⟩
  | fault b => exact ⟨rfl, hinv⟩

theorem mapError {k : κ → κ'} {f : ε → κ} {f' : ε' → κ'} (ha : a.Mirrors M e v a')
    (hf : ∀ c, f' (e c) = k (f c)) : (a.mapError f).Mirrors M k v (a'.mapError f') := by
  intro s hs
  obtain ⟨hrun, hinv⟩ := ha s hs
  unfold Action.mapError
  rw [hrun]
  rcases has : a s with ⟨o, t⟩
  rw [has] at hinv
  cases o with
  | ok x => exact ⟨rfl, hinv⟩
  | error c => exact ⟨congrArg (fun c => (Outcome.error c, _)) (hf c), hinv⟩
  | fault b => exact ⟨rfl, hinv⟩

theorem within {p : Part σ τ} {a : Action τ ε α} {a' : Action τ ε' α'} (hp : p.Mirrored M N)
    (ha : a.Mirrors N e v a') : (Action.within p a).Mirrors M e v (.within p a') := by
  intro s hs
  obtain ⟨hrun, hinv⟩ := ha _ (hp.inv s hs)
  rw [Action.within_apply, Action.within_apply, hp.get, hrun]
  exact ⟨congrArg (Prod.mk _) (hp.set _ s hinv hs), hp.kept _ s hinv hs⟩

/-- Where states are their own counterparts, every call mirrors itself. -/
theorem still (a : Action σ ε α) : a.Mirrors (.still σ) id id a := by
  intro s _
  refine ⟨Prod.ext ?_ rfl, trivial⟩
  cases h : (a s).1 <;> exact h

end Action.Mirrors

end AdcCapture
