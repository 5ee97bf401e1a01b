/-
  The calls of the platform that a record tells of. Four things are taken from the platform while
  an interrupt is bound; each is taken by one call, if that succeeds, and given back by another,
  whether that succeeds or not (`Resource.held`). Binding takes them on a fixed way up; a call that
  fails on it is followed by the way back, which gives back what was taken until then and nothing
  else (`SetUpEnds`). `Brackets` puts the two together over a whole run, and whatever a row of
  brackets holds is one of each resource or none.
-/
import AdcCapture.Proofs.Soundness

namespace AdcCapture

/-- The call of the platform that an event tells of, and whether it went well. -/
def Event.platformCall? : Event → Option (PlatformCall × Bool)
  | platform c _ ok => some (c, ok)
  | _ => none

/-- The call of the platform that an event tells of, and the interrupt number passed to it. -/
def Event.lineCall? : Event → Option (PlatformCall × Option UInt32)
  | platform c irq _ => some (c, irq)
  | _ => none

/-! ## Resources -/

/-- What is taken from the platform while an interrupt is bound. -/
inductive Resource where
  | line
  | controller
  | callback
  /-- That the interrupt is enabled. -/
  | interrupt
deriving DecidableEq, Repr

namespace Resource

def all : List Resource := [line, controller, callback, interrupt]

/-- The call that takes a resource. -/
def taking : Resource → PlatformCall
  | line => .gpioAcquire
  | controller => .irqInit
  | callback => .irqRegister
  | interrupt => .irqEnable

/-- The call that gives a resource back. -/
def giving : Resource → PlatformCall
  | line => .gpioRelease
  | controller => .irqRemove
  | callback => .irqUnregister
  | interrupt => .irqDisable

/-- How often a resource was taken with success, less how often it was given back. -/
def held (r : Resource) (calls : List (PlatformCall × Bool)) : Int :=
  (calls.count (r.taking, true) : Int) - ((calls.map Prod.fst).count r.giving : Int)

theorem held_append (r : Resource) (calls calls' : List (PlatformCall × Bool)) :
    r.held (calls ++ calls') = r.held calls + r.held calls' := by
  unfold held
  rw [List.map_append, List.count_append, List.count_append]
  omega

end Resource

namespace PlatformCall

/-- The way up: the calls that a binding makes, in their order. -/
def setUp : List PlatformCall :=
  [gpioAcquire, gpioSetInput, irqInit, irqRegister, irqTrigger, irqEnable]

/-- The way back from a row of calls: what they took is given back, the latest first. -/
def wayBack (done : List PlatformCall) : List PlatformCall :=
  ((Resource.all.filter fun r => r.taking ∈ done).map Resource.giving).reverse

example : wayBack setUp = [irqDisable, irqUnregister, irqRemove, gpioRelease] := rfl

/-- However far the way up was gone, the way back gives back what was taken and takes nothing. -/
theorem balanced {done : List PlatformCall} (h : done <+: setUp) (r : Resource) :
    done.count r.giving = 0 ∧ r.taking ∉ wayBack done ∧
      (wayBack done).count r.giving = done.count r.taking := by
  have hall : ∀ k ≤ setUp.length, (setUp.take k).count r.giving = 0 ∧
      r.taking ∉ wayBack (setUp.take k) ∧
      (wayBack (setUp.take k)).count r.giving = (setUp.take k).count r.taking := by
    cases r <;> decide
  rw [List.prefix_iff_eq_take.mp h]
  exact hall _ h.length_le

end PlatformCall

open PlatformCall (setUp wayBack balanced)

namespace Resource

variable {done : List PlatformCall} (r : Resource)

theorem held_done (h : done <+: setUp) : r.held (done.map (·, true)) = done.count r.taking := by
  have hpair : (done.map (·, true)).count (r.taking, true) = done.count r.taking := by
    rw [List.count_eq_countP, List.countP_map, List.count_eq_countP]
    apply List.countP_congr
    simp
  have hfirst : (done.map (·, true)).map Prod.fst = done := by
    rw [List.map_map]
    exact List.map_id _
  unfold held
  rw [hpair, hfirst, (balanced h r).1]
  omega

theorem held_back (h : done <+: setUp) {back : List (PlatformCall × Bool)}
    (hback : back.map Prod.fst = wayBack done) : r.held back = -(done.count r.taking : Int) := by
  obtain ⟨-, htaking, hcount⟩ := balanced h r
  have hnone : back.count (r.taking, true) = 0 := by
    rw [List.count_eq_zero]
    intro hmem
    exact htaking (hback ▸ List.mem_map_of_mem hmem)
  unfold held
  rw [hnone, hback, hcount]
  omega

theorem held_failed {c : PlatformCall} (hc : c ∈ setUp) : r.held [(c, false)] = 0 := by
  have hgiving : ∀ c ∈ setUp, c ≠ r.giving := by cases r <;> decide
  unfold held
  simp [hgiving c hc]

end Resource

/-- The rows of calls that leave nothing behind but one bound interrupt, or nothing at all. -/
inductive Brackets : Bool → List (PlatformCall × Bool) → Prop where
  | none : Brackets false []
  /-- A call on the way up failed, and the way back was gone. -/
  | failed {l back : List (PlatformCall × Bool)} {done rest : List PlatformCall} {c : PlatformCall}
      (h : Brackets false l) (hup : setUp = done ++ c :: rest)
      (hback : back.map Prod.fst = wayBack done) :
      Brackets false (l ++ (done.map (·, true) ++ (c, false) :: back))
  | bound {l : List (PlatformCall × Bool)} (h : Brackets false l) :
      Brackets true (l ++ setUp.map (·, true))
  | unbound {l back : List (PlatformCall × Bool)} (h : Brackets true l)
      (hback : back.map Prod.fst = wayBack setUp) : Brackets false (l ++ back)

theorem Brackets.held {bound : Bool} {calls : List (PlatformCall × Bool)}
    (h : Brackets bound calls) (r : Resource) : r.held calls = if bound then 1 else 0 := by
  have hwhole : setUp <+: setUp := List.prefix_refl _
  have hone : setUp.count r.taking = 1 := by cases r <;> decide
  induction h with
  | none => simp [Resource.held]
  | @failed l back done rest c _ hup hback ih =>
    have hdone : done <+: setUp := ⟨c :: rest, hup.symm⟩
    have hc : c ∈ setUp := by simp [hup]
    have hsplit : (c, false) :: back = [(c, false)] ++ back := rfl
    rw [Resource.held_append, Resource.held_append, hsplit, Resource.held_append, ih,
      r.held_done hdone, r.held_failed hc, r.held_back hdone hback, if_neg Bool.false_ne_true]
    omega
  | bound _ ih =>
    rw [Resource.held_append, ih, r.held_done hwhole, hone]
    simp
  | unbound _ hback ih =>
    rw [Resource.held_append, ih, r.held_back hwhole hback, hone]
    simp

/-! ## The platform calls of a board -/

namespace Board

/-- The calls of the platform so far, the earliest first. -/
def platformCalls (b : Board) : List (PlatformCall × Bool) :=
  (b.record.filterMap Event.platformCall?).reverse

/-- The calls of the platform so far with the interrupt numbers passed to them, the earliest
first. -/
def lineCalls (b : Board) : List (PlatformCall × Option UInt32) :=
  (b.record.filterMap Event.lineCall?).reverse

theorem platformCalls_cons {b : Board} {e : Event} (h : e.callsPlatform = false) :
    ({ b with record := e :: b.record } : Board).platformCalls = b.platformCalls := by
  have hnone : e.platformCall? = none := by
    cases e with
    | platform c irq ok => cases h
    | _ => rfl
  exact congrArg List.reverse (List.filterMap_cons_none hnone)

theorem lineCalls_cons {b : Board} {e : Event} (h : e.callsPlatform = false) :
    ({ b with record := e :: b.record } : Board).lineCalls = b.lineCalls := by
  have hnone : e.lineCall? = none := by
    cases e with
    | platform c irq ok => cases h
    | _ => rfl
  exact congrArg List.reverse (List.filterMap_cons_none hnone)

theorem platformCalls_called (b : Board) (c : PlatformCall) (irq : Option UInt32) (ok : Bool)
    (n : Nat) :
    ({ b with calls := n, record := .platform c irq ok :: b.record } : Board).platformCalls =
      b.platformCalls ++ [(c, ok)] := by
  have hsome : Event.platformCall? (.platform c irq ok) = some (c, ok) := rfl
  unfold platformCalls
  rw [List.filterMap_cons_some hsome, List.reverse_cons]

theorem lineCalls_called (b : Board) (c : PlatformCall) (irq : Option UInt32) (ok : Bool)
    (n : Nat) :
    ({ b with calls := n, record := .platform c irq ok :: b.record } : Board).lineCalls =
      b.lineCalls ++ [(c, irq)] := by
  have hsome : Event.lineCall? (.platform c irq ok) = some (c, irq) := rfl
  unfold lineCalls
  rw [List.filterMap_cons_some hsome, List.reverse_cons]

/-- The platform is left alone. -/
def Rules.aloof : Rules where
  permits x := x.callsPlatform = false
  allows b c := c.platformCalls = b.platformCalls
  refl _ := rfl
  trans h h' := h'.trans h
  counted _ := rfl
  noted _ _ _ h := platformCalls_cons h
  written _ _ _ _ := rfl
  called _ _ _ _ h := nomatch h
  reserved _ _ _ := rfl

theorem Rules.free_aloof : aloof.Free := fun _ h => h

theorem platformCalls_noted (m : Message) (b : Board) :
    (b.noted m).platformCalls = b.platformCalls :=
  platformCalls_cons rfl

/-- A call of the platform goes well, or it fails and says so; either way it is on record. -/
theorem platform_ends (c : PlatformCall) (irq : Option UInt32) (b : Board) :
    (∃ d ok, platform c irq b = (.ok (), d) ∧ d.platformCalls = b.platformCalls ++ [(c, ok)] ∧
        d.lineCalls = b.lineCalls ++ [(c, irq)] ∧ (canFail c = true → ok = true)) ∨
      ∃ d, platform c irq b = (.error c, d) ∧ d.platformCalls = b.platformCalls ++ [(c, false)] ∧
        d.lineCalls = b.lineCalls ++ [(c, irq)] := by
  unfold platform
  dsimp only
  split
  · rename_i h
    obtain ⟨hrefused, -⟩ := Bool.and_eq_true_iff.mp h
    refine .inr ⟨_, rfl, ?_, lineCalls_called b c irq _ _⟩
    rw [platformCalls_called, hrefused]
    rfl
  · rename_i h
    refine .inl ⟨_, _, rfl, platformCalls_called b c irq _ _, lineCalls_called b c irq _ _,
      fun hcan => ?_⟩
    simpa [hcan] using h

end Board

/-! ## The way back -/

section Ways

variable {ε α : Type}

/-- The call goes through these calls of the platform, passing them these interrupt numbers, whether
they succeed or not. -/
def Action.GoesThrough (a : Action Board ε Unit) (cs : List (PlatformCall × Option UInt32)) :
    Prop :=
  ∀ b, ∃ d back, a b = (.ok (), d) ∧ d.platformCalls = b.platformCalls ++ back ∧
    back.map Prod.fst = cs.map Prod.fst ∧ d.lineCalls = b.lineCalls ++ cs

/-- The call goes through these calls of the platform and then fails. -/
def Action.Retreats (a : Action Board ε α) (cs : List PlatformCall) : Prop :=
  ∀ b, ∃ e d back, a b = (.error e, d) ∧ d.platformCalls = b.platformCalls ++ back ∧
    back.map Prod.fst = cs

namespace Action.GoesThrough

variable {a : Action Board ε Unit} {cs ds : List (PlatformCall × Option UInt32)}

theorem bind (ha : a.GoesThrough cs) {f : Unit → Action Board ε Unit}
    (hf : ∀ u, (f u).GoesThrough ds) : (a >>= f).GoesThrough (cs ++ ds) := by
  intro b
  obtain ⟨d, back, hrun, hd, hback, hline⟩ := ha b
  obtain ⟨e, back', hrun', he, hback', hline'⟩ := hf () d
  refine ⟨e, back ++ back', (Action.bind_ok _ hrun f).trans hrun', ?_, ?_, ?_⟩
  · rw [he, hd, List.append_assoc]
  · rw [List.map_append, List.map_append, hback, hback']
  · rw [hline', hline, List.append_assoc]

theorem retreats (ha : a.GoesThrough cs) {f : Unit → Action Board ε α} {es : List PlatformCall}
    (hf : ∀ u, (f u).Retreats es) : (a >>= f).Retreats (cs.map Prod.fst ++ es) := by
  intro b
  obtain ⟨d, back, hrun, hd, hback, -⟩ := ha b
  obtain ⟨x, e, back', hrun', he, hback'⟩ := hf () d
  refine ⟨x, e, back ++ back', (Action.bind_ok _ hrun f).trans hrun', ?_, ?_⟩
  · rw [he, hd, List.append_assoc]
  · rw [List.map_append, hback, hback']

end Action.GoesThrough

namespace Fifo

open Board (platform)

theorem platform_goesThrough (c : PlatformCall) (irq : Option UInt32)
    {undo : PlatformCall → Action Board ε Unit} (hundo : (undo c).GoesThrough []) :
    ((platform c irq).recover undo).GoesThrough [(c, irq)] := by
  intro b
  rcases Board.platform_ends c irq b with ⟨d, ok, hrun, hd, hline, -⟩ | ⟨d, hrun, hd, hline⟩
  · exact ⟨d, _, Action.recover_ok _ hrun _, hd, rfl, hline⟩
  · obtain ⟨e, back, hrun', he, hback, hline'⟩ := hundo d
    refine ⟨e, [(c, false)], (Action.recover_error _ hrun _).trans hrun', ?_, rfl, ?_⟩
    · rw [he, hd, List.map_eq_nil_iff.mp hback, List.append_nil]
    · rw [hline', hline, List.append_nil]

theorem log_goesThrough (m : Message) : (Board.log m : Action Board ε Unit).GoesThrough [] :=
  fun b => ⟨_, [], rfl, by rw [Board.platformCalls_cons rfl, List.append_nil], rfl,
    by rw [Board.lineCalls_cons rfl, List.append_nil]⟩

theorem pure_goesThrough : (pure () : Action Board ε Unit).GoesThrough [] :=
  fun b => ⟨b, [], rfl, (List.append_nil _).symm, rfl, (List.append_nil _).symm⟩

theorem releaseLine_goesThrough :
    (releaseLine : Action Board ε Unit).GoesThrough [(.gpioRelease, none)] :=
  platform_goesThrough _ _ pure_goesThrough

theorem removeController_goesThrough :
    (removeController : Action Board ε Unit).GoesThrough [(.irqRemove, none)] :=
  platform_goesThrough _ _ pure_goesThrough

/-- Taking the platform side down: disable, if it was enabled, and unregister the interrupt, remove
the controller and release the line. -/
theorem teardown_goesThrough (irq : UInt32) (enabled : Bool) :
    (teardown irq enabled : Action Board ε Unit).GoesThrough
      ((if enabled then [(.irqDisable, some irq)] else []) ++
        [(.irqUnregister, some irq), (.irqRemove, none), (.gpioRelease, none)]) := by
  have hrest : (do
      (platform .irqUnregister (some irq)).recover fun _ => Board.log (.unregisterFailed irq)
      removeController
      releaseLine : Action Board ε Unit).GoesThrough
        [(.irqUnregister, some irq), (.irqRemove, none), (.gpioRelease, none)] :=
    (platform_goesThrough _ _ (log_goesThrough _)).bind fun _ =>
      removeController_goesThrough.bind fun _ => releaseLine_goesThrough
  cases enabled with
  | true => exact (platform_goesThrough _ _ (log_goesThrough _)).bind fun _ => hrest
  | false => exact pure_goesThrough.bind fun _ => hrest

theorem lineError_retreats (c : PlatformCall) : (lineError c : Call Board α).Retreats [] :=
  (log_goesThrough _).retreats fun _ b => ⟨_, b, [], rfl, (List.append_nil _).symm, rfl⟩

theorem controllerError_retreats (c : PlatformCall) :
    (controllerError c : Call Board α).Retreats [] :=
  (log_goesThrough _).retreats fun _ b => ⟨_, b, [], rfl, (List.append_nil _).symm, rfl⟩

/-! ## The way up -/

/-- How setting the platform up can end, after the calls `l`. -/
inductive SetUpEnds (l : List (PlatformCall × Bool)) : Outcome Cause Unit × Board → Prop where
  | refused {done rest : List PlatformCall} {c : PlatformCall}
      {back : List (PlatformCall × Bool)} {e : Cause} {b : Board}
      (hup : setUp = done ++ c :: rest) (hback : back.map Prod.fst = wayBack done)
      (h : b.platformCalls = l ++ (done.map (·, true) ++ (c, false) :: back)) :
      SetUpEnds l (.error e, b)
  | up {b : Board} (h : b.platformCalls = l ++ setUp.map (·, true)) : SetUpEnds l (.ok (), b)

section Climb

variable (done : List PlatformCall) {rest : List PlatformCall} {c : PlatformCall}
  (irq : Option UInt32) (hup : setUp = done ++ c :: rest) (undo : PlatformCall → Call Board Unit)
  (hundo : (undo c).Retreats (wayBack done))
  {l : List (PlatformCall × Bool)} {b : Board} (hb : b.platformCalls = l ++ done.map (·, true))

include hup hundo hb

/-- One call of the way up, after those that are done: it goes well, or the way back is gone. -/
theorem climb :
    (∃ d, platform c irq b = (.ok (), d) ∧ d.platformCalls = l ++ (done ++ [c]).map (·, true)) ∨
      ∃ p e d, platform c irq b = (.error c, p) ∧ undo c p = (.error e, d) ∧
        SetUpEnds l (.error e, d) := by
  have hc : c ∈ setUp := by simp [hup]
  have hcan : ∀ c ∈ setUp, Board.canFail c = true := by decide
  rcases Board.platform_ends c irq b with ⟨d, ok, hrun, hd, -, hok⟩ | ⟨p, hrun, hp, -⟩
  · refine .inl ⟨d, hrun, ?_⟩
    rw [hd, hb, hok (hcan c hc), List.map_append, List.append_assoc]
    rfl
  · obtain ⟨e, d, back, hrun', hd, hback⟩ := hundo p
    refine .inr ⟨p, e, d, hrun, hrun', .refused hup hback ?_⟩
    rw [hd, hp, hb]
    simp

theorem climb_bind {next : Unit → Call Board Unit}
    (hnext : ∀ d, d.platformCalls = l ++ (done ++ [c]).map (·, true) → SetUpEnds l (next () d)) :
    SetUpEnds l (((platform c irq).recover undo >>= next) b) := by
  rcases climb done irq hup undo hundo hb with ⟨d, hrun, hd⟩ | ⟨p, e, d, hrun, hrun', hends⟩
  · rw [Action.bind_ok _ (Action.recover_ok _ hrun _)]
    exact hnext d hd
  · rw [Action.bind_error _ ((Action.recover_error _ hrun _).trans hrun')]
    exact hends

end Climb

theorem setUpPlatform_ends (irq : UInt32) (b : Board) :
    SetUpEnds b.platformCalls (setUpPlatform irq b) := by
  have hgive : ∀ c, (do releaseLine; controllerError c : Call Board Unit).Retreats [.gpioRelease] :=
    fun c => releaseLine_goesThrough.retreats fun _ => controllerError_retreats c
  apply climb_bind [] none rfl _ (lineError_retreats _) (List.append_nil _).symm
  intro b₁ hb₁
  apply climb_bind [.gpioAcquire] none rfl _
    (releaseLine_goesThrough.retreats fun _ => lineError_retreats _) hb₁
  intro b₂ hb₂
  apply climb_bind [.gpioAcquire, .gpioSetInput] none rfl _ (hgive _) hb₂
  intro b₃ hb₃
  have hremove : ∀ c, (do removeController; releaseLine; controllerError c :
      Call Board Unit).Retreats [.irqRemove, .gpioRelease] :=
    fun c => removeController_goesThrough.retreats fun _ => hgive c
  apply climb_bind [.gpioAcquire, .gpioSetInput, .irqInit] (some irq) rfl _ (hremove _) hb₃
  intro b₄ hb₄
  let down := fun c => (do teardown irq false; controllerError c : Call Board Unit)
  have hdown : ∀ c, (down c).Retreats [.irqUnregister, .irqRemove, .gpioRelease] :=
    fun c => (teardown_goesThrough irq false).retreats fun _ => controllerError_retreats c
  -- the last two calls share their way back, for there is nothing to give back between them
  rcases climb [.gpioAcquire, .gpioSetInput, .irqInit, .irqRegister] (some irq) rfl down (hdown _)
    hb₄ with ⟨b₅, htrigger, hb₅⟩ | ⟨p, e, d, htrigger, hback, hends⟩
  · rcases climb [.gpioAcquire, .gpioSetInput, .irqInit, .irqRegister, .irqTrigger] (some irq) rfl
      down (hdown _) hb₅ with ⟨b₆, henable, hb₆⟩ | ⟨p, e, d, henable, hback, hends⟩
    · rw [Action.recover_ok _ ((Action.bind_ok _ htrigger _).trans henable)]
      exact .up hb₆
    · have hfirst :=
        (Action.bind_ok b₄ htrigger fun _ => platform .irqEnable (some irq)).trans henable
      have hends' := (Action.recover_error b₄ hfirst down).trans hback
      exact hends' ▸ hends
  · have hfirst := Action.bind_error b₄ htrigger fun _ => platform .irqEnable (some irq)
    have hends' := (Action.recover_error b₄ hfirst down).trans hback
    exact hends' ▸ hends

end Fifo

end Ways

end AdcCapture
