/-
  A completion as a cell with one slot. What it has to hold is read off the steps that were done on
  it: whether it carries its signature (`CompletionStep.signed`), and which values were published
  since it was last set up (`CompletionStep.published`). Every step keeps a completion in agreement
  with its past (`CompletionStep.run_agrees`), so every step of every script is answered by the
  past alone (`CompletionStep.runAll_oneSlot`).
-/
import AdcCapture.Script.Completion

namespace AdcCapture

namespace CompletionStep

variable {α : Type}

/-! ## What the past says -/

/-- Whether the last setup or withdrawal was a setup. A past has its latest step first. -/
def signed : List (CompletionStep α) → Bool
  | [] => false
  | .init :: _ => true
  | .invalidate :: _ => false
  | .signal _ :: past => signed past
  | .wait _ :: past => signed past

/-- The values of the signals since the last setup, but for those that came without a signature;
the latest first. -/
def published : List (CompletionStep α) → List α
  | [] => []
  | .init :: _ => []
  | .invalidate :: past => published past
  | .signal v :: past => if signed past then v :: published past else published past
  | .wait _ :: past => published past

/-- The answer that a step has after this past. -/
def answer (past : List (CompletionStep α)) : CompletionStep α → CompletionAnswer α
  | .init => .done
  | .invalidate => .done
  | .signal _ =>
    if signed past then
      match published past with
      | [] => .done
      | _ :: _ => .fault .completionTwice
    else .fault .completionUnsigned
  | .wait _ =>
    if signed past then
      match published past with
      | [] => .timedOut
      | v :: _ => .value v
    else .fault .completionUnsigned

/-! ## Single steps -/

theorem run_signal (v : α) (c : Completion α) :
    run (.signal v) c =
      if c.signed then
        (if c.done then .fault .completionTwice else .done, { c with done := true, slot := some v })
      else (.fault .completionUnsigned, c) := by
  rcases c with ⟨s, d, w⟩
  cases s <;> cases d <;> rfl

/-- A wait of any length is answered by what is there when it begins. -/
theorem run_wait (polls : UInt32) (c : Completion α) :
    run (.wait polls) c =
      (if c.signed then c.result?.elim .timedOut .value else .fault .completionUnsigned, c) := by
  unfold run Completion.wait
  dsimp only
  rw [Completion.look_eq]
  cases c.signed <;> cases c.result? <;> rfl

end CompletionStep

/-! ## Agreement with the past -/

/-- The completion is as steps with this past leave a new one. -/
structure Completion.Agrees {α : Type} (c : Completion α) (past : List (CompletionStep α)) :
    Prop where
  signed_eq : c.signed = CompletionStep.signed past
  done_iff : c.done = true ↔ CompletionStep.published past ≠ []
  result?_eq : c.result? = (CompletionStep.published past).head?

namespace CompletionStep

variable {α : Type} {c : Completion α} {past : List (CompletionStep α)}

theorem agrees_new : ({} : Completion α).Agrees [] where
  signed_eq := rfl
  done_iff := by simp [published]
  result?_eq := rfl

/-- A step is answered by the past, and keeps the completion in agreement with it. -/
theorem run_agrees (h : c.Agrees past) (s : CompletionStep α) :
    ∃ d, s.run c = (answer past s, d) ∧ d.Agrees (s :: past) := by
  have hsigned := h.signed_eq
  have hdone := h.done_iff
  have hresult := h.result?_eq
  cases s with
  | init => exact ⟨_, rfl, rfl, by simp [Completion.init, published], rfl⟩
  | invalidate => exact ⟨_, rfl, rfl, hdone, hresult⟩
  | signal v =>
    rw [run_signal]
    unfold answer
    cases hs : signed past with
    | false =>
      have hpublished : published (.signal v :: past) = published past := by
        rw [published, hs, if_neg Bool.false_ne_true]
      rw [hsigned, hs]
      exact ⟨c, rfl, hsigned, hpublished ▸ hdone, hpublished ▸ hresult⟩
    | true =>
      have hpublished : published (.signal v :: past) = v :: published past := by
        rw [published, hs, if_pos rfl]
      rw [hsigned, hs, if_pos rfl, if_pos rfl]
      refine ⟨{ signed := true, done := true, slot := some v }, ?_, hs.symm, ?_, ?_⟩
      · cases hp : published past with
        | nil => rw [if_neg fun hd => hdone.mp hd hp]
        | cons w rest => rw [if_pos (hdone.mpr (hp ▸ List.cons_ne_nil w rest))]
      · rw [hpublished]
        exact ⟨fun _ => List.cons_ne_nil v _, fun _ => rfl⟩
      · rw [hpublished]
        rfl
  | wait polls =>
    rw [run_wait, hsigned, hresult]
    refine ⟨c, ?_, hsigned, hdone, hresult⟩
    unfold answer
    cases signed past <;> cases published past <;> rfl

/-! ## Runs -/

/-- The completion after steps in order. -/
def final (steps : List (CompletionStep α)) (c : Completion α) : Completion α :=
  steps.foldl (fun c s => (s.run c).2) c

theorem final_agrees (steps : List (CompletionStep α)) (h : c.Agrees past) :
    (final steps c).Agrees (steps.reverse ++ past) := by
  induction steps generalizing c past with
  | nil => exact h
  | cons s rest ih =>
    obtain ⟨d, hrun, hd⟩ := run_agrees h s
    have hrest := ih hd
    unfold final
    rw [List.foldl_cons, hrun, List.reverse_cons, List.append_assoc]
    exact hrest

theorem getElem?_runAll (before after : List (CompletionStep α)) (s : CompletionStep α)
    (c : Completion α) :
    (runAll (before ++ s :: after) c)[before.length]? = some (s.run (final before c)) := by
  induction before generalizing c with
  | nil => rfl
  | cons t rest ih => exact ih (t.run c).2

theorem final_concat (before : List (CompletionStep α)) (s : CompletionStep α) (c : Completion α) :
    final (before ++ [s]) c = (s.run (final before c)).2 := by
  unfold final
  rw [List.foldl_append]
  rfl

/-- If a completion is done, its slot holds the value published last. -/
theorem slot_eq (h : c.Agrees past) (hdone : c.done = true) :
    ∃ v rest, published past = v :: rest ∧ c.slot = some v := by
  have hresult := h.result?_eq
  unfold Completion.result? at hresult
  rw [if_pos hdone] at hresult
  cases hp : published past with
  | nil => exact absurd hp (h.done_iff.mp hdone)
  | cons v rest =>
    rw [hp] at hresult
    exact ⟨v, rest, rfl, hresult⟩

/-- Without a signature nothing is changed. -/
theorem run_unsigned {s : CompletionStep α} (h : (s.run c).1 = .fault .completionUnsigned) :
    (s.run c).2 = c := by
  cases s with
  | init => cases h
  | invalidate => cases h
  | signal v =>
    rw [run_signal] at h ⊢
    split at h
    · split at h <;> cases h
    · rw [if_neg ‹_›]
  | wait polls => rw [run_wait]

/-- Every step of every script on a new completion is answered by the steps before it: a signal or
a wait is refused, and changes nothing, if the last setup or withdrawal was not a setup; a further
signal after a value was published breaks an assertion; and a wait of any length gives the value
published last, and leaves it there, or runs out if there is none. The completion is done exactly
while a value is published, and then holds the last one. A withdrawal takes neither away. -/
theorem runAll_oneSlot (before after : List (CompletionStep α)) (s : CompletionStep α) :
    let past := before.reverse
    let c : Completion α := final before {}
    let d : Completion α := final (before ++ [s]) {}
    (runAll (before ++ s :: after) {})[before.length]? = some (answer past s, d) ∧
      (d.done = true ↔ published (s :: past) ≠ []) ∧
      (d.done = true → ∃ v rest, published (s :: past) = v :: rest ∧ d.slot = some v) ∧
      (answer past s = .fault .completionUnsigned → d = c) ∧
      (∀ polls, s = .wait polls → d = c) ∧
      (s = .invalidate → d.done = c.done ∧ d.slot = c.slot) := by
  intro past c d
  have hc : c.Agrees past := by
    have h := final_agrees before agrees_new
    rwa [List.append_nil] at h
  have hd : d = (s.run c).2 := final_concat before s {}
  obtain ⟨d', hrun, hd'⟩ := run_agrees hc s
  obtain rfl : d = d' := hd.trans (congrArg Prod.snd hrun)
  refine ⟨?_, hd'.done_iff, slot_eq hd', fun hanswer => ?_, ?_, ?_⟩
  · rw [getElem?_runAll]
    exact congrArg some hrun
  · exact hd.trans (run_unsigned ((congrArg Prod.fst hrun).trans hanswer))
  · rintro polls rfl
    rw [hd, run_wait]
  · rintro rfl
    rw [hd]
    exact ⟨rfl, rfl⟩

end CompletionStep

end AdcCapture
