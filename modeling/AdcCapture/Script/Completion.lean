/-
  Scripts on a completion: set it up, withdraw it, signal it and wait for it, in any order.
-/
import AdcCapture.Completion

namespace AdcCapture

inductive CompletionStep (α : Type) where
  | init
  | invalidate
  | signal (value : α)
  | wait (polls : UInt32)
deriving DecidableEq, Repr

/-- How a step on a completion ended. -/
inductive CompletionAnswer (α : Type) where
  | done
  | value (v : α)
  | timedOut
  | fault (broken : Fault)
deriving DecidableEq, Repr

namespace CompletionStep

variable {α : Type}

def run (s : CompletionStep α) (c : Completion α) : CompletionAnswer α × Completion α :=
  match s with
  | init => (.done, c.init)
  | invalidate => (.done, c.invalidate)
  | signal v =>
    match Completion.signal v c with
    | (.ok _, c) => (.done, c)
    | (.fault b, c) => (.fault b, c)
  | wait polls =>
    match Completion.wait polls.toNat c with
    | (.ok v, c) => (.value v, c)
    | (.error _, c) => (.timedOut, c)
    | (.fault b, c) => (.fault b, c)

/-- Runs steps in order; with each answer comes the completion after the step. -/
def runAll : List (CompletionStep α) → Completion α → List (CompletionAnswer α × Completion α)
  | [], _ => []
  | s :: rest, c =>
    match s.run c with
    | (a, c) => (a, c) :: runAll rest c

end CompletionStep

end AdcCapture
