/-
  A one-slot completion: it is set up before each use, signalled at most once with a value, and
  waited on for a bounded number of looks. It may only be signalled or waited on while it carries
  its signature.
-/
import AdcCapture.Outcome

namespace AdcCapture

/-- A wait that ran out of looks. -/
structure TimedOut where
deriving DecidableEq, Repr

structure Completion (α : Type) where
  /-- Whether it has been set up and not withdrawn since. -/
  signed : Bool := false
  /-- Whether a value was published since it was last set up. -/
  done : Bool := false
  /-- The value published last, if there ever was one. -/
  slot : Option α := none

namespace Completion

variable {α : Type}

/-- Clears the done flag and stamps the signature; the old value stays in the slot. -/
def init (c : Completion α) : Completion α := { c with signed := true, done := false }

/-- Takes the signature away and nothing else. -/
def invalidate (c : Completion α) : Completion α := { c with signed := false }

/-- Publishes a value. The value is stored before a second signal is found out. -/
def signal (v : α) : Action (Completion α) Empty Unit := fun c =>
  if c.signed then
    if c.done then (.fault .completionTwice, { c with slot := some v })
    else (.ok (), { c with done := true, slot := some v })
  else (.fault .completionUnsigned, c)

/-- The value, if one is published. -/
def result? (c : Completion α) : Option α := if c.done then c.slot else none

/-- Looks once, and then at most `polls` times more, until a value is there. -/
def look (c : Completion α) : Nat → Option α
  | 0 => c.result?
  | polls + 1 =>
    match c.result? with
    | some v => some v
    | none => c.look polls

/-- However often one looks, a value is there at once or not at all. -/
theorem look_eq (c : Completion α) (polls : Nat) : c.look polls = c.result? := by
  induction polls with
  | zero => rfl
  | succ n ih =>
    rw [look, ih]
    cases c.result? <;> rfl

/-- Waits for a value without taking it out of the slot. -/
def wait (polls : Nat) : Action (Completion α) TimedOut α := fun c =>
  if c.signed then
    match c.look polls with
    | some v => (.ok v, c)
    | none => (.error {}, c)
  else (.fault .completionUnsigned, c)

end Completion

end AdcCapture
