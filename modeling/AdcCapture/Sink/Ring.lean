/-
  A byte ring for one producer and one consumer. One slot stays empty, so that a full ring and an
  empty one can be told apart by head and tail alone. A block that crosses the end of the slots is
  copied in two stretches. Places are computed as 64-bit sizes, and a stretch has to lie inside
  the array it is taken from or put into; `push_ne_fault` and `pop_ne_fault` say that neither can
  go wrong, so a ring can be a sink, and can be scripted, without faults.
-/
import AdcCapture.Sink.Basic
import AdcCapture.Size

namespace AdcCapture

/-- A block was refused because it does not fit. -/
structure BufferFull where
deriving DecidableEq, Repr

/-! ## Stretches of an array -/

namespace Stretch

variable {ε : Type} {n : Nat}

/-- Puts bytes one after another, from a place on. -/
def put (v : Vector UInt8 n) (start : Nat) : List UInt8 → Vector UInt8 n
  | [] => v
  | b :: rest => put (v.setIfInBounds start b) (start + 1) rest

/-- Overwrites the stretch from `start` that is as long as `bytes`. -/
def write (v : Vector UInt8 n) (start : Nat) (bytes : List UInt8) :
    Outcome ε (Vector UInt8 n) := do
  let stop ← Size.add start bytes.length
  if stop ≤ n then .ok (put v start bytes) else .fault .outOfRange

/-- The bytes of the stretch of the given length from `start`. -/
def read (v : Vector UInt8 n) (start length : Nat) : Outcome ε (List UInt8) := do
  let stop ← Size.add start length
  if stop ≤ n then .ok ((List.range length).map fun i => v.getD (start + i) 0)
  else .fault .outOfRange

end Stretch

structure Ring where
  /-- The number of slots. -/
  places : Nat
  slots : Vector UInt8 places
  /-- Where the next byte is written. -/
  head : Fin places
  /-- Where the oldest byte is. -/
  tail : Fin places
  two_le : 2 ≤ places
  /-- No array in memory is larger. -/
  places_lt : places < 1 <<< 63

namespace Ring

/-- An empty ring of `n` slots, at least two. -/
def ofSlots {ε : Type} (n : Nat) : Outcome ε Ring :=
  if two_le : 2 ≤ n then
    if places_lt : n < 1 <<< 63 then
      .ok {
        places := n
        slots := Vector.replicate n 0
        head := ⟨0, by omega⟩
        tail := ⟨0, by omega⟩
        two_le
        places_lt }
    else .fault .arithmetic
  else .fault .ringTooSmall

/-- The place `i` further on from a place, around the end. -/
def after (r : Ring) (place : Fin r.places) (i : Nat) : Fin r.places :=
  ⟨(place + i) % r.places, Nat.mod_lt _ place.pos⟩

/-- The bytes that the ring can hold. -/
def capacity (r : Ring) : Nat := r.places - 1

/-- The bytes stored: the way from the tail to the head. -/
def size (r : Ring) : Nat := (r.head + r.places - r.tail) % r.places

def isEmpty (r : Ring) : Bool := r.size = 0

def free (r : Ring) : Nat := r.capacity - r.size

/-- The byte `i` places behind the oldest. -/
def byteAt (r : Ring) (i : Nat) : UInt8 := r.slots[r.after r.tail i]

/-- The bytes stored, the oldest first. -/
def toList (r : Ring) : List UInt8 := (List.range r.size).map r.byteAt

/-- The bytes stored, computed as a size. -/
def stored {ε : Type} (r : Ring) : Outcome ε Nat := do
  let ahead ← Size.add r.head r.places
  let way ← Size.sub ahead r.tail
  return way % r.places

/-- The bytes that there is room for, computed as a size. -/
def room {ε : Type} (r : Ring) : Outcome ε Nat := do
  let capacity ← Size.sub r.places 1
  Size.sub capacity (← r.stored)

/-- Appends a block if there is room for all of it. -/
def push (data : List UInt8) : Action Ring BufferFull Unit := do
  let r ← Action.state
  let room ← Action.give r.room
  if room < data.length then .fail {}
  else do
    let first := min data.length (← Action.give (Size.sub r.places r.head))
    let slots ← Action.give (Stretch.write r.slots r.head (data.take first))
    let slots ← Action.give (Stretch.write slots 0 (data.drop first))
    let _ ← Action.give (Size.add r.head data.length)
    Action.update fun _ => { r with slots := slots, head := r.after r.head data.length }

/-- Moves the oldest bytes out to the front of `out`, as many as there are and it takes: their
number, and `out` with them in it. -/
def pop {m : Nat} (out : Vector UInt8 m) : Action Ring Empty (Nat × Vector UInt8 m) := do
  let r ← Action.state
  let count := min (← Action.give r.stored) m
  let first := min count (← Action.give (Size.sub r.places r.tail))
  let front ← Action.give (Stretch.read r.slots r.tail first)
  let out ← Action.give (Stretch.write out 0 front)
  let back ← Action.give (Stretch.read r.slots 0 (count - first))
  let out ← Action.give (Stretch.write out first back)
  let _ ← Action.give (Size.add r.tail count)
  Action.update fun _ => { r with tail := r.after r.tail count }
  return (count, out)

/-! ## No step goes wrong -/

section

variable {ε : Type} (r : Ring)

theorem size_lt : r.size < r.places := Nat.mod_lt _ r.head.pos

theorem stored_eq : r.stored (ε := ε) = .ok r.size := by
  have hh := r.head.isLt
  have ht := r.tail.isLt
  have hp := r.places_lt
  unfold stored
  rw [Size.add_eq (by omega)]
  change (Size.sub (r.head + r.places) r.tail >>= fun way => pure (way % r.places)) = _
  rw [Size.sub_eq (by omega)]
  rfl

theorem room_eq : r.room (ε := ε) = .ok r.free := by
  have hs := r.size_lt
  have h2 := r.two_le
  unfold room
  rw [Size.sub_eq (by omega), stored_eq]
  exact Size.sub_eq (by omega)

end

end Ring

namespace Stretch

variable {ε : Type} {n : Nat}

theorem write_eq (v : Vector UInt8 n) {start : Nat} {bytes : List UInt8}
    (hs : start + bytes.length < 1 <<< 64) (h : start + bytes.length ≤ n) :
    write (ε := ε) v start bytes = .ok (put v start bytes) := by
  unfold write
  rw [Size.add_eq hs]
  exact if_pos h

theorem read_eq (v : Vector UInt8 n) {start length : Nat} (hs : start + length < 1 <<< 64)
    (h : start + length ≤ n) :
    read (ε := ε) v start length = .ok ((List.range length).map fun i => v.getD (start + i) 0) := by
  unfold read
  rw [Size.add_eq hs]
  exact if_pos h

end Stretch

namespace Ring

/-- How much of a block of `length` bytes lies before the end of the slots, from a place on. -/
def beforeEnd (r : Ring) (place : Fin r.places) (length : Nat) : Nat :=
  min length (r.places - place)

/-- The ring with a block written behind the bytes it holds. -/
def append (r : Ring) (data : List UInt8) : Ring :=
  let first := r.beforeEnd r.head data.length
  { r with
    slots := Stretch.put (Stretch.put r.slots r.head (data.take first)) 0 (data.drop first)
    head := r.after r.head data.length }

/-- The ring without the oldest `count` bytes. -/
def discard (r : Ring) (count : Nat) : Ring := { r with tail := r.after r.tail count }

/-- The first of the two stretches that the oldest `count` bytes lie in. -/
def front (r : Ring) (count : Nat) : List UInt8 :=
  (List.range (r.beforeEnd r.tail count)).map fun i => r.slots.getD (r.tail + i) 0

/-- The second of the two stretches that the oldest `count` bytes lie in. -/
def back (r : Ring) (count : Nat) : List UInt8 :=
  (List.range (count - r.beforeEnd r.tail count)).map fun i => r.slots.getD (0 + i) 0

theorem push_apply (r : Ring) (data : List UInt8) :
    push data r =
      if r.free < data.length then (.error {}, r) else (.ok (), r.append data) := by
  have hh := r.head.isLt
  have hs := r.size_lt
  have hp := r.places_lt
  unfold push
  rw [Action.state_bind, room_eq, Action.give_ok_bind]
  by_cases hroom : r.free < data.length
  · rw [if_pos hroom, if_pos hroom]
    rfl
  · rw [if_neg hroom, if_neg hroom]
    have hfit : data.length < r.places := by
      unfold free capacity at hroom
      omega
    rw [Size.sub_eq (by omega), Action.give_ok_bind,
      Stretch.write_eq _ (by rw [List.length_take]; omega) (by rw [List.length_take]; omega),
      Action.give_ok_bind,
      Stretch.write_eq _ (by rw [List.length_drop]; omega) (by rw [List.length_drop]; omega),
      Action.give_ok_bind, Size.add_eq (by omega), Action.give_ok_bind]
    rfl

theorem pop_apply {m : Nat} (r : Ring) (out : Vector UInt8 m) :
    pop out r =
      (.ok (min r.size m,
        Stretch.put (Stretch.put out 0 (r.front (min r.size m)))
          (r.beforeEnd r.tail (min r.size m)) (r.back (min r.size m))),
        r.discard (min r.size m)) := by
  have ht := r.tail.isLt
  have hs := r.size_lt
  have hp := r.places_lt
  have hfront : (r.front (min r.size m)).length = r.beforeEnd r.tail (min r.size m) := by
    simp [front]
  have hback : (r.back (min r.size m)).length
      = min r.size m - r.beforeEnd r.tail (min r.size m) := by
    simp [back]
  unfold front beforeEnd at hfront
  unfold back beforeEnd at hback
  unfold pop
  rw [Action.state_bind, stored_eq, Action.give_ok_bind, Size.sub_eq (by omega),
    Action.give_ok_bind, Stretch.read_eq _ (by omega) (by omega), Action.give_ok_bind,
    Stretch.write_eq _ (by omega) (by omega), Action.give_ok_bind,
    Stretch.read_eq _ (by omega) (by omega), Action.give_ok_bind,
    Stretch.write_eq _ (by omega) (by omega), Action.give_ok_bind,
    Size.add_eq (by omega), Action.give_ok_bind]
  rfl

theorem push_ne_fault (data : List UInt8) (r : Ring) (b : Fault) : (push data r).1 ≠ .fault b := by
  rw [push_apply]
  split <;> simp

theorem pop_ne_fault {m : Nat} (out : Vector UInt8 m) (r : Ring) (b : Fault) :
    (pop out r).1 ≠ .fault b := by
  rw [pop_apply]
  simp

/-! ## Rings as sinks, and in scripts -/

/-- Writes a block as a sink does: whether it was taken, and the ring after. -/
def offer (data : List UInt8) (r : Ring) : Bool × Ring :=
  match h : push data r with
  | (.ok _, r) => (true, r)
  | (.error _, r) => (false, r)
  | (.fault b, _) => (push_ne_fault data r b (by rw [h])).elim

/-- Takes out the oldest bytes, at most `max` of them. -/
def take (max : Nat) (r : Ring) : List UInt8 × Ring :=
  match h : pop (Vector.replicate max 0) r with
  | (.ok (count, out), r) => (out.toList.take count, r)
  | (.error e, _) => e.elim
  | (.fault b, _) => (pop_ne_fault (Vector.replicate max 0) r b (by rw [h])).elim

/-- A ring is written to in the same way whether it is owned or borrowed. -/
instance : Sink Ring where
  capacity := capacity
  free := free
  write := offer

end Ring

end AdcCapture
