/-
  A ring is a bounded queue of bytes. `ByteQueue` is the queue itself: a list of bytes and a
  capacity, a block goes in at the end whole or not at all, and the oldest bytes come out. Every
  ring stands for one queue (`Ring.queue`), and every call on a ring does to it what the queue
  does (`agrees_queue`), without a fault. Hence a script on a fresh ring of any number of slots
  answers as the queue does, step for step (`runAll_simulates_queue`).
-/
import AdcCapture.Script.Sink
import Mathlib.Data.List.Forall2

namespace AdcCapture

/-- A queue of bytes, at most `capacity` of them. -/
structure ByteQueue where
  capacity : Nat
  /-- The bytes in it, the oldest first. -/
  bytes : List UInt8

namespace ByteQueue

/-- The bytes that there is room for. -/
def free (q : ByteQueue) : Nat := q.capacity - q.bytes.length

/-- The queue with a block behind its bytes. -/
def append (q : ByteQueue) (data : List UInt8) : ByteQueue := { q with bytes := q.bytes ++ data }

/-- The queue without its oldest bytes, at most `max` of them. -/
def discard (q : ByteQueue) (max : Nat) : ByteQueue := { q with bytes := q.bytes.drop max }

/-- What a step of a ring's script does to a queue. -/
def run (s : RingStep) (q : ByteQueue) : RingAnswer × ByteQueue :=
  match s with
  | .push data => if data.length ≤ q.free then (.pushed, q.append data) else (.full, q)
  | .pop max => (.popped (q.bytes.take max), q.discard max)
  | .measure => (.measured q.capacity q.free, q)

/-- Runs steps in order; with each answer comes the queue after the step. -/
def runAll : List RingStep → ByteQueue → List (RingAnswer × ByteQueue)
  | [], _ => []
  | s :: rest, q =>
    match run s q with
    | (a, q) => (a, q) :: runAll rest q

end ByteQueue

/-! ## Stretches -/

namespace Stretch

variable {n : Nat}

theorem getElem_put (bytes : List UInt8) (v : Vector UInt8 n) (start j : Nat) (hj : j < n) :
    (put v start bytes)[j] =
      if start ≤ j ∧ j < start + bytes.length then bytes.getD (j - start) 0 else v[j] := by
  induction bytes generalizing v start with
  | nil => rw [put, if_neg (by rw [List.length_nil]; omega)]
  | cons b rest ih =>
    rw [put, ih, List.length_cons]
    by_cases hs : start + 1 ≤ j ∧ j < start + 1 + rest.length
    · rw [if_pos hs, if_pos (by omega)]
      obtain ⟨k, hk⟩ : ∃ k, j - start = k + 1 := ⟨j - start - 1, by omega⟩
      rw [hk, show j - (start + 1) = k by omega]
      rfl
    · rw [if_neg hs, Vector.getElem_setIfInBounds]
      by_cases he : start = j
      · rw [if_pos he, if_pos (by omega), he, Nat.sub_self]
        rfl
      · rw [if_neg he, if_neg (by omega)]

theorem put_put (first second : List UInt8) (v : Vector UInt8 n) (start : Nat) :
    put (put v start first) (start + first.length) second = put v start (first ++ second) := by
  induction first generalizing v start with
  | nil => rfl
  | cons b rest ih =>
    rw [put, List.cons_append, put, ← ih, List.length_cons, Nat.add_comm rest.length 1,
      Nat.add_assoc]

theorem toList_put_zero (bytes : List UInt8) (v : Vector UInt8 n) (h : bytes.length ≤ n) :
    (put v 0 bytes).toList = bytes ++ v.toList.drop bytes.length := by
  have hlen : (put v 0 bytes).toList.length = (bytes ++ v.toList.drop bytes.length).length := by
    simp only [Vector.length_toList, List.length_append, List.length_drop]
    omega
  refine List.ext_getElem hlen fun i hi _ => ?_
  rw [Vector.length_toList] at hi
  rw [Vector.getElem_toList, getElem_put]
  by_cases hb : i < bytes.length
  · rw [if_pos (by omega), List.getElem_append_left hb, Nat.sub_zero,
      List.getD_eq_getElem?_getD, List.getElem?_eq_getElem hb, Option.getD_some]
  · rw [if_neg (by omega), List.getElem_append_right (by omega), List.getElem_drop,
      Vector.getElem_toList]
    congr 1
    omega

end Stretch

/-! ## Places around the end -/

theorem mod_of_lt_double {a n : Nat} (h : a < 2 * n) : a % n = if a < n then a else a - n := by
  by_cases hn : a < n
  · rw [if_pos hn, Nat.mod_eq_of_lt hn]
  · have hsub : a - n < n := by omega
    rw [if_neg hn, Nat.mod_eq_sub_mod (by omega), Nat.mod_eq_of_lt hsub]

namespace Ring

variable (r : Ring)

theorem size_eq :
    r.size = if r.tail ≤ r.head then (r.head : Nat) - r.tail else r.head + r.places - r.tail := by
  have hh := r.head.isLt
  have ht := r.tail.isLt
  unfold size
  rw [mod_of_lt_double (by omega)]
  split <;> split <;> omega

theorem after_val (place : Fin r.places) {i : Nat} (hi : i ≤ r.places) :
    (r.after place i : Nat) = if place + i < r.places then place + i else place + i - r.places := by
  have hp := place.isLt
  exact mod_of_lt_double (by omega)

theorem length_toList : r.toList.length = r.size := by simp [toList]

theorem getElem_toList {i : Nat} (hi : i < r.toList.length) : r.toList[i] = r.byteAt i := by
  simp [toList]

/-! ## Writing -/

variable {r} {data : List UInt8}

theorem length_lt_places (h : data.length ≤ r.free) : r.size + data.length < r.places := by
  have h2 := r.two_le
  have hs := r.size_lt
  unfold free capacity at h
  omega

theorem size_append (h : data.length ≤ r.free) :
    (r.append data).size = r.size + data.length := by
  have hd := length_lt_places h
  have hh := r.head.isLt
  have ht := r.tail.isLt
  have hs := r.size_eq
  have hs' := (r.append data).size_eq
  have ha := r.after_val r.head (i := data.length) (by omega)
  change (r.append data).size = if (r.tail : Nat) ≤ r.after r.head data.length
    then (r.after r.head data.length : Nat) - r.tail
    else r.after r.head data.length + r.places - r.tail at hs'
  rw [hs', ha]
  split at hs <;> split <;> split <;> omega

/-- A slot of the ring with a block written: in the second stretch of the block, in the first,
or in neither. -/
theorem getElem_slots_append (j : Nat) (hj : j < r.places) :
    (r.append data).slots[j] =
      if j < data.length - r.beforeEnd r.head data.length then
        data.getD (r.beforeEnd r.head data.length + j) 0
      else if r.head ≤ j ∧ j < r.head + r.beforeEnd r.head data.length then
        data.getD (j - r.head) 0
      else r.slots[j] := by
  have hle : r.beforeEnd r.head data.length ≤ data.length := Nat.min_le_left _ _
  change (Stretch.put (Stretch.put r.slots r.head (data.take (r.beforeEnd r.head data.length))) 0
    (data.drop (r.beforeEnd r.head data.length)))[j] = _
  rw [Stretch.getElem_put, Stretch.getElem_put, List.length_drop, List.length_take,
    Nat.min_eq_left hle, Nat.zero_add]
  by_cases hb : j < data.length - r.beforeEnd r.head data.length
  · rw [if_pos ⟨Nat.zero_le j, hb⟩, if_pos hb, Nat.sub_zero]
    simp only [List.getD_eq_getElem?_getD, List.getElem?_drop]
  · rw [if_neg (fun h => hb h.2), if_neg hb]
    by_cases hf : r.head ≤ j ∧ j < r.head + r.beforeEnd r.head data.length
    · rw [if_pos hf, if_pos hf]
      simp only [List.getD_eq_getElem?_getD]
      rw [List.getElem?_take_of_lt (by omega)]
    · rw [if_neg hf, if_neg hf]

theorem byteAt_append {i j : Nat} (hj : j < (r.append data).places)
    (h : (r.after r.tail i : Nat) = j) : (r.append data).byteAt i = (r.append data).slots[j] := by
  subst h
  rfl

theorem byteAt_append_of_lt (h : data.length ≤ r.free) {i : Nat} (hi : i < r.size) :
    (r.append data).byteAt i = r.byteAt i := by
  have hd := length_lt_places h
  have hh := r.head.isLt
  have ht := r.tail.isLt
  have hs := r.size_eq
  have ha := r.after_val r.tail (i := i) (by omega)
  rw [byteAt_append (r.after r.tail i).isLt rfl, getElem_slots_append]
  unfold beforeEnd
  split at hs <;> split at ha <;> rw [if_neg (by omega), if_neg (by omega)] <;> rfl

theorem byteAt_append_add (h : data.length ≤ r.free) {k : Nat} (hk : k < data.length) :
    (r.append data).byteAt (r.size + k) = data[k] := by
  have hd := length_lt_places h
  have hh := r.head.isLt
  have ht := r.tail.isLt
  have hs := r.size_eq
  have ha := r.after_val r.tail (i := r.size + k) (by omega)
  have hj : (r.after r.tail (r.size + k) : Nat) =
      if r.head + k < r.places then r.head + k else r.head + k - r.places := by
    split at hs <;> split at ha <;> split <;> omega
  have hget : data[k] = data.getD k 0 := by
    rw [List.getD_eq_getElem?_getD, List.getElem?_eq_getElem hk, Option.getD_some]
  rw [byteAt_append (r.after r.tail (r.size + k)).isLt rfl, getElem_slots_append, hget]
  unfold beforeEnd
  split at hj
  · rw [if_neg (by omega), if_pos (by omega)]
    exact congrArg (data.getD · 0) (by omega)
  · rw [if_pos (by omega)]
    exact congrArg (data.getD · 0) (by omega)

theorem toList_append (h : data.length ≤ r.free) :
    (r.append data).toList = r.toList ++ data := by
  have hlen : (r.append data).toList.length = (r.toList ++ data).length := by
    rw [length_toList, size_append h, List.length_append, length_toList]
  refine List.ext_getElem hlen fun i hi _ => ?_
  rw [getElem_toList]
  by_cases ho : i < r.toList.length
  · rw [List.getElem_append_left ho, getElem_toList]
    exact byteAt_append_of_lt h (by rwa [length_toList] at ho)
  · rw [length_toList, size_append h] at hi
    rw [length_toList] at ho
    obtain ⟨k, rfl⟩ : ∃ k, i = r.size + k := ⟨i - r.size, by omega⟩
    rw [List.getElem_append_right (by rw [length_toList]; omega), byteAt_append_add h (by omega)]
    congr 1
    rw [length_toList]
    omega

/-! ## Reading -/

variable {count : Nat}

theorem size_discard (h : count ≤ r.size) : (r.discard count).size = r.size - count := by
  have hh := r.head.isLt
  have ht := r.tail.isLt
  have hp := r.size_lt
  have hs := r.size_eq
  have hs' := (r.discard count).size_eq
  have ha := r.after_val r.tail (i := count) (by omega)
  change (r.discard count).size = if (r.after r.tail count : Nat) ≤ r.head
    then (r.head : Nat) - r.after r.tail count
    else r.head + r.places - r.after r.tail count at hs'
  rw [hs', ha]
  split at hs <;> split <;> split <;> omega

theorem byteAt_discard (i : Nat) : (r.discard count).byteAt i = r.byteAt (count + i) := by
  have hplace : (r.discard count).after (r.discard count).tail i = r.after r.tail (count + i) := by
    refine Fin.ext ?_
    change ((r.tail + count) % r.places + i) % r.places = (r.tail + (count + i)) % r.places
    rw [Nat.mod_add_mod, Nat.add_assoc]
  unfold byteAt
  exact congrArg (fun p : Fin r.places => r.slots[p]) hplace

theorem toList_discard (h : count ≤ r.size) : (r.discard count).toList = r.toList.drop count := by
  have hlen : (r.discard count).toList.length = (r.toList.drop count).length := by
    rw [length_toList, size_discard h, List.length_drop, length_toList]
  refine List.ext_getElem hlen fun i _ _ => ?_
  rw [getElem_toList, byteAt_discard, List.getElem_drop, getElem_toList]

theorem byteAt_eq_getD (i : Nat) : r.byteAt i = r.slots.getD (r.after r.tail i) 0 := by
  have hi : (r.after r.tail i : Nat) < r.slots.toArray.size := by
    rw [Vector.size_toArray]
    exact (r.after r.tail i).isLt
  unfold byteAt Vector.getD
  rw [Array.getD_eq_getD_getElem?, Array.getElem?_eq_getElem hi, Option.getD_some]
  rfl

theorem front_append_back (h : count ≤ r.size) :
    r.front count ++ r.back count = r.toList.take count := by
  have ht := r.tail.isLt
  have hp := r.size_lt
  have hlen : (r.front count ++ r.back count).length = (r.toList.take count).length := by
    simp only [front, back, List.length_append, List.length_map, List.length_range,
      List.length_take, length_toList, beforeEnd]
    omega
  refine List.ext_getElem hlen fun i hi _ => ?_
  rw [List.getElem_take, getElem_toList, byteAt_eq_getD]
  simp only [front, back, List.length_append, List.length_map, List.length_range, beforeEnd] at hi
  have ha := r.after_val r.tail (i := i) (by omega)
  by_cases hf : i < (r.front count).length
  · rw [List.getElem_append_left hf]
    simp only [front, List.length_map, List.length_range, beforeEnd] at hf
    simp only [front, List.getElem_map, List.getElem_range]
    rw [ha, if_pos (by omega)]
  · rw [List.getElem_append_right (by omega)]
    simp only [front, List.length_map, List.length_range, beforeEnd] at hf
    simp only [front, back, List.getElem_map, List.getElem_range, List.length_map,
      List.length_range, beforeEnd]
    rw [ha, if_neg (by omega)]
    exact congrArg (r.slots.getD · 0) (by omega)

/-! ## The queue of a ring -/

variable (r)

/-- The queue that a ring stands for. -/
def queue : ByteQueue := ⟨r.capacity, r.toList⟩

theorem free_queue : r.queue.free = r.free := by
  unfold ByteQueue.free free queue
  rw [length_toList]

theorem queue_append (h : data.length ≤ r.free) :
    (r.append data).queue = r.queue.append data := by
  unfold queue ByteQueue.append
  rw [toList_append h]
  rfl

theorem queue_discard (max : Nat) : (r.discard (min r.size max)).queue = r.queue.discard max := by
  unfold queue ByteQueue.discard
  rw [toList_discard (Nat.min_le_left _ _), ← length_toList]
  congr 1
  by_cases h : r.toList.length ≤ max
  · rw [Nat.min_eq_left h, List.drop_length, List.drop_eq_nil_of_le h]
  · rw [Nat.min_eq_right (by omega)]

theorem offer_apply (data : List UInt8) :
    r.offer data = if data.length ≤ r.free then (true, r.append data) else (false, r) := by
  have hp := push_apply r data
  unfold offer
  split <;> rename_i h <;> rw [hp] at h
  · by_cases hf : r.free < data.length
    · rw [if_pos hf] at h
      simp at h
    · rw [if_neg hf, Prod.mk.injEq] at h
      rw [if_pos (by omega), h.2]
  · by_cases hf : r.free < data.length
    · rw [if_pos hf, Prod.mk.injEq] at h
      rw [if_neg (by omega), h.2]
    · rw [if_neg hf] at h
      simp at h
  · split at h <;> simp at h

theorem toList_pop {m : Nat} (out : Vector UInt8 m) :
    (Stretch.put (Stretch.put out 0 (r.front (min r.size m)))
      (r.beforeEnd r.tail (min r.size m)) (r.back (min r.size m))).toList =
        r.toList.take m ++ out.toList.drop (min r.size m) := by
  have hfront : (r.front (min r.size m)).length = r.beforeEnd r.tail (min r.size m) := by
    simp [front]
  have hle : min r.size m ≤ r.size := Nat.min_le_left _ _
  have htake : r.toList.take (min r.size m) = r.toList.take m := by
    rw [← length_toList]
    by_cases h : r.toList.length ≤ m
    · rw [Nat.min_eq_left h, List.take_length, List.take_of_length_le h]
    · rw [Nat.min_eq_right (by omega)]
  have hlen : (r.toList.take m).length = min r.size m := by
    rw [List.length_take, length_toList, Nat.min_comm]
  have hput := Stretch.put_put (r.front (min r.size m)) (r.back (min r.size m)) out 0
  rw [Nat.zero_add, hfront] at hput
  rw [hput, front_append_back hle, htake, Stretch.toList_put_zero _ _ (by rw [hlen]; omega), hlen]

theorem take_apply (max : Nat) :
    r.take max = (r.toList.take max, r.discard (min r.size max)) := by
  have hp := pop_apply r (Vector.replicate max 0)
  have hlist := r.toList_pop (Vector.replicate max 0)
  have hlen : (r.toList.take max).length = min r.size max := by
    rw [List.length_take, length_toList, Nat.min_comm]
  unfold take
  split <;> rename_i h <;> rw [hp, Prod.mk.injEq] at h
  · obtain ⟨ho, rfl⟩ := h
    cases ho
    rw [hlist, List.take_append_of_le_length (by omega), List.take_of_length_le (by omega)]
  · exact absurd h.1 (by simp)
  · exact absurd h.1 (by simp)

/-- What a call on a ring does to a queue. -/
structure Agrees (q : ByteQueue) : Prop where
  queue : r.queue = q
  stored : r.stored (ε := Empty) = .ok q.bytes.length
  room : r.room (ε := Empty) = .ok q.free
  isEmpty : r.isEmpty = q.bytes.isEmpty
  sink : Sink.capacity r = q.capacity ∧ Sink.free r = q.free
  push_fits : ∀ data, data.length ≤ q.free →
    ∃ r', push data r = (.ok (), r') ∧ Sink.write data r = (true, r') ∧ r'.queue = q.append data
  push_full : ∀ data, q.free < data.length →
    push data r = (.error {}, r) ∧ Sink.write data r = (false, r)
  pop : ∀ (m : Nat) (out : Vector UInt8 m), ∃ out' r',
    pop out r = (.ok (min q.bytes.length m, out'), r') ∧
      out'.toList = q.bytes.take m ++ out.toList.drop (min q.bytes.length m) ∧
      r'.queue = q.discard m

theorem agrees_queue : r.Agrees r.queue where
  queue := rfl
  stored := by
    rw [stored_eq, ← length_toList]
    rfl
  room := by rw [room_eq, free_queue]
  isEmpty := by
    have h : r.isEmpty = decide (r.toList.length = 0) := by
      rw [length_toList]
      rfl
    rw [h]
    change decide (r.toList.length = 0) = r.toList.isEmpty
    cases r.toList <;> rfl
  sink := ⟨rfl, r.free_queue.symm⟩
  push_fits := by
    intro data h
    rw [free_queue] at h
    refine ⟨r.append data, ?_, ?_, r.queue_append h⟩
    · rw [push_apply, if_neg (by omega)]
    · exact (r.offer_apply data).trans (if_pos h)
  push_full := by
    intro data h
    rw [free_queue] at h
    refine ⟨?_, (r.offer_apply data).trans (if_neg (by omega))⟩
    rw [push_apply, if_pos h]
  pop := by
    intro m out
    have hl : r.queue.bytes.length = r.size := r.length_toList
    rw [hl]
    exact ⟨_, _, r.pop_apply out, r.toList_pop out, r.queue_discard m⟩

end Ring

namespace RingStep

theorem run_queue (s : RingStep) (r : Ring) :
    s.run r = ((ByteQueue.run s r.queue).1, (s.run r).2) ∧
      (s.run r).2.queue = (ByteQueue.run s r.queue).2 := by
  cases s with
  | push data =>
    unfold run ByteQueue.run
    dsimp only
    rw [Ring.free_queue, Ring.offer_apply]
    by_cases h : data.length ≤ r.free
    · rw [if_pos h, if_pos h]
      exact ⟨rfl, r.queue_append h⟩
    · rw [if_neg h, if_neg h]
      exact ⟨rfl, rfl⟩
  | pop max =>
    unfold run ByteQueue.run
    dsimp only
    rw [Ring.take_apply]
    exact ⟨rfl, r.queue_discard max⟩
  | measure =>
    unfold run ByteQueue.run
    dsimp only
    rw [Ring.free_queue]
    exact ⟨rfl, rfl⟩

theorem places_run (s : RingStep) (r : Ring) : (s.run r).2.places = r.places := by
  cases s with
  | push data =>
    unfold run
    dsimp only
    rw [Ring.offer_apply]
    by_cases h : data.length ≤ r.free
    · rw [if_pos h]
      rfl
    · rw [if_neg h]
  | pop max =>
    unfold run
    dsimp only
    rw [Ring.take_apply]
    rfl
  | measure => rfl

/-- A ring and a queue give the same answers to a script, and stand for each other after each
step. -/
theorem runAll_agrees {n : Nat} (steps : List RingStep) (r : Ring) (hn : r.places = n) :
    List.Forall₂ (fun x y => x.1 = y.1 ∧ x.2.head < n ∧ x.2.tail < n ∧ x.2.Agrees y.2)
      (runAll steps r) (ByteQueue.runAll steps r.queue) := by
  induction steps generalizing r with
  | nil => exact .nil
  | cons s rest ih =>
    obtain ⟨ha, hq⟩ := run_queue s r
    have hp := places_run s r
    rw [hn] at hp
    unfold runAll ByteQueue.runAll
    rw [ha]
    dsimp only
    rw [← hq]
    refine .cons ⟨rfl, ?_, ?_, (s.run r).2.agrees_queue⟩ (ih _ hp)
    · exact hp ▸ (s.run r).2.head.isLt
    · exact hp ▸ (s.run r).2.tail.isLt

/-- The bytes that a step with this answer put into the ring. -/
def taken : RingStep → RingAnswer → List UInt8
  | push data, .pushed => data
  | _, _ => []

/-- The bytes that an answer hands out. -/
def handed : RingAnswer → List UInt8
  | .popped data => data
  | _ => []

/-- The ring after the last step. -/
def final (steps : List RingStep) (r : Ring) : Ring := steps.foldl (fun r s => (s.run r).2) r

theorem run_conserves (s : RingStep) (r : Ring) :
    r.toList ++ taken s (s.run r).1 = handed (s.run r).1 ++ (s.run r).2.toList := by
  obtain ⟨ha, hq⟩ := run_queue s r
  have hl : (s.run r).2.toList = (ByteQueue.run s r.queue).2.bytes := congrArg ByteQueue.bytes hq
  rw [hl, ha]
  cases s with
  | push data =>
    unfold ByteQueue.run
    dsimp only
    split <;> simp [taken, handed, ByteQueue.append, Ring.queue]
  | pop max => simp [ByteQueue.run, taken, handed, ByteQueue.discard, Ring.queue]
  | measure => simp [ByteQueue.run, taken, handed, Ring.queue]

/-- What a ring held and was given is what it handed out and holds, in the same order. -/
theorem runAll_conserves (steps : List RingStep) (r : Ring) :
    r.toList ++ (List.zipWith (fun s x => taken s x.1) steps (runAll steps r)).flatten =
      ((runAll steps r).map fun x => handed x.1).flatten ++ (final steps r).toList := by
  induction steps generalizing r with
  | nil => simp [runAll, final]
  | cons s rest ih =>
    have hs := run_conserves s r
    have hr := ih (s.run r).2
    unfold runAll
    dsimp only
    rw [List.zipWith_cons_cons, List.flatten_cons, ← List.append_assoc, hs, List.append_assoc, hr,
      List.map_cons, List.flatten_cons, List.append_assoc]
    rfl

end RingStep

/-- An empty ring of `n` slots. -/
def Ring.fresh (n : Nat) (two_le : 2 ≤ n) (lt : n < 1 <<< 63) : Ring where
  places := n
  slots := Vector.replicate n 0
  head := ⟨0, Nat.lt_of_lt_of_le Nat.two_pos two_le⟩
  tail := ⟨0, Nat.lt_of_lt_of_le Nat.two_pos two_le⟩
  two_le
  places_lt := lt

theorem Ring.queue_fresh (n : Nat) (two_le : 2 ≤ n) (lt : n < 1 <<< 63) :
    (fresh n two_le lt).queue = ⟨n - 1, []⟩ := by
  have hplace : (fresh n two_le lt).tail ≤ (fresh n two_le lt).head := Nat.le_refl 0
  have hsize : (fresh n two_le lt).size = 0 := by
    rw [size_eq, if_pos hplace]
    rfl
  unfold queue toList
  rw [hsize]
  rfl

/-- A fresh ring of `n` slots is a queue of `n - 1` bytes: scripts on it are answered without a
fault and as on the queue, and the bytes it took in come out once and in order. -/
theorem Ring.fresh_simulates_queue (n : Nat) (two_le : 2 ≤ n) (lt : n < 1 <<< 63)
    (steps : List RingStep) :
    ∃ r : Ring, Ring.ofSlots (ε := Empty) n = .ok r ∧ r.Agrees ⟨n - 1, []⟩ ∧
      List.Forall₂ (fun x y => x.1 = y.1 ∧ x.2.head < n ∧ x.2.tail < n ∧ x.2.Agrees y.2)
        (RingStep.runAll steps r) (ByteQueue.runAll steps ⟨n - 1, []⟩) ∧
      (List.zipWith (fun s x => RingStep.taken s x.1) steps (RingStep.runAll steps r)).flatten =
        ((RingStep.runAll steps r).map fun x => RingStep.handed x.1).flatten ++
          (RingStep.final steps r).toList := by
  have hqueue := queue_fresh n two_le lt
  have hlist : (fresh n two_le lt).toList = [] := congrArg ByteQueue.bytes hqueue
  have hruns := RingStep.runAll_agrees steps (fresh n two_le lt) rfl
  have hkept := RingStep.runAll_conserves steps (fresh n two_le lt)
  rw [hqueue] at hruns
  rw [hlist, List.nil_append] at hkept
  refine ⟨fresh n two_le lt, ?_, hqueue ▸ (fresh n two_le lt).agrees_queue, hruns, hkept⟩
  unfold ofSlots
  rw [dif_pos two_le, dif_pos lt]
  rfl

/-- Three bytes through a ring of three slots and around its end, and one that does not fit. -/
theorem Ring.fresh_simulates_queue_three :
    2 ≤ 3 ∧ 3 < 1 <<< 63 ∧ ∃ r : Ring, Ring.ofSlots (ε := Empty) 3 = .ok r ∧
      ((RingStep.runAll [.push [1, 2], .pop 1, .push [3], .push [4], .pop 2] r).map fun x => x.1) =
        [.pushed, .popped [1], .pushed, .full, .popped [2, 3]] := by
  obtain ⟨r, hr, -, hruns, -⟩ := Ring.fresh_simulates_queue 3 (by decide) (by decide)
    [.push [1, 2], .pop 1, .push [3], .push [4], .pop 2]
  have hanswers := hruns.imp fun _ _ h => h.1
  rw [← List.forall₂_map_right_iff (f := fun y : RingAnswer × ByteQueue => y.1),
    ← List.forall₂_map_left_iff (f := fun x : RingAnswer × Ring => x.1) (R := (· = ·)),
    List.forall₂_eq_eq_eq] at hanswers
  exact ⟨by decide, by decide, r, hr, hanswers⟩

end AdcCapture
