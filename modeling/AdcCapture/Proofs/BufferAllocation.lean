/-
  The memory of a pair of buffers. An allocation makes at most two reservations, the one for the
  stream first, and gives zeroed buffers of the watermark exactly if both are granted
  (`Buffers.Allocates`, `Buffers.allocate_outcomes`). But the bytes of the stream are counted in
  64 bits before they are asked for: of a watermark for which they do not fit, neither buffers nor
  a refusal come back, but a fault of arithmetic (`Buffers.allocate_overflows`).
-/
import AdcCapture.Fifo.Buffers

namespace AdcCapture

namespace Allocator

/-- The allocator after a reservation that was granted or refused. -/
def answered (bytes : Nat) (granted : Bool) (a : Allocator) : Allocator :=
  { a with requests := (bytes, granted) :: a.requests }

/-- How a reservation ends. -/
inductive Reserves (bytes : Nat) (a : Allocator) : Outcome AllocError Unit × Allocator → Prop where
  | granted (hsize : bytes < 1 <<< 63) : Reserves bytes a (.ok (), a.answered bytes true)
  | refused : Reserves bytes a (.error {}, a.answered bytes false)

theorem reserve_cases (bytes : Nat) (a : Allocator) : Reserves bytes a (reserve bytes a) := by
  unfold reserve
  dsimp only
  cases h : decide (bytes < 1 <<< 63) &&
    (if a.waived then limited none else a.grants) a.requests.length bytes with
  | true => exact .granted (of_decide_eq_true (Bool.and_eq_true_iff.mp h).1)
  | false => exact .refused

end Allocator

namespace Buffers

/-- Zeroed buffers of a watermark. -/
def blank (w : Nat) : Buffers where
  raw := Array.replicate (Sample.streamLength w) 0
  samples := Array.replicate w 0

/-- How an allocation of buffers for `w` samples ends, by the reservations that it makes. -/
inductive Allocates (w : Nat) (a : Allocator) : Outcome AllocError Buffers × Allocator → Prop where
  | overflow (h : 1 <<< 64 ≤ Sample.streamLength w) : Allocates w a (.fault .arithmetic, a)
  | streamRefused (h : Sample.streamLength w < 1 <<< 64) :
      Allocates w a (.error {}, a.answered (Sample.streamLength w) false)
  | wordsRefused (h : Sample.streamLength w < 1 <<< 63) :
      Allocates w a (.error {},
        (a.answered (Sample.streamLength w) true).answered (w * Sample.wordBytes) false)
  | granted (hstream : Sample.streamLength w < 1 <<< 63)
      (hwords : w * Sample.wordBytes < 1 <<< 63) :
      Allocates w a (.ok (blank w),
        (a.answered (Sample.streamLength w) true).answered (w * Sample.wordBytes) true)

theorem allocate_cases (w : Nat) (a : Allocator) : Allocates w a (allocate w a) := by
  unfold allocate rawLength Size.checked
  by_cases hfits : Sample.streamLength w < 1 <<< 64
  · rw [if_pos hfits, Action.give_ok_bind]
    have hstream := a.reserve_cases (Sample.streamLength w)
    rcases hr : Allocator.reserve (Sample.streamLength w) a with ⟨o, a'⟩
    rw [hr] at hstream
    cases hstream with
    | refused =>
      rw [Action.bind_error _ hr]
      exact .streamRefused hfits
    | granted hsize =>
      rw [Action.bind_ok _ hr]
      have hwords := (a.answered (Sample.streamLength w) true).reserve_cases (w * Sample.wordBytes)
      rcases hr' : Allocator.reserve (w * Sample.wordBytes)
        (a.answered (Sample.streamLength w) true) with ⟨o, a'⟩
      rw [hr'] at hwords
      cases hwords with
      | refused =>
        rw [Action.bind_error _ hr']
        exact .wordsRefused hsize
      | granted hsize' =>
        rw [Action.bind_ok _ hr']
        exact .granted hsize hsize'
  · rw [if_neg hfits]
    exact .overflow (Nat.not_lt.mp hfits)

theorem allocate_ok {w : Nat} {a a' : Allocator} {b : Buffers}
    (h : allocate w a = (.ok b, a')) : b = blank w := by
  have hcases := allocate_cases w a
  rw [h] at hcases
  cases hcases
  rfl

/-- Buffers that were granted are two reservations, the one for the stream first. -/
theorem requests_allocate {w : Nat} {a a' : Allocator} {b : Buffers}
    (h : allocate w a = (.ok b, a')) :
    a'.requests = (4 * w, true) :: (3 * w + 1, true) :: a.requests := by
  have hcases := allocate_cases w a
  rw [h] at hcases
  cases hcases
  rw [Nat.mul_comm 4 w]
  rfl

/-- The buffers hold a watermark and a stream of it, and only zeros. -/
structure Zeroed (b : Buffers) (w : Nat) : Prop where
  watermark_eq : b.watermark = w
  rawSize_eq : b.rawSize = 3 * w + 1
  formattedSize_eq : b.formattedSize = 4 * w
  raw_zero : ∀ x ∈ b.raw, x = 0
  samples_zero : ∀ x ∈ b.samples, x = 0

theorem watermark_blank (w : Nat) : (blank w).watermark = w := Array.size_replicate

theorem zeroed_blank (w : Nat) : (blank w).Zeroed w where
  watermark_eq := watermark_blank w
  rawSize_eq := Array.size_replicate
  formattedSize_eq := by
    rw [Nat.mul_comm]
    exact congrArg (· * Sample.wordBytes) Array.size_replicate
  raw_zero _ h := Array.eq_of_mem_replicate h
  samples_zero _ h := Array.eq_of_mem_replicate h

/-- Whatever the watermark and the allocator, one of two things happens. If the bytes of the stream
are no 64-bit number, that is a fault, and nothing was asked for. Otherwise an allocation ends with
the refusal of one of its two reservations, or both are granted and it gives zeroed buffers whose
sizes are those of the watermark. -/
theorem allocate_outcomes (w : Nat) (a : Allocator) :
    (1 <<< 64 ≤ 3 * w + 1 ∧ allocate w a = (.fault .arithmetic, a)) ∨
      (3 * w + 1 < 1 <<< 64 ∧ ∃ o a', allocate w a = (o, a') ∧
        ((o = .error {} ∧ (a'.requests = (3 * w + 1, false) :: a.requests ∨
            a'.requests = (4 * w, false) :: (3 * w + 1, true) :: a.requests)) ∨
          ∃ b, o = .ok b ∧ b.Zeroed w ∧ 4 * w < 1 <<< 63 ∧
            a'.requests = (4 * w, true) :: (3 * w + 1, true) :: a.requests)) := by
  have hcases := allocate_cases w a
  have hwords : 4 * w = w * Sample.wordBytes := Nat.mul_comm 4 w
  rcases hrun : allocate w a with ⟨o, a'⟩
  rw [hrun] at hcases
  rw [hwords]
  cases hcases with
  | overflow h => exact .inl ⟨h, rfl⟩
  | streamRefused h => exact .inr ⟨h, _, _, rfl, .inl ⟨rfl, .inl rfl⟩⟩
  | wordsRefused h =>
    exact .inr ⟨Nat.lt_trans h (by decide), _, _, rfl, .inl ⟨rfl, .inr rfl⟩⟩
  | granted h hsize =>
    exact .inr ⟨Nat.lt_trans h (by decide), _, _, rfl, .inr ⟨_, rfl, zeroed_blank w, hsize, rfl⟩⟩

/-- A watermark that fits in 64 bits has no answer if the bytes of its stream do not. -/
theorem allocate_overflows :
    ¬ ∀ (w : Nat) (a : Allocator), w < 1 <<< 64 →
      (allocate w a).1 = .error {} ∨ ∃ b, (allocate w a).1 = .ok b ∧ b.Zeroed w := by
  intro h
  have hfault : (allocate 6148914691236517205 default).1 = .fault .arithmetic := by
    decide +kernel
  rcases h 6148914691236517205 default (by decide) with he | ⟨b, hb, -⟩
  · exact nomatch hfault.symm.trans he
  · exact nomatch hfault.symm.trans hb

end Buffers

end AdcCapture
