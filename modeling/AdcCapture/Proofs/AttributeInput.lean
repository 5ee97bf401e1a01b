/-
  What can be stored into an attribute. Every attribute has a domain: nothing can be stored into
  it, or a number of millivolts, or one of some codes. The domain says which texts it accepts and
  what value each of them denotes, attribute by attribute and in numbers. `Attribute.parse_ends`
  says that parsing keeps to that: a text is refused if and only if it is not accepted, and what an
  accepted text asks for is the value that it denotes.
-/
import AdcCapture.Proofs.StoredSettings

namespace AdcCapture

namespace Attribute

/-- What can be stored into an attribute. -/
inductive Domain where
  | nothing
  /-- A number of millivolts, kept as a code from `lo` to `hi`. -/
  | millivolts (step : Binary32) (lo hi : Int)
  /-- One of the codes that are admitted. -/
  | codes (admitted : Nat → Bool)

namespace Domain

def Accepts (input : String) : Domain → Prop
  | nothing => False
  | millivolts _ _ _ => ∃ x, Binary32.ofText? input = some x ∧ x.isNaN = false
  | codes admitted => ∃ n, Text.unsigned? input = some n ∧ admitted n = true

/-- The value that a text stands for. -/
def Denotes (input : String) (v : Int) : Domain → Prop
  | nothing => False
  | millivolts step lo hi => ∃ x, Binary32.ofText? input = some x ∧ x.isNaN = false ∧
      Millivolts.toCode x step lo hi = (.ok v : Outcome Cause Int)
  | codes admitted => ∃ n : Nat, Text.unsigned? input = some n ∧ admitted n = true ∧ v = n

/-- The value is one that the attribute can have. -/
def Admits (v : Int) : Domain → Prop
  | nothing => False
  | millivolts _ lo hi => lo ≤ v ∧ v ≤ hi
  | codes admitted => ∃ n : Nat, admitted n = true ∧ v = n

theorem Denotes.accepts {D : Domain} {input : String} {v : Int} (h : D.Denotes input v) :
    D.Accepts input := by
  cases D with
  | nothing => exact h
  | millivolts step lo hi =>
    obtain ⟨x, hx, hnan, -⟩ := h
    exact ⟨x, hx, hnan⟩
  | codes admitted =>
    obtain ⟨n, hn, hadmitted, -⟩ := h
    exact ⟨n, hn, hadmitted⟩

/-- A text denotes at most one value. -/
theorem Denotes.unique {D : Domain} {input : String} {v w : Int} (h : D.Denotes input v)
    (h' : D.Denotes input w) : v = w := by
  cases D with
  | nothing => exact absurd h id
  | millivolts step lo hi =>
    obtain ⟨x, hx, -, hcode⟩ := h
    obtain ⟨y, hy, -, hcode'⟩ := h'
    cases hx.symm.trans hy
    exact Outcome.ok.inj (hcode.symm.trans hcode')
  | codes admitted =>
    obtain ⟨n, hn, -, rfl⟩ := h
    obtain ⟨m, hm, -, rfl⟩ := h'
    cases hn.symm.trans hm
    rfl

theorem codes_unsigned {p : Nat → Bool} {input : String} {n : Nat}
    (hn : Text.unsigned? input = some n) : (codes p).Accepts input ↔ p n = true := by
  constructor
  · rintro ⟨m, hm, hp⟩
    cases hn.symm.trans hm
    exact hp
  · exact fun hp => ⟨n, hn, hp⟩

end Domain

/-- The domain of each attribute. -/
def domain : Attribute → Domain
  | raw => .nothing
  | scale => .nothing
  | offset => .millivolts Millivolts.offsetStep (-2048) 2047
  | outputEnable _ => .codes (· ≤ 1)
  | function _ => .codes (· ≤ 9)
  | fifoMode => .codes (· ≤ 3)
  | fifoWatermark => .codes fun n => 1 ≤ n && n ≤ 16384
  | hysteresis => .millivolts Millivolts.eventStep 0 1023
  | threshold _ => .millivolts Millivolts.eventStep (-2048) 2047
  | filterSelect => .codes (· ≤ 3)
  | sincRate => .codes (· ≤ 9)
  | deviceMode => .codes fun n => n = 0 || n = 2 || n = 3

/-- The value that a setting asks for. -/
def Setting.value : Setting → Int
  | offset code => code
  | direction _ d => d.code.toNat
  | function _ f => f.code.toNat
  | fifoMode m => m.code.toNat
  | watermark samples => samples
  | hysteresis code => code.toNat
  | threshold _ code => code
  | filter f => f.code.toNat
  | sincRate r => r.code.toNat
  | operatingMode m => m.code.toNat

/-! ## Millivolts -/

theorem toCode_range {ε : Type} {mv step : Binary32} {lo hi c : Int}
    (h : Millivolts.toCode mv step lo hi = (.ok c : Outcome ε Int)) : lo ≤ c ∧ c ≤ hi := by
  unfold Millivolts.toCode at h
  split at h
  · split at h
    · cases h
      omega
    · cases h
  · cases h
  · cases h

theorem Domain.Denotes.admits {D : Domain} {input : String} {v : Int} (h : D.Denotes input v) :
    D.Admits v := by
  cases D with
  | nothing => exact h
  | millivolts step lo hi =>
    obtain ⟨x, -, -, hcode⟩ := h
    exact toCode_range hcode
  | codes admitted =>
    obtain ⟨n, -, hadmitted, hv⟩ := h
    exact ⟨n, hadmitted, hv⟩

/-- What comes of a text: it is refused because the domain does not accept it, or it asks for
what it denotes there. -/
inductive ReadEnds {α : Type} (D : Domain) (value : α → Int) (input : String) :
    Outcome Cause α → Prop where
  | refused (h : ¬ D.Accepts input) : ReadEnds D value input (.error .invalidArgument)
  | taken {v : α} (h : D.Denotes input (value v)) : ReadEnds D value input (.ok v)

theorem codeOf_ends {step : Binary32} {lo hi : Int} (h : Ordered step lo hi) (input : String) :
    ReadEnds (.millivolts step lo hi) id input (codeOf input step lo hi) := by
  unfold codeOf Millivolts.ofText?
  cases hx : Binary32.ofText? input with
  | none =>
    refine .refused ?_
    rintro ⟨x, hsome, -⟩
    exact nomatch hx.symm.trans hsome
  | some x =>
    rw [Option.filter_some]
    cases hnan : x.isNaN with
    | true =>
      refine .refused ?_
      rintro ⟨y, hsome, hnumber⟩
      cases hx.symm.trans hsome
      exact nomatch hnan.symm.trans hnumber
    | false =>
      obtain ⟨c, hc⟩ := toCode_ok (ε := Cause) h x
      change ReadEnds _ id input (Millivolts.toCode x step lo hi)
      rw [hc]
      exact .taken ⟨x, hx, hnan, hc⟩

/-! ## Codes -/

theorem numeral_ends (p : Nat → Bool) (input : String) :
    ReadEnds (.codes p) Int.ofNat input (orInvalid ((Text.unsigned? input).filter p)) := by
  cases hn : Text.unsigned? input with
  | none =>
    refine .refused ?_
    rintro ⟨n, hsome, -⟩
    exact nomatch hn.symm.trans hsome
  | some n =>
    rw [Option.filter_some]
    cases hp : p n with
    | true => exact .taken ⟨n, hn, hp, rfl⟩
    | false =>
      refine .refused fun haccepts => ?_
      exact nomatch hp.symm.trans ((Domain.codes_unsigned hn).mp haccepts)

/-- Of the codes up to a limit those are taken that stand for something. -/
theorem codedBy_ends {α : Type} (value : α → Int) {ofCode? : UInt8 → Option α} {limit : Nat}
    {p : Nat → Bool} (hlimit : ∀ n, p n = true → n ≤ limit)
    (hcode : ∀ n ≤ limit,
      (ofCode? (UInt8.ofNat n)).map value = if p n then some (n : Int) else none)
    (input : String) : ReadEnds (.codes p) value input (codedBy ofCode? limit input) := by
  have hends := numeral_ends (· ≤ limit) input
  unfold codedBy upTo
  generalize orInvalid ((Text.unsigned? input).filter (· ≤ limit)) = o at hends
  cases hends with
  | refused hbeyond =>
    refine .refused ?_
    rintro ⟨n, hn, hp⟩
    exact hbeyond ⟨n, hn, decide_eq_true (hlimit n hp)⟩
  | taken hdenotes =>
    rename_i n
    obtain ⟨m, hn, hle, hm⟩ := hdenotes
    cases Int.ofNat.inj hm
    have hvalue := hcode n (of_decide_eq_true hle)
    dsimp only
    cases hfound : ofCode? (UInt8.ofNat n) with
    | none =>
      rw [hfound] at hvalue
      refine .refused fun haccepts => ?_
      rw [(Domain.codes_unsigned hn).mp haccepts] at hvalue
      cases hvalue
    | some v =>
      rw [hfound] at hvalue
      cases hp : p n with
      | true =>
        rw [hp] at hvalue
        exact .taken ⟨n, hn, hp, Option.some.inj hvalue⟩
      | false =>
        rw [hp] at hvalue
        cases hvalue

/-! ## All attributes -/

theorem ReadEnds.map {α β : Type} {D E : Domain} {value : α → Int} {value' : β → Int}
    {input : String} {o : Outcome Cause α} (h : ReadEnds D value input o) (f : α → β)
    (hdomain : D = E)
    (hvalue : ∀ v, E.Admits (value v) → value' (f v) = value v) :
    ReadEnds E value' input (o.map f) := by
  subst hdomain
  cases h with
  | refused h => exact .refused h
  | taken h => exact .taken ((hvalue _ h.admits).symm ▸ h)

theorem of_admitted_le {limit n : Nat} (h : (Domain.codes (· ≤ limit)).Admits (Int.ofNat n)) :
    n ≤ limit := by
  obtain ⟨m, hm, hn⟩ := h
  cases Int.ofNat.inj hn
  exact of_decide_eq_true hm

/-- A text is refused exactly if the domain of the attribute does not accept it, and otherwise asks
for a setting of the attribute with the value that it denotes. -/
theorem parse_ends (a : Attribute) (input : String) :
    ReadEnds a.domain Setting.value input (a.parse input) := by
  cases a with
  | raw => exact .refused id
  | scale => exact .refused id
  | offset => exact (codeOf_ends offset_ordered input).map _ rfl fun _ _ => rfl
  | outputEnable p =>
    refine .map (codedBy_ends (fun d : PinDirection => d.code.toNat) ?_ ?_ input) _ rfl
      fun _ _ => rfl
    · exact fun n hn => Nat.le_trans (of_decide_eq_true hn) (by decide)
    · decide +kernel
  | function p =>
    refine .map (codedBy_ends (fun f : PinFunction => f.code.toNat) ?_ ?_ input) _ rfl
      fun _ _ => rfl
    · exact fun n hn => Nat.le_trans (of_decide_eq_true hn) (by decide)
    · decide +kernel
  | fifoMode =>
    have hcode : ∀ n ≤ 3, ((FifoMode.ofBits (UInt8.ofNat n)).code.toNat : Int) = n := by decide
    exact (numeral_ends _ input).map _ rfl fun n hn => hcode n (of_admitted_le hn)
  | fifoWatermark => exact (numeral_ends _ input).map _ rfl fun _ _ => rfl
  | hysteresis =>
    refine (codeOf_ends hysteresis_ordered input).map _ rfl ?_
    rintro c ⟨(hlo : 0 ≤ c), (hhi : c ≤ 1023)⟩
    have hsmall : c.toNat < 65536 := by omega
    change ((UInt16.ofNat c.toNat).toNat : Int) = c
    rw [UInt16.toNat_ofNat_of_lt' hsmall]
    omega
  | threshold t =>
    cases t <;>
      exact (codeOf_ends (threshold_ordered _) input).map _ rfl fun _ _ => rfl
  | filterSelect =>
    have hcode : ∀ n ≤ 3, ((Filter.ofBits (UInt8.ofNat n)).code.toNat : Int) = n := by decide
    exact (numeral_ends _ input).map _ rfl fun n hn => hcode n (of_admitted_le hn)
  | sincRate =>
    refine .map (codedBy_ends (fun r : SincRate => r.code.toNat) ?_ ?_ input) _ rfl
      fun _ _ => rfl
    · exact fun n hn => Nat.le_trans (of_decide_eq_true hn) (by decide)
    · decide +kernel
  | deviceMode =>
    refine .map (codedBy_ends (fun m : OperatingMode => m.code.toNat) ?_ ?_ input) _ rfl
      fun _ _ => rfl
    · intro n hn
      simp at hn
      omega
    · decide +kernel

/-- What an attribute accepts denotes a value. -/
theorem accepts_denotes (a : Attribute) {input : String} (h : a.domain.Accepts input) :
    ∃ v, a.domain.Denotes input v := by
  have hparse := parse_ends a input
  generalize a.parse input = o at hparse
  cases hparse with
  | refused hnone => exact absurd h hnone
  | taken hv => exact ⟨_, hv⟩

end Attribute

end AdcCapture
