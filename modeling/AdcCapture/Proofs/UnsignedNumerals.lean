/-
  Which texts are unsigned numerals, and what they write. A digit is a character of the sixteen
  digits' alphabet, in lower or in upper case; a row of digits writes the number that these are the
  digits of, the highest first (`Text.Row`); a numeral is a row of decimal digits, or `0x` and a row
  of hexadecimal ones (`Text.Writes`). Reading accepts exactly the numerals of 32-bit numbers, with
  the numbers that they write, and refuses every other text (`Text.unsigned_numerals`).
-/
import Mathlib.Data.List.Forall2
import Mathlib.Data.Nat.Digits.Defs
import AdcCapture.Attribute.Access

namespace AdcCapture.Text

/-! ## Digits -/

def lowerDigits : List Char := "0123456789abcdef".toList

def upperDigits : List Char := "0123456789ABCDEF".toList

/-- The character is the digit of this value in the base. -/
def Digit (base : Nat) (c : Char) (d : Nat) : Prop :=
  d < base ∧ (lowerDigits[d]? = some c ∨ upperDigits[d]? = some c)

/-- A character below 128 has a value if it stands in an alphabet, at the place of its value. -/
theorem digit?_ascii : ∀ n < 128, ∀ d < 16, digit? 16 (Char.ofNat n) = some d ↔
    lowerDigits[d]? = some (Char.ofNat n) ∨ upperDigits[d]? = some (Char.ofNat n) := by
  decide +kernel

/-- Whatever the base, a digit is an ASCII character with a value below sixteen. -/
theorem digit?_bounds {base d : Nat} {c : Char} (h : digit? base c = some d) :
    d < base ∧ d < 16 ∧ c.toNat < 128 ∧ digit? 16 c = some d := by
  unfold digit? at h ⊢
  obtain ⟨hvalue, hbase⟩ := Option.filter_eq_some_iff.mp h
  have hd : d < 16 ∧ c.toNat < 128 := by
    simp only [Char.reduceToNat] at hvalue
    split_ifs at hvalue <;> cases hvalue <;> omega
  exact ⟨of_decide_eq_true hbase, hd.1, hd.2,
    Option.filter_eq_some_iff.mpr ⟨hvalue, decide_eq_true hd.1⟩⟩

theorem digit?_of_lt {base d : Nat} {c : Char} (h : digit? 16 c = some d) (hd : d < base) :
    digit? base c = some d := by
  unfold digit? at h ⊢
  obtain ⟨hvalue, -⟩ := Option.filter_eq_some_iff.mp h
  exact Option.filter_eq_some_iff.mpr ⟨hvalue, decide_eq_true hd⟩

theorem Digit.bounds {base d : Nat} {c : Char} (h : Digit base c d) : d < 16 ∧ c.toNat < 128 := by
  have hall : (lowerDigits ++ upperDigits).all (fun c => decide (c.toNat < 128)) = true := by
    decide +kernel
  have hascii : c ∈ lowerDigits ++ upperDigits → c.toNat < 128 :=
    fun hc => of_decide_eq_true (List.all_eq_true.mp hall c hc)
  rcases h.2 with h | h
  · exact ⟨(List.getElem?_eq_some_iff.mp h).1,
      hascii (List.mem_append_left _ (List.mem_of_getElem? h))⟩
  · exact ⟨(List.getElem?_eq_some_iff.mp h).1,
      hascii (List.mem_append_right _ (List.mem_of_getElem? h))⟩

/-- A character has a value in a base exactly if it is the digit of that value. -/
theorem digit?_eq_some_iff {base d : Nat} {c : Char} :
    digit? base c = some d ↔ Digit base c d := by
  have hchar : Char.ofNat c.toNat = c := Char.ofNat_toNat c
  constructor
  · intro h
    obtain ⟨hbase, hd, hc, hvalue⟩ := digit?_bounds h
    have hplace := digit?_ascii c.toNat hc d hd
    rw [hchar] at hplace
    exact ⟨hbase, hplace.mp hvalue⟩
  · intro h
    obtain ⟨hd, hc⟩ := h.bounds
    have hplace := digit?_ascii c.toNat hc d hd
    rw [hchar] at hplace
    exact digit?_of_lt (hplace.mpr h.2) h.1

/-- The digits that numbers are printed with are digits. -/
theorem digit_digitChar {base d : Nat} (hbase : base ≤ 16) (h : d < base) :
    Digit base d.digitChar d := by
  have hplace : ∀ d < 16, lowerDigits[d]? = some d.digitChar := by decide +kernel
  exact ⟨h, .inl (hplace d (Nat.lt_of_lt_of_le h hbase))⟩

/-- A digit in upper case is a digit of the same value. -/
theorem Digit.toUpper {base d : Nat} {c : Char} (h : Digit base c d) : Digit base c.toUpper d := by
  have hcase : ∀ d < 16, (lowerDigits[d]?.map Char.toUpper = upperDigits[d]?) ∧
      upperDigits[d]?.map Char.toUpper = upperDigits[d]? := by decide +kernel
  obtain ⟨hlower, hupper⟩ := hcase d h.bounds.1
  refine ⟨h.1, .inr ?_⟩
  rcases h.2 with h | h
  · rw [← hlower, h]
    rfl
  · rw [← hupper, h]
    rfl

/-! ## Rows of digits -/

/-- The characters are digits, at least one, and the number is the one that they write. -/
def Row (base : Nat) (s : List Char) (v : Nat) : Prop :=
  s ≠ [] ∧ ∃ ds, List.Forall₂ (Digit base) s ds ∧ Nat.ofDigits base ds.reverse = v

/-- Two leading digits count like one that is worth both. -/
theorem ofDigits_leading (base : Nat) (ds : List Nat) (d read : Nat) :
    Nat.ofDigits base (ds ++ [d, read]) = Nat.ofDigits base (ds ++ [base * read + d]) := by
  simp only [Nat.ofDigits_append, Nat.ofDigits_cons, Nat.ofDigits_nil]
  ring

/-- Digits are read after those that were read before. -/
theorem digitsFrom?_eq_some_iff {base read v : Nat} {s : List Char} :
    digitsFrom? base read s = some v ↔
      ∃ ds, List.Forall₂ (Digit base) s ds ∧ Nat.ofDigits base (ds.reverse ++ [read]) = v := by
  induction s generalizing read with
  | nil =>
    unfold digitsFrom?
    simp
  | cons c s ih =>
    have hstep : ∀ (ds : List Nat) (d : Nat), Nat.ofDigits base ((d :: ds).reverse ++ [read]) =
        Nat.ofDigits base (ds.reverse ++ [base * read + d]) := by
      intro ds d
      rw [List.reverse_cons, List.append_assoc]
      exact ofDigits_leading base ds.reverse d read
    unfold digitsFrom?
    rw [Option.bind_eq_some_iff]
    constructor
    · rintro ⟨d, hc, hrest⟩
      obtain ⟨ds, hds, hv⟩ := ih.mp hrest
      exact ⟨d :: ds, .cons (digit?_eq_some_iff.mp hc) hds, (hstep ds d).trans hv⟩
    · rintro ⟨_, hall, hv⟩
      obtain ⟨d, ds, hc, hds, rfl⟩ := List.forall₂_cons_left_iff.mp hall
      exact ⟨d, digit?_eq_some_iff.mpr hc, ih.mpr ⟨ds, hds, (hstep ds d).symm.trans hv⟩⟩

theorem digits?_eq_some_iff {base v : Nat} {s : List Char} :
    digits? base s = some v ↔ Row base s v := by
  have hzero : ∀ ds : List Nat,
      Nat.ofDigits base (ds.reverse ++ [0]) = Nat.ofDigits base ds.reverse := by
    intro ds
    rw [Nat.ofDigits_append, Nat.ofDigits_singleton, Nat.mul_zero, Nat.add_zero]
  cases s with
  | nil =>
    unfold digits? Row
    simp
  | cons c s =>
    change digitsFrom? base 0 (c :: s) = some v ↔ _
    rw [digitsFrom?_eq_some_iff]
    constructor
    · rintro ⟨ds, hds, hv⟩
      exact ⟨List.cons_ne_nil c s, ds, hds, (hzero ds).symm.trans hv⟩
    · rintro ⟨-, ds, hds, hv⟩
      exact ⟨ds, hds, (hzero ds).trans hv⟩

namespace Row

variable {base v : Nat} {s : List Char}

theorem toUpper (h : Row base s v) : Row base (s.map Char.toUpper) v := by
  obtain ⟨hs, ds, hds, hv⟩ := h
  refine ⟨fun hnil => hs (List.map_eq_nil_iff.mp hnil), ds, ?_, hv⟩
  exact List.forall₂_map_left_iff.mpr (hds.imp fun _ _ => Digit.toUpper)

/-- Another digit at the end. -/
theorem concat (h : Row base s v) {c : Char} {d : Nat} (hc : Digit base c d) :
    Row base (s ++ [c]) (d + base * v) := by
  obtain ⟨hs, ds, hds, hv⟩ := h
  refine ⟨List.append_ne_nil_of_left_ne_nil hs _, ds ++ [d], ?_, ?_⟩
  · exact List.rel_append hds (.cons hc .nil)
  · rw [List.reverse_concat, Nat.ofDigits_cons, hv]

/-- Zeros at the front change nothing. -/
theorem zeros (h : Row base s v) (hbase : 0 < base) (k : Nat) :
    Row base (List.replicate k '0' ++ s) v := by
  obtain ⟨hs, ds, hds, hv⟩ := h
  have hdigit : Digit base '0' 0 := ⟨hbase, .inl (by decide)⟩
  refine ⟨List.append_ne_nil_of_right_ne_nil _ hs, List.replicate k 0 ++ ds, ?_, ?_⟩
  · induction k with
    | zero => exact hds
    | succ k ih => exact .cons hdigit ih
  · rw [List.reverse_append, List.reverse_replicate, Nat.ofDigits_append_replicate_zero, hv]

/-- The digits that a number is printed with write that number. -/
theorem printed (hbase : 1 < base) (hsixteen : base ≤ 16) (n : Nat) :
    Row base (Nat.toDigits base n) n := by
  induction n using Nat.strongRecOn with
  | ind n ih =>
    rw [Nat.toDigits_eq_if hbase]
    split
    · rename_i hlt
      exact ⟨List.cons_ne_nil _ _, [n], .cons (digit_digitChar hsixteen hlt) .nil,
        Nat.ofDigits_singleton⟩
    · have hfirst := ih (n / base) (Nat.div_lt_self (by omega) hbase)
      have hlast := digit_digitChar hsixteen (Nat.mod_lt n (Nat.lt_of_succ_lt hbase))
      have hwhole := hfirst.concat hlast
      rw [Nat.mod_add_div] at hwhole
      exact hwhole

end Row

/-! ## Numerals -/

/-- The text is a numeral for this number: decimal digits, or `0x` and hexadecimal digits. -/
def Writes (s : String) (v : Nat) : Prop :=
  Row 10 s.toList v ∨ ∃ ds, s.toList = '0' :: 'x' :: ds ∧ Row 16 ds v

/-- There is no `x` among decimal digits. -/
theorem not_row_marked {ds : List Char} {v : Nat} : ¬ Row 10 ('0' :: 'x' :: ds) v := by
  rintro ⟨-, _, hall, -⟩
  obtain ⟨-, _, -, hrest, -⟩ := List.forall₂_cons_left_iff.mp hall
  obtain ⟨d, -, hx, -⟩ := List.forall₂_cons_left_iff.mp hrest
  have hnone : digit? 10 'x' = none := by decide
  exact nomatch hnone.symm.trans (digit?_eq_some_iff.mpr hx)

theorem splitBase_cases (s : List Char) :
    (∃ ds, s = '0' :: 'x' :: ds ∧ splitBase s = (16, ds)) ∨
      splitBase s = (10, s) ∧ ∀ ds, s ≠ '0' :: 'x' :: ds := by
  unfold splitBase
  split
  · exact .inl ⟨_, rfl, rfl⟩
  · rename_i hplain
    exact .inr ⟨rfl, hplain⟩

/-- A text is read as a number exactly if it is a numeral for it and the number has 32 bits. -/
theorem unsigned?_eq_some_iff {s : String} {v : Nat} :
    unsigned? s = some v ↔ Writes s v ∧ v < UInt32.size := by
  have hbase : ∀ {base ds}, splitBase s.toList = (base, ds) →
      (unsigned? s = some v ↔ Row base ds v ∧ v < UInt32.size) := by
    intro base ds hsplit
    unfold unsigned? unsignedOfList?
    rw [hsplit, ← digits?_eq_some_iff]
    exact Option.filter_eq_some_iff.trans (and_congr_right fun _ => decide_eq_true_iff)
  unfold Writes
  rcases splitBase_cases s.toList with ⟨ds, hs, hsplit⟩ | ⟨hsplit, hplain⟩
  · rw [hbase hsplit, hs]
    constructor
    · rintro ⟨hrow, hv⟩
      exact ⟨.inr ⟨ds, rfl, hrow⟩, hv⟩
    · rintro ⟨hrow | ⟨_, hds, hrow⟩, hv⟩
      · exact absurd hrow not_row_marked
      · cases hds
        exact ⟨hrow, hv⟩
  · rw [hbase hsplit]
    constructor
    · rintro ⟨hrow, hv⟩
      exact ⟨.inl hrow, hv⟩
    · rintro ⟨hrow | ⟨ds, hs, -⟩, hv⟩
      · exact ⟨hrow, hv⟩
      · exact absurd hs (hplain ds)

open Attribute (orInvalid)

/-- A text is read as a number exactly if it is a numeral, in decimal or in hexadecimal digits, for
that number, and it has 32 bits; every other text is refused. So every number of 32 bits that is
printed, in decimal digits, or after `0x` in hexadecimal ones of either case and to any width, is
read back. -/
theorem unsigned_numerals :
    (∀ s : String,
      (∀ v, orInvalid (unsigned? s) = .ok v ↔ Writes s v ∧ v < UInt32.size) ∧
      (orInvalid (unsigned? s) = .error .invalidArgument ↔
        ¬ ∃ v, Writes s v ∧ v < UInt32.size)) ∧
    ∀ n : UInt32, orInvalid (unsigned? (toString n.toNat)) = .ok n.toNat ∧
      ∀ width, orInvalid (unsigned? ("0x" ++ hexadecimal width n.toNat)) = .ok n.toNat ∧
        orInvalid (unsigned? ("0x" ++ (hexadecimal width n.toNat).map Char.toUpper)) =
          .ok n.toNat := by
  have hok : ∀ s v, orInvalid (unsigned? s) = .ok v ↔ Writes s v ∧ v < UInt32.size := by
    intro s v
    rw [← unsigned?_eq_some_iff]
    cases unsigned? s with
    | none => exact ⟨fun h => (nomatch h), fun h => (nomatch h)⟩
    | some w => exact ⟨fun h => congrArg some (Outcome.ok.inj h),
        fun h => congrArg Outcome.ok (Option.some.inj h)⟩
  refine ⟨fun s => ⟨hok s, ?_⟩, fun n => ⟨?_, fun width => ?_⟩⟩
  · have hsome : (∃ v, Writes s v ∧ v < UInt32.size) ↔ ∃ v, unsigned? s = some v :=
      exists_congr fun v => unsigned?_eq_some_iff.symm
    rw [hsome]
    cases unsigned? s with
    | none => exact ⟨fun _ ⟨v, hv⟩ => (nomatch hv), fun _ => rfl⟩
    | some w => exact ⟨fun h => (nomatch h), fun h => absurd ⟨w, rfl⟩ h⟩
  · refine (hok _ _).mpr ⟨.inl ?_, n.toNat_lt⟩
    exact Nat.toList_repr ▸ Row.printed (by decide) (by decide) n.toNat
  · have hrow : Row 16 (hexadecimal width n.toNat).toList n.toNat := by
      unfold hexadecimal
      dsimp only
      rw [String.toList_ofList]
      exact (Row.printed (by decide) (by decide) n.toNat).zeros (by decide) _
    have hmarked : ∀ t : String, ("0x" ++ t).toList = '0' :: 'x' :: t.toList :=
      fun t => String.toList_append
    refine ⟨(hok _ _).mpr ⟨.inr ⟨_, hmarked _, hrow⟩, n.toNat_lt⟩,
      (hok _ _).mpr ⟨.inr ⟨_, hmarked _, ?_⟩, n.toNat_lt⟩⟩
    rw [String.toList_map]
    exact hrow.toUpper

example : ["0004294967295", "4294967296", "0X1F", "+5", "\u0663"].map unsigned? =
    [some 4294967295, none, none, none, none] := by decide +kernel

end AdcCapture.Text
