/-
  A millivolt attribute is stored as it is shown. The text that is shown writes the millivolts of
  a code to six places; read back, it is off by far less than an eighth of a step
  (`Binary32.fixedUnits_close`), so it denotes the code (`Attribute.InMillivolts.denotes_trimmed`)
  and the converter holds what it held (`Driver.storeAttribute_shown`). But the text is aligned in
  ten columns, and no numeral begins with a blank: a short text has to be stored without the blanks
  before it (`Driver.storeAttribute_shown_refused`).
-/
import AdcCapture.Proofs.AttributeIndependence
import AdcCapture.Proofs.DecimalText
import AdcCapture.Proofs.MillivoltCodes

namespace AdcCapture

namespace Binary32

/-- A number is written with the nearest number of units of the last decimal. -/
theorem abs_fixedUnits_sub (places : Nat) (x : Binary32) :
    |(x.fixedUnits places : ℚ) - |x.toRat| * 10 ^ places| ≤ 1 / 2 := by
  have hround := @abs_roundHalfEven_sub (x.magnitude * Nat.pow 10 places) oneUnits (by decide)
  have hpow : ((Nat.pow 10 places : Nat) : ℚ) = 10 ^ places := Nat.cast_pow 10 places
  have hexact : ((x.magnitude * Nat.pow 10 places : Nat) : ℚ) / oneUnits =
      |x.toRat| * 10 ^ places := by
    rw [abs_toRat, oneUnits_eq, Nat.cast_mul, hpow, mul_div_right_comm]
  rw [hexact] at hround
  exact hround

/-- What is written to some places is the number up to a half of the last one. -/
theorem written_close (places : Nat) (x : Binary32) :
    |sign x.negative * (x.fixedUnits places / 10 ^ places : ℚ) - x.toRat| ≤
      1 / (2 * 10 ^ places) := by
  have hpos : (0 : ℚ) < 10 ^ places := by positivity
  have hfactor : sign x.negative * (x.fixedUnits places / 10 ^ places : ℚ) - x.toRat =
      sign x.negative * ((x.fixedUnits places - |x.toRat| * 10 ^ places) / 10 ^ places) := by
    rw [x.toRat_eq, abs_mul, abs_sign, one_mul, abs_of_nonneg (by positivity)]
    field_simp
  have hhalf : (1 : ℚ) / (2 * 10 ^ places) = 1 / 2 / 10 ^ places := by
    rw [div_div]
  rw [hfactor, abs_mul, abs_sign, one_mul, abs_div, abs_of_pos hpos, hhalf]
  exact div_le_div_of_nonneg_right (abs_fixedUnits_sub places x) hpos.le

/-- A number that is written to six places and read back is off by the two roundings. -/
theorem fixedUnits_close {x : Binary32} (hsize : |x.toRat| ≤ 10000) :
    let y := ofDecimal x.negative (x.fixedUnits 6) (-6)
    y.pattern < infinityPattern ∧ |y.toRat - x.toRat| ≤ |x.toRat| / 2 ^ 24 + 1 / 10 ^ 6 := by
  intro y
  have hdigits : x.fixedUnits 6 < 2 ^ 127 := by
    have hle : (x.fixedUnits 6 : ℚ) ≤ 10000 * 10 ^ 6 + 1 / 2 := by
      linarith [(abs_le.mp (abs_fixedUnits_sub 6 x)).2]
    have hlt : (x.fixedUnits 6 : ℚ) < 2 ^ 127 := by
      refine hle.trans_lt ?_
      norm_num
    exact_mod_cast hlt
  have hwritten := written_close 6 x
  have hread : Near y (sign x.negative * (x.fixedUnits 6 / 10 ^ 6)) :=
    ofDecimal_near x.negative hdigits 6
  refine ⟨hread.finite, ?_⟩
  have hround := hread.error
  have hvalue := abs_sub_abs_le_abs_sub (sign x.negative * (x.fixedUnits 6 / 10 ^ 6 : ℚ)) x.toRat
  have htriangle := abs_sub_le y.toRat (sign x.negative * (x.fixedUnits 6 / 10 ^ 6)) x.toRat
  norm_num at hwritten hround hvalue htriangle ⊢
  linarith

end Binary32

/-- The millivolts of a code, written to six places and read back, are taken for the code. -/
theorem Millivolts.toCode_written {step : Binary32} {lo hi c : Int} (h : Millivolts.Stepped step)
    (hordered : Attribute.Ordered step lo hi) (hlo : lo ≤ c) (hhi : c ≤ hi) (hlow : -4096 ≤ lo)
    (hhigh : hi ≤ 4096) {ε : Type} :
    let x := Binary32.ofInt c * step
    let y := Binary32.ofDecimal x.negative (x.fixedUnits 6) (-6)
    y.pattern < Binary32.infinityPattern ∧ toCode y step lo hi = (.ok c : Outcome ε Int) := by
  intro x y
  obtain ⟨-, hnear⟩ := ofCode_near h (by omega : -4096 ≤ c) (by omega)
  have hsize := ofCode_size h (by omega : -4096 ≤ c) (by omega)
  have hbounded : |x.toRat| ≤ 10000 := by linarith [h.high]
  obtain ⟨hfinite, hclose⟩ := Binary32.fixedUnits_close hbounded
  refine ⟨hfinite, toCode_of_close h hordered hlo hhi hlow hhigh hfinite ?_⟩
  have hpos := h.pos
  have herror : |x.toRat| / 2 ^ 24 + 1 / 10 ^ 6 ≤ step.toRat / 1000 := by
    norm_num
    linarith [h.low]
  have htriangle := abs_sub_le y.toRat x.toRat (c * step.toRat)
  linarith

namespace Attribute

open Binary32 (infinityPattern fixedChars padLeft trimmed)
open Millivolts (Stepped)

/-- The attribute is a number of millivolts, kept as a code from `lo` to `hi`. -/
structure InMillivolts (a : Attribute) (step : Binary32) (lo hi : Int) : Prop where
  domain : a.domain = .millivolts step lo hi
  shown : ∀ v, a.shown v = Millivolts.textOfCode step v
  stepped : Stepped step
  ordered : Ordered step lo hi
  low : -4096 ≤ lo
  high : hi ≤ 4096
  /-- Whatever the registers hold is a code of the attribute. -/
  held : ∀ k, ∃ c, a.held k = some c ∧ lo ≤ c ∧ c ≤ hi

theorem inMillivolts {a : Attribute} (h : a = offset ∨ a = hysteresis ∨ ∃ t, a = threshold t) :
    ∃ step lo hi, InMillivolts a step lo hi := by
  have hsigned : ∀ (f : WideField) (k : Chip), f.Placed →
      f.minSigned ≤ f.toSigned (k.wide f) ∧ f.toSigned (k.wide f) ≤ f.maxSigned :=
    fun f k hf => WideField.toSigned_range hf (WideField.join_lt hf _ _)
  rcases h with rfl | rfl | ⟨t, rfl⟩
  · exact ⟨_, _, _, rfl, fun _ => rfl, Millivolts.offset_stepped, offset_ordered, by decide,
      by decide, fun k => ⟨_, rfl, hsigned .offset k (by decide)⟩⟩
  · refine ⟨_, _, _, rfl, fun _ => rfl, Millivolts.event_stepped, hysteresis_ordered, by decide,
      by decide, fun k => ⟨_, rfl, ?_⟩⟩
    have hlt : (k.wide .hysteresis).toNat < 1024 := WideField.join_lt (by decide) _ _
    change (0 : Int) ≤ ((k.wide .hysteresis).toNat : Int) ∧
      ((k.wide .hysteresis).toNat : Int) ≤ 1023
    omega
  · cases t with
    | high =>
      exact ⟨_, _, _, rfl, fun _ => rfl, Millivolts.event_stepped, threshold_ordered .high,
        by decide, by decide, fun k => ⟨_, rfl, hsigned .highThreshold k (by decide)⟩⟩
    | low =>
      exact ⟨_, _, _, rfl, fun _ => rfl, Millivolts.event_stepped, threshold_ordered .low,
        by decide, by decide, fun k => ⟨_, rfl, hsigned .lowThreshold k (by decide)⟩⟩

namespace InMillivolts

variable {a : Attribute} {step : Binary32} {lo hi c : Int} (h : a.InMillivolts step lo hi)
  (hlo : lo ≤ c) (hhi : c ≤ hi)
include h hlo hhi

/-- The text of a code is a numeral, right-aligned in ten columns, that denotes the code. -/
theorem shown_eq : ∃ s : List Char, (∃ b r, s = b :: r ∧ b ≠ ' ') ∧
    a.shown c = String.ofList (padLeft 10 s) ∧ a.domain.Denotes (String.ofList s) c := by
  have hlow := h.low
  have hhigh := h.high
  obtain ⟨hfinite, -⟩ := Millivolts.ofCode_near h.stepped (by omega : -4096 ≤ c) (by omega)
  obtain ⟨hfinite', hcode⟩ := Millivolts.toCode_written h.stepped h.ordered hlo hhi hlow hhigh
  have hnan := Binary32.not_nan_of_finite hfinite
  have hinfinite := Binary32.not_infinite_of_finite hfinite
  refine ⟨_, Binary32.head_fixedChars hnan hinfinite (by decide : 6 ≠ 0), h.shown c, ?_⟩
  generalize Binary32.ofInt c * step = x at hnan hinfinite hfinite' hcode
  rw [h.domain]
  refine ⟨.ofDecimal x.negative (x.fixedUnits 6) (-6), ?_, Binary32.not_nan_of_finite hfinite',
    hcode⟩
  unfold Binary32.ofText?
  rw [String.toList_ofList, Binary32.ofList?_fixedChars hnan hinfinite (by decide)]
  rfl

/-- Without the blanks before it, the text of a code denotes the code. -/
theorem denotes_trimmed : a.domain.Denotes (trimmed (a.shown c)) c := by
  obtain ⟨s, ⟨b, r, rfl, hb⟩, hshown, hdenotes⟩ := h.shown_eq hlo hhi
  unfold trimmed
  rw [hshown, String.toList_ofList, Binary32.dropWhile_padLeft hb]
  exact hdenotes

/-- The text of a code fills the ten columns, or it has blanks before it and is not accepted. -/
theorem shown_cases :
    (trimmed (a.shown c) = a.shown c ∧ 10 ≤ (trimmed (a.shown c)).length) ∨
      (trimmed (a.shown c) ≠ a.shown c ∧ (trimmed (a.shown c)).length < 10 ∧
        ¬ a.domain.Accepts (a.shown c)) := by
  obtain ⟨s, ⟨b, r, rfl, hb⟩, hshown, -⟩ := h.shown_eq hlo hhi
  have htrimmed : trimmed (a.shown c) = String.ofList (b :: r) := by
    unfold trimmed
    rw [hshown, String.toList_ofList, Binary32.dropWhile_padLeft hb]
  rw [htrimmed, String.length_ofList]
  rcases Binary32.padLeft_cases (c := b) r 10 with ⟨hfull, hlength⟩ | ⟨⟨t, hblank⟩, hlength⟩
  · exact .inl ⟨by rw [hshown, hfull], hlength⟩
  · rw [hblank] at hshown
    refine .inr ⟨fun heq => ?_, hlength, ?_⟩
    · exact hb (List.cons.inj (String.ofList_injective (heq.trans hshown))).1
    · rw [h.domain]
      rintro ⟨x, hx, -⟩
      unfold Binary32.ofText? at hx
      rw [hshown, String.toList_ofList, Binary32.Numeral.ofList?_blank] at hx
      cases hx

end InMillivolts

end Attribute

namespace Driver

variable {d : Driver} {i : Nat} {a : Attribute}

/-- A millivolt attribute takes what it shows. Of any driver, whatever the registers hold, where no
access fails: the text that the attribute shows, without the blanks that align it, is stored, and
the converter holds the code that it held. The text is aligned by blanks exactly if it would be
shorter than ten columns. With blanks before it it is refused as an invalid argument, and nothing
is done but that it is logged. -/
theorem storeAttribute_shown (ha : Attribute.ofIndex? i = some a)
    (hmillivolts : a = .offset ∨ a = .hysteresis ∨ ∃ t, a = .threshold t)
    (hd : d.fifo.board.Reliable) :
    ∃ text b, (∀ interrupts room, showAttributeOn (.whole Driver) interrupts i room d =
        fitting room text (d.withBoard b)) ∧
      (∃ c, storeAttribute i (Binary32.trimmed text) (d.withBoard b) = (.ok (), d.withBoard c) ∧
        a.held c.chip = a.held d.fifo.board.chip) ∧
      (Binary32.trimmed text = text ↔ 10 ≤ (Binary32.trimmed text).length) ∧
      (Binary32.trimmed text ≠ text → storeAttribute i text (d.withBoard b) =
        (.error .invalidArgument, d.withBoard (b.noted (.attributeStored a.name text)))) := by
  obtain ⟨step, lo, hi, h⟩ := Attribute.inMillivolts hmillivolts
  obtain ⟨code, hheld, hlo, hhi⟩ := h.held d.fifo.board.chip
  have hraw : a ≠ .raw := by rintro rfl; cases h.domain
  have hwatermark : a ≠ .fifoWatermark := by rintro rfl; cases h.domain
  obtain ⟨b, hrun, hb, -⟩ := Attribute.registerText_answers hd hraw
  have htext : a.heldText d.fifo.board.chip = a.shown code := by
    unfold Attribute.heldText
    rw [hheld]
    rfl
  rw [htext] at hrun
  have hcases := h.shown_cases hlo hhi
  refine ⟨a.shown code, b, fun interrupts room => ?_, ?_, ?_, fun hne => ?_⟩
  · exact (showAttribute_eq ha hraw interrupts room).trans (Action.bind_ok _ (onBoard_eq hrun) _)
  · have hdenotes := h.denotes_trimmed hlo hhi
    obtain ⟨c, hstore, -, hc⟩ :=
      storeAttribute_reliable (d := d.withBoard b) ha hdenotes hwatermark (hd.after hb)
    refine ⟨c, hstore, ?_⟩
    rw [hc, Attribute.held_stored hdenotes.admits, hheld]
  · rcases hcases with ⟨heq, hlength⟩ | ⟨hne, hlength, -⟩
    · exact ⟨fun _ => hlength, fun _ => heq⟩
    · exact ⟨fun heq => absurd heq hne, fun hle => absurd hle (Nat.not_le.mpr hlength)⟩
  · obtain ⟨heq, -⟩ | ⟨-, -, hrefused⟩ := hcases
    · exact absurd heq hne
    · exact storeAttribute_refused ha hrefused

/-- An offset of zero is shown with two blanks. It is stored without them and refused with them. -/
theorem storeAttribute_shown_zero :
    ∃ d, (init { watermark := 2 } (Board.probed [])).1 = .ok d ∧
      let x := d.withBoard {}
      ∃ b c, showAttributeOn (.whole Driver) {} 2 none x = (.ok "  0.000000", x.withBoard b) ∧
        storeAttribute 2 "0.000000" (x.withBoard b) = (.ok (), x.withBoard c) ∧
        Attribute.offset.held c.chip = Attribute.offset.held x.fifo.board.chip ∧
        (storeAttribute 2 "  0.000000" (x.withBoard b)).1 = .error .invalidArgument := by
  have hrun : ((init { watermark := 2 } (Board.probed [])).1.map fun d =>
      (showAttributeOn (.whole Driver) {} 2 none (d.withBoard {})).1) =
      .ok (.ok "  0.000000") := by decide +kernel
  obtain ⟨d, hinit, hshow⟩ := Outcome.of_map_ok hrun
  refine ⟨d, hinit, ?_⟩
  intro x
  obtain ⟨text, b, hshown, ⟨c, hstore, hheld⟩, -, hrefused⟩ :=
    storeAttribute_shown (d := x) (i := 2) rfl (.inl rfl) (Board.healthy_default rfl rfl).reliable
  have htext : text = "  0.000000" :=
    Outcome.ok.inj ((congrArg Prod.fst (hshown {} none)).symm.trans hshow)
  subst htext
  have htrimmed : Binary32.trimmed "  0.000000" = "0.000000" := by decide +kernel
  rw [htrimmed] at hstore hrefused
  exact ⟨b, c, hshown {} none, hstore, hheld, congrArg Prod.fst (hrefused (by decide))⟩

/-- The text as it is shown is not always taken back: an offset of zero is shown with blanks before
it, which is no numeral. -/
theorem storeAttribute_shown_refused :
    ¬ ∀ (d : Driver) (c : Board) i a text e, d.Reachable → d.capture = .idle → c.Healthy →
      Attribute.ofIndex? i = some a →
      (a = .offset ∨ a = .hysteresis ∨ ∃ t, a = .threshold t) →
      showAttributeOn (.whole Driver) {} i none (d.withBoard c) = (.ok text, e) →
      (storeAttribute i text e).1 = .ok () ∧
        a.held (storeAttribute i text e).2.fifo.board.chip = a.held e.fifo.board.chip := by
  intro h
  have hrun : ((init { watermark := 2 } (Board.probed [])).1.map fun d =>
      let x := showAttributeOn (.whole Driver) {} 2 none (d.withBoard {})
      (d.capture, x.1, (storeAttribute 2 "  0.000000" x.2).1)) =
      .ok (.idle, .ok "  0.000000", .error .invalidArgument) := by decide +kernel
  obtain ⟨d, hinit, hrun⟩ := Outcome.of_map_ok hrun
  rcases hshown : showAttributeOn (.whole Driver) {} 2 none (d.withBoard {}) with ⟨o, e⟩
  simp only [hshown, Prod.mk.injEq] at hrun
  obtain ⟨hidle, rfl, hstore⟩ := hrun
  have hd : d.Reachable := ⟨Store, inferInstance, _, _, d, fun _ => { capacity := 0 }, [], hinit,
    List.mem_singleton.mpr rfl⟩
  obtain ⟨hok, -⟩ :=
    h d {} 2 .offset _ e hd hidle (Board.healthy_default rfl rfl) rfl (.inl rfl) hshown
  exact nomatch hstore.symm.trans hok

end Driver

end AdcCapture
