/-
  Decoding a stream of samples, and the way back. The words of a stream are what its bytes say,
  three to a word (`Sample.Holds`): the synchronisation byte and what follows the last word make no
  difference, and packing the words gives the bytes between these back. So decoding and packing are
  inverse to each other, on streams of any length (`Fifo.stream_round_trip`). A readout decodes the
  bytes that the FIFO serves, or leaves the samples of the readout before it.
-/
import AdcCapture.Proofs.BusFaults
import AdcCapture.Proofs.SampleStream

namespace AdcCapture

namespace Sample

/-- These are the first `n` words that the bytes hold, the byte at place 0 left out. -/
structure Holds (bytes : Nat → UInt8) (n : Nat) (words : Array UInt32) : Prop where
  size_eq : words.size = n
  word : ∀ i (hi : i < words.size), words[i].toNat =
    (bytes (3 * i + 1)).toNat * 65536 + (bytes (3 * i + 2)).toNat * 256 +
      (bytes (3 * i + 3)).toNat

theorem toNat_ofBytes (high middle low : UInt8) :
    (ofBytes high middle low).toNat = high.toNat * 65536 + middle.toNat * 256 + low.toNat := by
  have hhigh := high.toNat_lt
  have hmiddle := middle.toNat_lt
  have hlow := low.toNat_lt
  rw [ofBytes, UInt32.toNat_ofNat', Nat.shiftLeft_eq, Nat.shiftLeft_eq]
  omega

/-- The bytes of a word of three bytes are these bytes. -/
theorem toBytes_ofBytes (high middle low : UInt8) :
    toBytes (ofBytes high middle low) = [high, middle, low] := by
  have hhigh := high.toNat_lt
  have hmiddle := middle.toNat_lt
  have hlow := low.toNat_lt
  have hbyte : ∀ (x : UInt8) {n : Nat}, n % 256 = x.toNat → UInt8.ofNat n = x :=
    fun x _ hn => UInt8.toNat_inj.mp (UInt8.toNat_ofNat'.trans hn)
  unfold toBytes
  rw [toNat_ofBytes]
  rw [hbyte high (by omega), hbyte middle (by omega), hbyte low (by omega)]

/-- Only the bytes of the words count. -/
theorem Holds.congr {bytes bytes' : Nat → UInt8} {n : Nat} {words : Array UInt32}
    (h : Holds bytes n words) (hbytes : ∀ j, j < 3 * n + 1 → bytes j = bytes' j) :
    Holds bytes' n words where
  size_eq := h.size_eq
  word i hi := by
    have hin : i < n := h.size_eq ▸ hi
    rw [h.word i hi, hbytes _ (by omega), hbytes _ (by omega), hbytes _ (by omega)]

theorem words_hold (stream : Array UInt8) (n : Nat) :
    Holds (fun j => stream.getD j 0) n (words stream n) where
  size_eq := Array.size_ofFn
  word i hi := by
    rw [getElem_words hi]
    exact toNat_ofBytes _ _ _

theorem size_pack (sync : UInt8) (v : List UInt32) :
    (pack sync v).size = streamLength v.length := by
  have hbytes : ∀ w, (toBytes w).length = 3 := fun _ => rfl
  unfold pack
  rw [List.size_toArray, List.length_cons, length_flatMap_of_length hbytes]
  rfl

theorem take_three {l : List UInt8} {i : Nat} (h : i + 3 ≤ l.length) :
    (l.drop i).take 3 = [l.getD i 0, l.getD (i + 1) 0, l.getD (i + 2) 0] := by
  have hplace : ∀ j (hj : j < l.length), l.getD j 0 = l[j] := by
    intro j hj
    rw [List.getD_eq_getElem?_getD, List.getElem?_eq_getElem hj, Option.getD_some]
  rw [hplace i (by omega), hplace (i + 1) (by omega), hplace (i + 2) (by omega),
    List.drop_eq_getElem_cons (show i < l.length by omega),
    List.drop_eq_getElem_cons (show i + 1 < l.length by omega),
    List.drop_eq_getElem_cons (show i + 1 + 1 < l.length by omega)]
  rfl

/-- Packing the words of a stream gives back the bytes that they were decoded from. -/
theorem flatMap_toBytes_words {stream : Array UInt8} {n : Nat} (h : 3 * n + 1 ≤ stream.size) :
    (words stream n).toList.flatMap toBytes = (stream.toList.drop 1).take (3 * n) := by
  have hread : ∀ j, stream.getD j 0 = stream.toList.getD j 0 := by
    intro j
    rw [Array.getD_eq_getD_getElem?, ← Array.getElem?_toList, List.getD_eq_getElem?_getD]
  induction n with
  | zero => rfl
  | succ n ih =>
    have hlast : toBytes (wordAt stream n) = ((stream.toList.drop 1).drop (3 * n)).take 3 := by
      rw [List.drop_drop, Nat.add_comm 1, take_three (by rw [Array.length_toList]; omega)]
      unfold wordAt
      dsimp only
      rw [toBytes_ofBytes, hread, hread, hread]
      rfl
    have hwords : words stream (n + 1) = (words stream n).push (wordAt stream n) := Array.ofFn_succ
    rw [hwords, Array.toList_push, List.flatMap_append, ih (by omega), Nat.mul_succ, List.take_add,
      List.flatMap_singleton, hlast]

/-- A packed stream decodes to the samples, whatever the synchronisation byte and what follows. -/
theorem words_pack_append (sync : UInt8) {v : List UInt32} (hv : ∀ w ∈ v, w.toNat < 1 <<< 24)
    (rest : Array UInt8) : (words (pack sync v ++ rest) v.length).toList = v := by
  have hstream : ∀ j < streamLength v.length,
      (pack sync v ++ rest).getD j 0 = (pack sync v).getD j 0 := by
    intro j hj
    have hsize : j < (pack sync v).size := by rwa [size_pack]
    rw [Array.getD_eq_getD_getElem?, Array.getD_eq_getD_getElem?,
      Array.getElem?_append_left hsize]
  rw [words_of_pack (Nat.le_refl _) hv hstream, List.take_length]

theorem decode_fault {stream : Array UInt8} {n : Nat} :
    (decode stream n : Outcome Cause _) = .fault .rawTooShort ↔ stream.size < 3 * n + 1 := by
  constructor
  · intro h
    by_contra hlong
    rw [decode_eq (Nat.le_of_not_lt hlong)] at h
    cases h
  · exact fun h => if_neg (Nat.not_le_of_lt h)

end Sample

/-! ## A readout -/

namespace Board

theorem getD_served (b : Board) {n j : Nat} (h : j < n) :
    (b.served n).getD j 0 = b.fifo.getD j 0 := by
  unfold served
  rw [Array.getD_eq_getD_getElem?, Array.getElem?_ofFn, dif_pos h]
  rfl

/-- Whether a readout fails is up to the schedule. If it does not, it gives the first bytes of the
FIFO, filled up with zeros. -/
theorem readData_scheduled (n : Nat) (b : Board) :
    (b.faults.code? b.accesses .data = none → ∃ c, Converter.readData n b = (.ok (b.served n), c)) ∧
      ∀ k, b.faults.code? b.accesses .data = some k →
        ∃ c, Converter.readData n b = (.error (.bus (b.transport.fault k)), c) := by
  obtain ⟨⟨rs, hrs⟩, hends⟩ := serve_asks n b
  have hserved : ∀ v, (serve n b).1 = .ok v → v = b.served n := by
    intro v hv
    rcases serve_ends n b with h | ⟨k, h⟩
    · exact (Outcome.ok.inj ((congrArg Prod.fst h).symm.trans hv)).symm
    · exact nomatch (congrArg Prod.fst h).symm.trans hv
  unfold Converter.readData readData Action.mapError
  rw [Action.state_bind]
  constructor
  · intro h
    rcases hends with ⟨v, hv, -⟩ | ⟨k, -, hk⟩
    · obtain rfl := hserved v hv
      cases b.transport <;>
      · dsimp only
        rw [traced_ok _ _ (Prod.ext hv hrs)]
        exact ⟨_, rfl⟩
    · exact nomatch h.symm.trans hk
  · intro k h
    rcases hends with ⟨v, -, hv⟩ | ⟨k', hk, hcode⟩
    · exact nomatch h.symm.trans hv
    · obtain rfl := Option.some.inj (h.symm.trans hcode)
      cases b.transport <;>
      · dsimp only
        rw [traced_error _ _ (Prod.ext hk hrs)]
        exact ⟨_, rfl⟩

end Board

namespace Fifo

/-- A readout on which the bus does not fail leaves the words of the bytes that the FIFO serves; if
the bus fails, the samples stay those of the readout before. -/
theorem readSamples_scheduled {f : Fifo} {b : Buffers} (hb : f.buffers = some b)
    (hs : b.rawSize = 3 * b.watermark + 1) :
    (f.board.faults.code? f.board.accesses .data = none →
        ∃ g, readSamples f = (.ok (), g) ∧
          Sample.Holds (fun j => f.board.fifo.getD j 0) b.watermark g.samples) ∧
      ∀ k, f.board.faults.code? f.board.accesses .data = some k →
        ∃ g, readSamples f = (.error (.bus (f.board.transport.fault k)), g) ∧
          g.samples = b.samples := by
  obtain ⟨hdone, hfailed⟩ := Board.readData_scheduled b.rawSize f.board
  have hread := readSamples_eq hb hs
  constructor
  · intro h
    obtain ⟨c, hc⟩ := hdone h
    rw [hc] at hread
    refine ⟨_, hread, (Sample.words_hold (f.board.served b.rawSize) _).congr fun j hj => ?_⟩
    exact Board.getD_served f.board (hs ▸ hj)
  · intro k h
    obtain ⟨c, hc⟩ := hfailed k h
    rw [hc] at hread
    refine ⟨_, hread, ?_⟩
    unfold samples
    rw [hb]
    rfl

/-- Decoding undoes packing and packing undoes decoding, on streams of any length. A stream that is
too short is an assertion broken, and no other stream is. A readout gives the words of the bytes
that are served, or changes no sample. -/
theorem stream_round_trip :
    (∀ (raw : Array UInt8) (n : Nat),
      ((Sample.decode raw n : Outcome Cause (Array UInt32)) = .fault .rawTooShort ↔
        raw.size < 3 * n + 1) ∧
      (3 * n + 1 ≤ raw.size → ∃ words,
        (Sample.decode raw n : Outcome Cause (Array UInt32)) = .ok words ∧
        Sample.Holds (fun j => raw.getD j 0) n words ∧
        words.toList.flatMap Sample.toBytes = (raw.toList.drop 1).take (3 * n))) ∧
    (∀ (sync : UInt8) (v : List UInt32) (rest : Array UInt8), (∀ w ∈ v, w.toNat < 1 <<< 24) →
      (Sample.decode (Sample.pack sync v ++ rest) v.length : Outcome Cause (Array UInt32)) =
        .ok v.toArray) ∧
    ∀ (f : Fifo) (b : Buffers), f.buffers = some b → b.rawSize = 3 * b.watermark + 1 →
      (f.board.faults.code? f.board.accesses .data = none →
        ∃ g, readSamples f = (.ok (), g) ∧
          Sample.Holds (fun j => f.board.fifo.getD j 0) b.watermark g.samples) ∧
      ∀ k, f.board.faults.code? f.board.accesses .data = some k →
        ∃ g, readSamples f = (.error (.bus (f.board.transport.fault k)), g) ∧
          g.samples = b.samples := by
  refine ⟨fun raw n => ⟨Sample.decode_fault, fun h => ?_⟩, fun sync v rest hv => ?_,
    fun f b => readSamples_scheduled⟩
  · exact ⟨_, Sample.decode_eq h, Sample.words_hold raw n, Sample.flatMap_toBytes_words h⟩
  · have hlong : Sample.streamLength v.length ≤ (Sample.pack sync v ++ rest).size := by
      rw [Array.size_append, Sample.size_pack]
      exact Nat.le_add_right _ _
    have hwords : Sample.words (Sample.pack sync v ++ rest) v.length = v.toArray :=
      Array.toList_inj.mp (Sample.words_pack_append sync hv rest)
    rw [Sample.decode_eq hlong, hwords]

/-- Two samples are asked for and the FIFO serves one and a third; on the same board with a bus that
fails, the samples of the readout before are left. -/
theorem stream_round_trip_short :
    let f : Fifo := {
      board := { fifo := #[0xAA, 0x12, 0x34, 0x56, 0x78] }
      buffers := some ⟨Array.replicate 7 0, #[1, 2]⟩ }
    let broken : Fifo := { f with
      board := { f.board with faults := { planned := fun _ _ => some 7 } } }
    (Sample.decode f.board.fifo 2 : Outcome Cause (Array UInt32)) = .fault .rawTooShort ∧
      (∃ words, (Sample.decode f.board.fifo 1 : Outcome Cause (Array UInt32)) = .ok words ∧
        words.toList.flatMap Sample.toBytes = [0x12, 0x34, 0x56]) ∧
      (Sample.decode (Sample.pack 0xAA [0x123456] ++ #[0x78]) 1 : Outcome Cause (Array UInt32)) =
        .ok #[0x123456] ∧
      (∃ g, readSamples f = (.ok (), g) ∧ g.samples = #[0x123456, 0x780000]) ∧
      ∃ g, readSamples broken = (.error (.bus (.code 7)), g) ∧ g.samples = #[1, 2] := by
  intro f broken
  obtain ⟨hdecode, hpack, hread⟩ := stream_round_trip
  refine ⟨(hdecode f.board.fifo 2).1.mpr (by decide), ?_, ?_, ?_, ?_⟩
  · obtain ⟨words, hwords, -, hback⟩ := (hdecode f.board.fifo 1).2 (by decide)
    exact ⟨words, hwords, hback.trans (by decide +kernel)⟩
  · exact hpack 0xAA [0x123456] #[0x78] fun w hw => List.mem_singleton.mp hw ▸ by decide
  · obtain ⟨g, hg, -⟩ := (hread f _ rfl (by decide +kernel)).1 rfl
    have hsamples : (readSamples f).2.samples = #[0x123456, 0x780000] := by decide +kernel
    exact ⟨g, hg, (congrArg (fun x => x.2.samples) hg).symm.trans hsamples⟩
  · exact (hread broken _ rfl (by decide +kernel)).2 7 rfl

end Fifo

end AdcCapture
