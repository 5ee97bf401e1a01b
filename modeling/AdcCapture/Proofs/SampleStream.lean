/-
  The stream of packed samples. Three bytes of a word that fits into them give the word back, and
  the words of a stream that starts like the stream of some samples are those samples
  (`words_of_pack`). A list of samples that is cut into blocks is whole again when they are put
  together.
-/
import AdcCapture.Driver.Submit
import AdcCapture.Proofs.FifoCalls

namespace AdcCapture

namespace Sample

theorem ofBytes_toBytes {w : UInt32} (h : w.toNat < 1 <<< 24) :
    ofBytes (UInt8.ofNat (w.toNat >>> 16)) (UInt8.ofNat (w.toNat >>> 8)) (UInt8.ofNat w.toNat) =
      w := by
  refine UInt32.toNat_inj.mp ?_
  simp only [ofBytes, UInt8.toNat_ofNat', UInt32.toNat_ofNat']
  omega

/-- The place of a byte in the stream, after the synchronisation byte. -/
theorem getD_flatMap_toBytes {v : List UInt32} {i k : Nat} (hi : i < v.length) (hk : k < 3) :
    (v.flatMap toBytes).getD (3 * i + k) 0 = (toBytes v[i]).getD k 0 := by
  have hlen : ∀ w, (toBytes w).length = 3 := fun _ => rfl
  induction v generalizing i with
  | nil => exact absurd hi (Nat.not_lt_zero i)
  | cons w rest ih =>
    rw [List.flatMap_cons, List.getD_eq_getElem?_getD]
    cases i with
    | zero =>
      rw [List.getElem?_append_left (by rw [hlen]; omega), ← List.getD_eq_getElem?_getD,
        Nat.mul_zero, Nat.zero_add]
      rfl
    | succ j =>
      rw [List.getElem?_append_right (by rw [hlen]; omega), ← List.getD_eq_getElem?_getD, hlen,
        show 3 * (j + 1) + k - 3 = 3 * j + k by omega, List.getElem_cons_succ]
      exact ih (Nat.lt_of_succ_lt_succ hi)

theorem getD_pack (sync : UInt8) {v : List UInt32} {i k : Nat} (hi : i < v.length) (hk : k < 3) :
    (pack sync v).getD (packedBytes * i + syncBytes + k) 0 = (toBytes v[i]).getD k 0 := by
  have hplace : packedBytes * i + syncBytes + k = 3 * i + k + 1 := by
    change 3 * i + 1 + k = _
    omega
  rw [← getD_flatMap_toBytes hi hk, hplace]
  unfold pack
  rw [Array.getD_eq_getD_getElem?, List.getElem?_toArray, List.getElem?_cons_succ,
    List.getD_eq_getElem?_getD]

theorem wordAt_pack (sync : UInt8) {v : List UInt32} {i : Nat} (hi : i < v.length)
    (hsmall : v[i].toNat < 1 <<< 24) : wordAt (pack sync v) i = v[i] := by
  have hbyte := fun k (hk : k < 3) => getD_pack sync hi hk
  refine Eq.trans ?_ (ofBytes_toBytes hsmall)
  unfold wordAt
  dsimp only
  rw [hbyte 1 (by omega), hbyte 2 (by omega)]
  exact congrArg (ofBytes · _ _) (hbyte 0 (by omega))

theorem getElem_words {stream : Array UInt8} {n i : Nat} (hi : i < (words stream n).size) :
    (words stream n)[i] = wordAt stream i := Array.getElem_ofFn hi

/-- A stream that starts with the bytes of packed samples holds these samples. -/
theorem words_of_pack {stream : Array UInt8} {sync : UInt8} {v : List UInt32} {n : Nat}
    (hn : n ≤ v.length) (hsmall : ∀ w ∈ v, w.toNat < 1 <<< 24)
    (hstream : ∀ j < streamLength n, stream.getD j 0 = (pack sync v).getD j 0) :
    (words stream n).toList = v.take n := by
  have hlen : (words stream n).toList.length = (v.take n).length := by
    rw [Array.length_toList, List.length_take, Nat.min_eq_left hn]
    exact Array.size_ofFn
  refine List.ext_getElem hlen fun i hi hi' => ?_
  have hin : i < n := by
    rw [List.length_take] at hi'
    omega
  have hiv : i < v.length := by omega
  have hplace : ∀ k < 3, packedBytes * i + syncBytes + k < streamLength n := by
    intro k hk
    change 3 * i + 1 + k < 3 * n + 1
    omega
  rw [List.getElem_take, Array.getElem_toList, getElem_words,
    ← wordAt_pack sync hiv (hsmall _ (List.getElem_mem hiv))]
  unfold wordAt
  dsimp only
  have hfirst : stream.getD (packedBytes * i + syncBytes) 0 = _ := hstream _ (hplace 0 (by omega))
  rw [hfirst, hstream _ (hplace 1 (by omega)), hstream _ (hplace 2 (by omega))]

/-- A list in which every entry is replaced by as many others. -/
theorem length_flatMap_of_length {α β : Type} {f : α → List β} {n : Nat}
    (hf : ∀ a, (f a).length = n) (l : List α) : (l.flatMap f).length = n * l.length := by
  induction l with
  | nil => rfl
  | cons a rest ih =>
    rw [List.flatMap_cons, List.length_append, ih, hf, List.length_cons, Nat.mul_succ,
      Nat.add_comm]

theorem length_flatMap_littleEndian (v : List UInt32) :
    (v.flatMap littleEndian).length = wordBytes * v.length :=
  length_flatMap_of_length (n := wordBytes) (fun _ => rfl) v

end Sample

theorem flatten_blocksOf {α : Type} (size : Nat) (l : List α) : (blocksOf size l).flatten = l := by
  induction l using blocksOf.induct size with
  | case1 => rw [blocksOf, List.flatten_nil]
  | case2 a l ih =>
    rw [blocksOf, List.flatten_cons, ih, List.cons_append, List.take_append_drop]

end AdcCapture
