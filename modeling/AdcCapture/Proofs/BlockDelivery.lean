/-
  A delivery as the blocks of bytes that it offers to a sink, whatever the sink is: how much it
  takes, what it says about its free space, and which blocks it refuses (`Driver.deliver_offers`).
  A sink whose free space is true (`Sink.Truthful`), as that of a ring is, is given all the bytes or
  none.
-/
import AdcCapture.Proofs.StagingBuffer
import AdcCapture.Proofs.Operation
import AdcCapture.Sink.Destination

namespace AdcCapture

/-- Two components of a state, of which neither is seen in the other. -/
structure Part.Beside {σ τ υ : Type} (p : Part σ τ) (q : Part σ υ) : Prop where
  get_set : ∀ t s, p.get (p.set t s) = t
  other_get_set : ∀ u s, q.get (q.set u s) = u
  get_other_set : ∀ u s, p.get (q.set u s) = p.get s
  other_get : ∀ t s, q.get (p.set t s) = q.get s

/-- The board with further events in its record, the latest first. -/
def Board.recorded (es : List Event) (b : Board) : Board := { b with record := es ++ b.record }

theorem Board.recorded_recorded (es es' : List Event) (b : Board) :
    (b.recorded es).recorded es' = b.recorded (es' ++ es) :=
  congrArg (fun l => { b with record := l }) (List.append_assoc es' es b.record).symm

/-! ## Offers to a sink -/

/-- A block of bytes that was offered to a sink, and whether the sink took it. -/
structure Offer where
  bytes : List UInt8
  taken : Bool
deriving DecidableEq

/-- What the record of the board tells of an offer. -/
def Offer.event (o : Offer) : Event := .sinkWrite o.bytes.length o.taken

variable {σ δ : Type} [Sink δ]

/-- These offers, one after another, lead from one state of the sink to another. -/
inductive Sink.Offers : δ → List Offer → δ → Prop where
  | none (x : δ) : Offers x [] x
  | next {x y : δ} {os : List Offer} (bytes : List UInt8)
      (rest : Offers (Sink.write bytes x).2 os y) :
      Offers x (⟨bytes, (Sink.write bytes x).1⟩ :: os) y

/-- The blocks are offered in order, and after a refusal no more. -/
structure Offered (blocks : List (List UInt8)) (os : List Offer) : Prop where
  order : os.map Offer.bytes <+: blocks
  stops : ∀ o ∈ os.dropLast, o.taken = true
  whole : (∀ o ∈ os, o.taken = true) → os.map Offer.bytes = blocks

/-- A block that was taken, before the offers of the others. -/
theorem Offered.cons {blocks : List (List UInt8)} {os : List Offer} (h : Offered blocks os)
    (bytes : List UInt8) : Offered (bytes :: blocks) (⟨bytes, true⟩ :: os) where
  order := List.cons_prefix_cons.mpr ⟨rfl, h.order⟩
  stops := by
    intro o hmem
    by_cases hnil : os = []
    · rw [hnil] at hmem
      cases hmem
    · rw [List.dropLast_cons_of_ne_nil hnil] at hmem
      rcases List.mem_cons.mp hmem with rfl | hmem
      · rfl
      · exact h.stops o hmem
  whole htaken := congrArg (bytes :: ·) (h.whole (List.forall_mem_cons.mp htaken).2)

/-- A block that was refused is the last one. -/
theorem Offered.refused (bytes : List UInt8) (blocks : List (List UInt8)) :
    Offered (bytes :: blocks) [⟨bytes, false⟩] where
  order := List.cons_prefix_cons.mpr ⟨rfl, List.nil_prefix⟩
  stops := nofun
  whole htaken := nomatch htaken _ List.mem_cons_self

/-- What the sink says about its free space is true: it takes what fits, and has then as much less
room at most. What it holds is `contents`, as long as it is in a valid state. -/
structure Sink.Truthful (contents : δ → List UInt8) (valid : δ → Prop) : Prop where
  takes : ∀ x bytes, valid x → bytes.length ≤ Sink.free x → (Sink.write bytes x).1 = true
  contents_write : ∀ x bytes, valid x → bytes.length ≤ Sink.free x →
    contents (Sink.write bytes x).2 = contents x ++ bytes
  free_le : ∀ x bytes, valid x → bytes.length ≤ Sink.free x →
    Sink.free x ≤ bytes.length + Sink.free (Sink.write bytes x).2
  stays : ∀ x bytes, valid x → bytes.length ≤ Sink.free x → valid (Sink.write bytes x).2

/-- A sink that says the truth takes all offers that fit into it together. -/
theorem Sink.Truthful.offers {contents : δ → List UInt8} {valid : δ → Prop}
    (h : Truthful contents valid) {x y : δ} {os : List Offer} (hos : Offers x os y) (hx : valid x)
    (hfit : (os.map Offer.bytes).flatten.length ≤ Sink.free x) :
    (∀ o ∈ os, o.taken = true) ∧ contents y = contents x ++ (os.map Offer.bytes).flatten ∧
      valid y := by
  induction hos with
  | none x => exact ⟨nofun, (List.append_nil _).symm, hx⟩
  | @next x y os bytes _ ih =>
    rw [List.map_cons, List.flatten_cons, List.length_append] at hfit
    have hbytes : bytes.length ≤ Sink.free x := by
      dsimp only at hfit
      omega
    have hfree := h.free_le x bytes hx hbytes
    obtain ⟨htaken, hcontents, hy⟩ := ih (h.stays x bytes hx hbytes) (by dsimp only at hfit; omega)
    refine ⟨List.forall_mem_cons.mpr ⟨h.takes x bytes hx hbytes, htaken⟩, ?_, hy⟩
    rw [hcontents, h.contents_write x bytes hx hbytes, List.map_cons, List.flatten_cons,
      List.append_assoc]

theorem Ring.truthful : Sink.Truthful Ring.toList fun _ => True := by
  have hwrite : ∀ (r : Ring) bytes, bytes.length ≤ r.free →
      Sink.write bytes r = (true, r.append bytes) := by
    intro r bytes hfit
    change r.offer bytes = _
    rw [Ring.offer_apply, if_pos hfit]
  constructor
  · intro r bytes _ hfit
    rw [hwrite r bytes hfit]
  · intro r bytes _ hfit
    rw [hwrite r bytes hfit]
    exact Ring.toList_append hfit
  · intro r bytes _ hfit
    have hsize := Ring.size_append hfit
    rw [hwrite r bytes hfit]
    change r.capacity - r.size ≤ bytes.length + (r.capacity - (r.append bytes).size)
    omega
  · exact fun _ _ _ _ => trivial

/-! ## What a delivery offers -/

/-- Blocks of samples, as blocks of bytes. -/
theorem Cut.littleEndian {size : Nat} {l : List UInt32} {blocks : List (List UInt32)}
    (h : Cut size l blocks) :
    Cut (Sample.wordBytes * size) (l.flatMap Sample.littleEndian)
      (blocks.map fun block => block.flatMap Sample.littleEndian) := by
  have hlength := Sample.length_flatMap_littleEndian
  constructor
  · rw [← h.flatten, List.flatten_eq_flatMap (L := blocks), List.flatMap_assoc, List.flatMap_def]
    rfl
  · rw [← List.map_dropLast]
    refine List.forall_mem_map.mpr fun block hmem => ?_
    rw [hlength, h.full block hmem]
  · refine List.forall_mem_map.mpr fun block hmem => ?_
    rw [hlength]
    exact Nat.mul_le_mul_left _ (h.length_le block hmem)
  · refine List.forall_mem_map.mpr fun block hmem hnil => h.nonempty block hmem ?_
    have hzero := hlength block
    rw [hnil, List.length_nil] at hzero
    exact List.length_eq_zero_iff.mp ((Nat.mul_eq_zero.mp hzero.symm).resolve_left (by decide))

omit [Sink δ] in
/-- The board of a scene and a sink of it. -/
theorem Scene.boardPart_beside (i : Nat) :
    (boardPart : Part (Scene δ) Board).Beside (sinkPart i) where
  get_set _ _ := rfl
  other_get_set _ _ := if_pos rfl
  get_other_set _ _ := rfl
  other_get _ _ := rfl

namespace Driver

/-- How writing blocks of bytes to the sink has ended, and the offers that it has come to. -/
structure Wrote (b : Part σ Board) (q : Part σ δ) (blocks : List (List UInt8)) (s : σ)
    (os : List Offer) (x : Outcome Cause Unit × σ) : Prop where
  offers : Sink.Offers (q.get s) os (q.get x.2)
  offered : Offered blocks os
  ends : x.1 = if os.all Offer.taken then .ok () else .error .bufferFull
  board : b.get x.2 = (b.get s).recorded (os.map Offer.event).reverse

variable {b : Part σ Board} {q : Part σ δ} (h : b.Beside q)
include h

theorem writeBytes_offers (bytes : List UInt8) (s : σ) :
    ∃ t, writeBytes b q bytes s =
        (if (Sink.write bytes (q.get s)).1 then .ok () else .error .bufferFull, t) ∧
      q.get t = (Sink.write bytes (q.get s)).2 ∧
      b.get t = (b.get s).recorded [Offer.event ⟨bytes, (Sink.write bytes (q.get s)).1⟩] := by
  rcases hwrite : Sink.write bytes (q.get s) with ⟨taken, x⟩
  refine ⟨b.set ((b.get s).recorded [Offer.event ⟨bytes, taken⟩]) (q.set x s), ?_,
    (h.other_get _ _).trans (h.other_get_set _ _), h.get_set _ _⟩
  have hnote : (Action.within b (Board.note (Offer.event ⟨bytes, taken⟩)) : Call σ Unit)
      (q.set x s) =
        (.ok (), b.set ((b.get s).recorded [Offer.event ⟨bytes, taken⟩]) (q.set x s)) := by
    rw [← h.get_other_set x s]
    rfl
  unfold writeBytes
  rw [Action.state_bind, hwrite]
  dsimp only
  rw [Action.update_bind]
  refine (Action.bind_ok _ hnote _).trans ?_
  cases taken <;> rfl

/-- Writing blocks offers them in order, up to the first that the sink refuses. -/
theorem writeBlocks_offers (blocks : List (List UInt32)) (s : σ) :
    ∃ os, Wrote b q (blocks.map fun block => block.flatMap Sample.littleEndian) s os
      (writeBlocks b q blocks s) := by
  induction blocks generalizing s with
  | nil => exact ⟨[], .none _, ⟨List.prefix_rfl, nofun, fun _ => rfl⟩, rfl, rfl⟩
  | cons block rest ih =>
    obtain ⟨t, hrun, hsink, hboard⟩ := writeBytes_offers h (block.flatMap Sample.littleEndian) s
    have hblock : writeBlock b q block s = _ := hrun
    rw [List.map_cons]
    generalize block.flatMap Sample.littleEndian = bytes at hblock hsink hboard
    have hfirst : ∀ {os y}, Sink.Offers (q.get t) os y →
        Sink.Offers (q.get s) (⟨bytes, (Sink.write bytes (q.get s)).1⟩ :: os) y := by
      intro os y hos
      rw [hsink] at hos
      exact .next bytes hos
    cases htaken : (Sink.write bytes (q.get s)).1 with
    | true =>
      obtain ⟨os, hos⟩ := ih t
      rw [htaken] at hblock hboard hfirst
      have hnext : writeBlocks b q (block :: rest) s = writeBlocks b q rest t :=
        Action.bind_ok _ hblock _
      rw [hnext]
      refine ⟨⟨bytes, true⟩ :: os, hfirst hos.offers, hos.offered.cons bytes, hos.ends, ?_⟩
      rw [hos.board, hboard, Board.recorded_recorded, List.map_cons, List.reverse_cons]
    | false =>
      rw [htaken] at hblock hboard hfirst
      have hlast : writeBlocks b q (block :: rest) s = (.error .bufferFull, t) :=
        Action.bind_error _ hblock _
      rw [hlast]
      exact ⟨[⟨bytes, false⟩], hfirst (.none _), .refused bytes _, rfl, hboard⟩

/-- What a delivery reports that is cut to the capacity of the sink. -/
def truncation (limit samples : Nat) : List Event :=
  if limit < samples then [.log (.submitTruncated limit samples)] else []

/-- A delivery makes no offer, or offers the words of as many samples as the sink can hold. -/
theorem deliver_wrote (samples : List UInt32) (s : σ) :
    let limit := min samples.length (Sink.capacity (q.get s) / Sample.wordBytes)
    ∃ t, q.get t = q.get s ∧
      b.get t = (b.get s).recorded (truncation limit samples.length) ∧
      (Sink.free (q.get s) < limit * Sample.wordBytes →
        deliver b q samples s = (.error .bufferFull, t)) ∧
      (limit * Sample.wordBytes ≤ Sink.free (q.get s) →
        ∃ blocks os, Cut (Sample.wordBytes * blockSamples)
            ((samples.take limit).flatMap Sample.littleEndian) blocks ∧
          Wrote b q blocks t os (deliver b q samples s)) := by
  intro limit
  have hstart : ∃ t, q.get t = q.get s ∧
      b.get t = (b.get s).recorded (truncation limit samples.length) ∧
      deliver b q samples s =
        (if Sink.free (q.get s) < limit * Sample.wordBytes then .fail .bufferFull
          else writeBlocks b q (blocksOf blockSamples (samples.take limit)) : Call σ Unit) t := by
    rw [deliver_eq, Action.state_bind]
    unfold truncation
    dsimp only
    by_cases hcut : limit < samples.length
    · rw [if_pos hcut, if_pos hcut]
      exact ⟨_, h.other_get _ _, h.get_set _ _, rfl⟩
    · rw [if_neg hcut, if_neg hcut]
      exact ⟨s, rfl, rfl, rfl⟩
  obtain ⟨t, hsink, hboard, hrun⟩ := hstart
  refine ⟨t, hsink, hboard, fun hfull => ?_, fun hroom => ?_⟩
  · rw [hrun, if_pos hfull]
    rfl
  · obtain ⟨os, hos⟩ := writeBlocks_offers h (blocksOf blockSamples (samples.take limit)) t
    rw [hrun, if_neg (Nat.not_lt.mpr hroom)]
    exact ⟨_, os, (cut_blocksOf (by decide) _).littleEndian, hos⟩

omit h

/-- What a delivery offers to its sink, for every sink. It takes as many samples as there are, and
no more than the capacity has words for. If the sink says that there is no room for all of them,
nothing is offered and the sink is called full. Otherwise their words are offered in blocks of 256
bytes, the last one possibly shorter, up to the first that is refused: then the sink is called full,
and if none is refused the delivery succeeds. A sink whose free space is true is thus given all the
words or none. Such a sink is a ring, whether the state owns it or only knows where it is. -/
theorem deliver_offers :
    (∀ {σ δ : Type} [Sink δ] {b : Part σ Board} {q : Part σ δ}, b.Beside q →
      ∀ (samples : List UInt32) (s : σ),
      let limit := min samples.length (Sink.capacity (q.get s) / 4)
      let bytes := (samples.take limit).flatMap Sample.littleEndian
      ∃ o t os, deliver b q samples s = (o, t) ∧ Sink.Offers (q.get s) os (q.get t) ∧
        b.get t = (b.get s).recorded
          ((os.map Offer.event).reverse ++ truncation limit samples.length) ∧
        (Sink.free (q.get s) < 4 * limit →
          o = .error .bufferFull ∧ os = [] ∧ q.get t = q.get s) ∧
        (4 * limit ≤ Sink.free (q.get s) → ∃ blocks, Cut 256 bytes blocks ∧ Offered blocks os ∧
          (o = .ok () ↔ ∀ x ∈ os, x.taken = true) ∧ (o = .ok () ∨ o = .error .bufferFull)) ∧
        ∀ (contents : δ → List UInt8) (valid : δ → Prop), Sink.Truthful contents valid →
          valid (q.get s) → 4 * limit ≤ Sink.free (q.get s) →
          o = .ok () ∧ contents (q.get t) = contents (q.get s) ++ bytes ∧ valid (q.get t)) ∧
    Sink.Truthful Ring.toList fun _ => True := by
  refine ⟨fun {σ δ _ b q} h samples s => ?_, Ring.truthful⟩
  intro limit bytes
  obtain ⟨u, hsink, hboard, hfull, hroom⟩ := deliver_wrote h samples s
  by_cases hfree : Sink.free (q.get s) < 4 * limit
  · have hrun := hfull (by rw [Nat.mul_comm]; exact hfree)
    refine ⟨_, u, [], hrun, hsink ▸ .none _, hboard, fun _ => ⟨rfl, rfl, hsink⟩, fun hle => ?_,
      fun _ _ _ _ hle => ?_⟩
    · omega
    · omega
  · obtain ⟨blocks, os, hcut, hwrote⟩ := hroom (by rw [Nat.mul_comm]; exact Nat.le_of_not_lt hfree)
    rcases hrun : deliver b q samples s with ⟨o, t⟩
    rw [hrun] at hwrote
    have hoffers : Sink.Offers (q.get s) os (q.get t) := hsink ▸ hwrote.offers
    have hends : o = if os.all Offer.taken then .ok () else .error .bufferFull := hwrote.ends
    refine ⟨o, t, os, rfl, hoffers, ?_, fun hlt => absurd hlt hfree,
      fun _ => ⟨blocks, hcut, hwrote.offered, ?_, ?_⟩, fun contents valid htrue hvalid _ => ?_⟩
    · rw [hwrote.board, hboard, Board.recorded_recorded]
      rfl
    · rw [hends, ← List.all_eq_true]
      cases os.all Offer.taken <;> simp
    · rw [hends]
      split
      · exact .inl rfl
      · exact .inr rfl
    · have hfit : (os.map Offer.bytes).flatten.length ≤ Sink.free (q.get s) := by
        obtain ⟨rest, hrest⟩ := hwrote.offered.order
        have hlength := congrArg List.length hcut.flatten
        rw [← hrest, List.flatten_append, List.length_append, Sample.length_flatMap_littleEndian,
          List.length_take, Nat.min_eq_left (Nat.min_le_left _ _)] at hlength
        change _ = 4 * limit at hlength
        omega
      obtain ⟨htaken, hcontents, hvalid'⟩ := htrue.offers hoffers hvalid hfit
      rw [hwrote.offered.whole htaken, hcut.flatten] at hcontents
      refine ⟨?_, hcontents, hvalid'⟩
      rw [hends, if_pos (List.all_eq_true.mpr htaken)]

/-- Seventy samples. A store that refuses its second write has taken the first block, and is called
full; one that says it has no room is offered nothing. A ring with room for half a hundred words is
given the first 49, the rest being beyond its capacity. -/
theorem deliver_offers_refused :
    let samples := (List.range 70).map UInt32.ofNat
    let d : Driver := { fifo := { board := {} }, captureTimeout := 0 }
    let store : Store := { capacity := 1000, refusedWrite := some 1 }
    let liar : Store := { capacity := 1000, claimedFree := some 279 }
    let ring := Ring.fresh 200 (by decide) (by decide)
    (∃ t os, deliver Scene.boardPart (Scene.sinkPart 0) samples (Scene.start d fun _ => store) =
        (.error .bufferFull, t) ∧ Sink.Offers store os (t.sinks 0) ∧
      os.length = 2 ∧ (t.sinks 0).contents.length = 256) ∧
    (∃ t, deliver Scene.boardPart (Scene.sinkPart 0) samples (Scene.start d fun _ => liar) =
        (.error .bufferFull, t) ∧ t.sinks 0 = liar) ∧
    ∃ t, deliver Scene.boardPart (Scene.sinkPart 0) samples (Scene.start d fun _ => ring) =
        (.ok (), t) ∧
      (t.sinks 0).toList = ring.toList ++ (samples.take 49).flatMap Sample.littleEndian := by
  intro samples d store liar ring
  refine ⟨?_, ?_, ?_⟩
  · obtain ⟨o, t, os, hrun, hoffers, hboard, -⟩ :=
      deliver_offers.1 (Scene.boardPart_beside 0) samples (Scene.start d fun _ => store)
    have hends : (deliver Scene.boardPart (Scene.sinkPart 0) samples
          (Scene.start d fun _ => store)).1 = .error .bufferFull ∧
        (deliver Scene.boardPart (Scene.sinkPart 0) samples
          (Scene.start d fun _ => store)).2.driver.fifo.board.record.length = 2 ∧
        ((deliver Scene.boardPart (Scene.sinkPart 0) samples
          (Scene.start d fun _ => store)).2.sinks 0).contents.length = 256 := by decide +kernel
    rw [hrun] at hends
    obtain ⟨rfl, hrecord, hcontents⟩ := hends
    refine ⟨t, os, hrun, hoffers, ?_, hcontents⟩
    have hwhole : truncation (min samples.length
        (Sink.capacity ((Scene.sinkPart 0).get (Scene.start d fun _ => store)) / 4))
          samples.length = [] := if_neg (by decide +kernel)
    have hlength := congrArg (fun c : Board => c.record.length) hboard
    rw [hwhole, List.append_nil] at hlength
    have hevents : t.driver.fifo.board.record.length = os.length := by
      refine hlength.trans ?_
      unfold Board.recorded
      rw [List.length_append, List.length_reverse, List.length_map]
      rfl
    exact hevents.symm.trans hrecord
  · obtain ⟨o, t, os, hrun, -, -, hfull, -⟩ :=
      deliver_offers.1 (Scene.boardPart_beside 0) samples (Scene.start d fun _ => liar)
    obtain ⟨rfl, -, hkept⟩ := hfull (by decide +kernel)
    exact ⟨t, hrun, hkept⟩
  · obtain ⟨o, t, os, hrun, -, -, -, -, hwhole⟩ :=
      deliver_offers.1 (Scene.boardPart_beside 0) samples (Scene.start d fun _ => ring)
    have hlimit : min samples.length
        (Sink.capacity ((Scene.sinkPart 0).get (Scene.start d fun _ => ring)) / 4) = 49 := by
      decide +kernel
    obtain ⟨rfl, hlist, -⟩ := hwhole _ _ deliver_offers.2 trivial (by decide +kernel)
    rw [hlimit] at hlist
    exact ⟨t, hrun, hlist⟩

end Driver

end AdcCapture
