/-
  The steps of a script over either bus. A step on the counterpart of a state gives the counterpart
  of its reply and leaves the counterpart of the state that it leaves, on the converter, on a
  descriptor and on a driver, as long as the addresses that it carries have fifteen bits. Steps
  carry further steps, for the consumer of an interrupt and for the interrupt points of a capture,
  and their replies are trees of the same shape: the induction is over these trees.
-/
import AdcCapture.Proofs.SerialBus
import AdcCapture.Script.Driver

namespace AdcCapture

open Board (wire_faithful)

/-! ## Replies -/

def Answer.onWire : Answer → Answer
  | failure e => failure e.onWire
  | busFailure f => busFailure f.onWire
  | a => a

mutual

/-- The reply as it is given over the serial bus. -/
def FifoReply.onWire : FifoReply → FifoReply
  | .plain answer view => .plain answer.onWire view
  | .handled answer consumer view => .handled answer.onWire (FifoReply.ranOnWire consumer) view

/-- The replies of steps that may have run. -/
def FifoReply.ranOnWire : Option (List FifoReply) → Option (List FifoReply)
  | none => none
  | some rs => some (FifoReply.allOnWire rs)

def FifoReply.allOnWire : List FifoReply → List FifoReply
  | [] => []
  | r :: rs => r.onWire :: FifoReply.allOnWire rs

end

mutual

/-- The reply as it is given over the serial bus. -/
def DriverReply.onWire : DriverReply → DriverReply
  | .mk answer afterArm afterWait sink view =>
    .mk answer.onWire (DriverReply.ranOnWire afterArm) (DriverReply.ranOnWire afterWait) sink view

/-- The replies of steps that may have run. -/
def DriverReply.ranOnWire : Option (List DriverReply) → Option (List DriverReply)
  | none => none
  | some rs => some (DriverReply.allOnWire rs)

def DriverReply.allOnWire : List DriverReply → List DriverReply
  | [] => []
  | r :: rs => r.onWire :: DriverReply.allOnWire rs

end

/-! ## Addresses -/

def DeviceStep.addresses : DeviceStep → List UInt16
  | board _ => []
  | converter s => s.addresses

mutual

def FifoStep.addresses : FifoStep → List UInt16
  | .converter s => s.addresses
  | .interrupt consumer => FifoStep.allAddresses consumer
  | _ => []

def FifoStep.allAddresses : List FifoStep → List UInt16
  | [] => []
  | s :: rest => s.addresses ++ FifoStep.allAddresses rest

end

mutual

def DriverStep.addresses : DriverStep → List UInt16
  | .converter s => s.addresses
  | .capture afterArm afterWait =>
    DriverStep.allAddresses afterArm ++ DriverStep.allAddresses afterWait
  | .submit _ _ afterArm afterWait =>
    DriverStep.allAddresses afterArm ++ DriverStep.allAddresses afterWait
  | .showAttribute _ _ afterArm afterWait =>
    DriverStep.allAddresses afterArm ++ DriverStep.allAddresses afterWait
  | _ => []

def DriverStep.allAddresses : List DriverStep → List UInt16
  | [] => []
  | s :: rest => s.addresses ++ DriverStep.allAddresses rest

end

/-- Every address has fifteen bits. -/
def Addressable (as : List UInt16) : Prop := ∀ a ∈ as, a ≤ 0x7FFF

instance : DecidablePred Addressable := fun as => List.decidableBAll (· ≤ 0x7FFF) as

theorem Addressable.of_append {as bs : List UInt16} (h : Addressable (as ++ bs)) :
    Addressable as ∧ Addressable bs :=
  List.forall_mem_append.mp h

/-! ## Answers -/

namespace Answer

variable {α : Type}

theorem ofOutcome_onWire (f : α → Value) (o : Outcome Cause α) :
    ofOutcome f ((o.mapError Failure.onWire).map id) = (ofOutcome f o).onWire := by
  cases o <;> rfl

theorem ofSure_onWire (o : Outcome Empty Unit) :
    ofSure ((o.mapError id).map id) = (ofSure o).onWire := by
  cases o with
  | ok _ => rfl
  | error e => exact e.elim
  | fault b => rfl

end Answer

/-! ## Steps on a board -/

theorem BoardStep.run_respected (s : BoardStep) : Board.mirror.Respected Answer.onWire s.run := by
  intro b hb
  cases s <;> exact ⟨rfl, hb.transport, hb.carried⟩

theorem DeviceStep.run_respected (s : DeviceStep) (h : Addressable s.addresses) :
    Board.mirror.Respected Answer.onWire s.run := by
  cases s with
  | board s => exact s.run_respected
  | converter s => exact s.run_respected wire_faithful h

/-! ## Steps on a descriptor -/

namespace Handling

/-- The descriptor on the serial bus, with the replies given over it. -/
def mirror : Mirror Handling where
  image h := { fifo := h.fifo.onWire, replies := FifoReply.ranOnWire h.replies }
  inv h := h.fifo.board.Direct

theorem fifoPart_mirrored : fifoPart.Mirrored mirror Fifo.mirror where
  get _ := rfl
  set _ _ _ _ := rfl
  inv _ hs := hs
  kept _ _ hf _ := hf

end Handling

namespace FifoStep

/-- A mark in the record is no access. -/
theorem markEvent_direct {e : Event} (he : e.onWire.busAccess? = e.busAccess?) {f : Fifo}
    (hf : f.board.Direct) : (markEvent e f).board.Direct :=
  ⟨hf.transport, List.forall_mem_cons.mpr ⟨he, hf.carried⟩⟩

section Consumer

variable {body : Fifo → List FifoReply × Fifo}
  (hbody : Fifo.mirror.Respected FifoReply.allOnWire body)
include hbody

theorem consumerOf_mirrors : (consumerOf body).Mirrors Handling.mirror id id (consumerOf body) := by
  intro h hh
  obtain ⟨hrun, hinv⟩ := hbody (markEvent (.enter .consumer) h.fifo) (markEvent_direct rfl hh)
  change body (markEvent (.enter .consumer) h.fifo.onWire) = _ at hrun
  unfold consumerOf
  dsimp only [Handling.mirror]
  rw [hrun]
  exact ⟨rfl, markEvent_direct rfl hinv⟩

theorem handle_respected : Fifo.mirror.Respected FifoReply.onWire (handle body) := by
  intro f hf
  obtain ⟨hrun, hinv⟩ := Fifo.handleInterrupt_mirrors wire_faithful Handling.fifoPart_mirrored
    (consumerOf_mirrors hbody) { fifo := f } hf
  change Fifo.handleInterrupt Handling.fifoPart (consumerOf body) { fifo := f.onWire } = _ at hrun
  unfold handle
  dsimp only [Fifo.mirror]
  rw [hrun]
  generalize Fifo.handleInterrupt Handling.fifoPart (consumerOf body) { fifo := f } = x at hinv
  obtain ⟨o, h⟩ := x
  cases o with
  | ok _ => exact ⟨rfl, hinv⟩
  | error _ => exact ⟨rfl, hinv⟩
  | fault _ => exact ⟨rfl, hinv⟩

end Consumer

theorem call_respected {c : Call Fifo Unit} (h : c.Mirrors Fifo.mirror Failure.onWire id c) :
    Fifo.mirror.Respected FifoReply.onWire (call c) := by
  intro f hf
  obtain ⟨hrun, hinv⟩ := h f hf
  unfold call
  rw [hrun]
  dsimp only
  rw [Answer.ofOutcome_onWire]
  exact ⟨rfl, hinv⟩

theorem onBoard_respected {run : Board → Answer × Board}
    (h : Board.mirror.Respected Answer.onWire run) :
    Fifo.mirror.Respected FifoReply.onWire (onBoard run) := by
  intro f hf
  obtain ⟨hrun, hinv⟩ := h f.board hf
  change run f.board.onWire = _ at hrun
  unfold onBoard
  dsimp only [Fifo.mirror, Fifo.onWire]
  rw [hrun]
  exact ⟨rfl, hinv⟩

mutual

/-- The induction goes into the consumers of interrupts. -/
theorem run_respected : ∀ s : FifoStep, Addressable s.addresses →
    Fifo.mirror.Respected FifoReply.onWire s.run
  | board s, _ => onBoard_respected s.run_respected
  | converter s, h => onBoard_respected (s.run_respected wire_faithful h)
  | setWatermark n, _ => call_respected (Fifo.setWatermark_mirrors wire_faithful n)
  | unsetWatermark, _ => call_respected (Fifo.unsetWatermark_mirrors wire_faithful)
  | arm, _ => call_respected (Fifo.arm_mirrors wire_faithful)
  | disable, _ => call_respected (Fifo.disable_mirrors wire_faithful)
  | readSamples, _ => call_respected (Fifo.readSamples_mirrors wire_faithful)
  | registerIrq i, _ => call_respected (Fifo.registerIrq_mirrors wire_faithful i)
  | unregisterIrq, _ => call_respected (Fifo.unregisterIrq_mirrors wire_faithful)
  | finalise, _ => fun _ hf => ⟨rfl, hf⟩
  | samples _ _, _ => fun _ hf => ⟨rfl, hf⟩
  | interrupt consumer, h => handle_respected (runAll_respected consumer h)

theorem runAll_respected : ∀ ss : List FifoStep, Addressable (allAddresses ss) →
    Fifo.mirror.Respected FifoReply.allOnWire (runAll ss)
  | [], _ => fun _ hf => ⟨rfl, hf⟩
  | s :: rest, h => by
    intro f hf
    obtain ⟨hs, hrest⟩ := h.of_append
    obtain ⟨hrun, ht⟩ := run_respected s hs f hf
    obtain ⟨hruns, hu⟩ := runAll_respected rest hrest _ ht
    dsimp only [runAll]
    rw [hrun]
    dsimp only
    rw [hruns]
    exact ⟨rfl, hu⟩

end

end FifoStep

/-! ## Steps on a driver -/

namespace Bench

/-- The bench with its converter on the serial bus. -/
def mirror : Mirror Bench where
  image t := { t with driver := t.driver.onWire }
  inv t := t.driver.fifo.board.Direct

end Bench

namespace Capturing

/-- The bench on the serial bus, with the replies given over it. -/
def mirror : Mirror Capturing where
  image c := {
    bench := Bench.mirror.image c.bench
    afterArm := DriverReply.ranOnWire c.afterArm
    afterWait := DriverReply.ranOnWire c.afterWait }
  inv c := Bench.mirror.inv c.bench

theorem driverPart_mirrored : driverPart.Mirrored mirror Driver.mirror where
  get _ := rfl
  set _ _ _ _ := rfl
  inv _ hc := hc
  kept _ _ hd _ := hd

theorem sinkPart_mirrored (name : String) :
    (sinkPart name).Mirrored mirror (.still Destination) where
  get _ := rfl
  set _ _ _ _ := rfl
  inv _ _ := trivial
  kept _ _ _ hc := hc

end Capturing

namespace DriverStep

theorem between_respected {p : NestingPoint} {body : Bench → List DriverReply × Bench}
    (h : Bench.mirror.Respected DriverReply.allOnWire body) :
    Bench.mirror.Respected DriverReply.allOnWire (between p body) := by
  intro t ht
  obtain ⟨hrun, hinv⟩ := h (mark (.enter p) t) (FifoStep.markEvent_direct rfl ht)
  change body (mark (.enter p) (Bench.mirror.image t)) = _ at hrun
  unfold between
  rw [hrun]
  exact ⟨rfl, FifoStep.markEvent_direct rfl hinv⟩

section InterruptPoints

variable {afterArm afterWait : Bench → List DriverReply × Bench}
  (hArm : Bench.mirror.Respected DriverReply.allOnWire afterArm)
  (hWait : Bench.mirror.Respected DriverReply.allOnWire afterWait)
include hArm hWait

/-- A capture, with what runs at its interrupt points. -/
theorem captureOn_mirrors :
    (Driver.captureOn Capturing.driverPart (interruptsOf afterArm afterWait)).Mirrors
      Capturing.mirror Failure.onWire id
      (Driver.captureOn Capturing.driverPart (interruptsOf afterArm afterWait)) := by
  refine Driver.captureOn_mirrors wire_faithful Capturing.driverPart_mirrored
    (.update fun c hc => ?_) (.update fun c hc => ?_)
  · obtain ⟨hrun, hinv⟩ := between_respected hArm c.bench hc
    refine ⟨?_, hinv⟩
    unfold interruptsOf
    dsimp only [Capturing.mirror]
    rw [hrun]
    rfl
  · obtain ⟨hrun, hinv⟩ := between_respected hWait c.bench hc
    refine ⟨?_, hinv⟩
    unfold interruptsOf
    dsimp only [Capturing.mirror]
    rw [hrun]
    rfl

end InterruptPoints

section Calls

variable {α : Type} (f : α → Value)

theorem callCapturing_respected {c : Call Capturing α}
    (h : c.Mirrors Capturing.mirror Failure.onWire id c) (sink : Option String) :
    Bench.mirror.Respected DriverReply.onWire (callCapturing f c sink) := by
  intro t ht
  obtain ⟨hrun, hinv⟩ := h { bench := t } ht
  change c { bench := Bench.mirror.image t } = _ at hrun
  unfold callCapturing
  rw [hrun]
  dsimp only
  rw [Answer.ofOutcome_onWire]
  exact ⟨rfl, hinv⟩

theorem call_respected {c : Call Driver α} (h : c.Mirrors Driver.mirror Failure.onWire id c) :
    Bench.mirror.Respected DriverReply.onWire (call f c) := by
  intro t ht
  obtain ⟨hrun, hinv⟩ := h t.driver ht
  change c t.driver.onWire = _ at hrun
  unfold call
  dsimp only [Bench.mirror]
  rw [hrun]
  dsimp only
  rw [Answer.ofOutcome_onWire]
  exact ⟨rfl, hinv⟩

end Calls

theorem onBoard_respected {run : Board → Answer × Board}
    (h : Board.mirror.Respected Answer.onWire run) :
    Bench.mirror.Respected DriverReply.onWire (onBoard run) := by
  intro t ht
  obtain ⟨hrun, hinv⟩ := h t.driver.fifo.board ht
  change run t.driver.fifo.board.onWire = _ at hrun
  unfold onBoard
  dsimp only [Bench.mirror, Driver.onWire, Fifo.onWire]
  rw [hrun]
  exact ⟨rfl, hinv⟩

theorem interrupt_respected : Bench.mirror.Respected DriverReply.onWire interrupt := by
  intro t ht
  obtain ⟨hrun, hinv⟩ := Driver.onInterrupt_mirrors wire_faithful t.driver ht
  change Driver.onInterrupt t.driver.onWire = _ at hrun
  unfold interrupt
  dsimp only [Bench.mirror]
  rw [hrun]
  dsimp only
  rw [Answer.ofSure_onWire]
  exact ⟨rfl, hinv⟩

/-- Sinks are filled and drained without any failure of a bus. -/
theorem onSinks_respected {run : Sinks → Answer × Sinks}
    (h : ∀ sinks, (run sinks).1.onWire = (run sinks).1) :
    Bench.mirror.Respected DriverReply.onWire (onSinks run) := by
  intro t ht
  refine ⟨Prod.ext ?_ rfl, ht⟩
  change DriverReply.mk (run t.sinks).1 none none none _ =
    DriverReply.mk (run t.sinks).1.onWire none none none _
  rw [h t.sinks]
  rfl

theorem fill_onWire (name : String) (data : List UInt8) (sinks : Sinks) :
    (fill name data sinks).1.onWire = (fill name data sinks).1 := by
  unfold fill
  dsimp only
  split <;> rfl

theorem drain_onWire (name : String) (max : Nat) (sinks : Sinks) :
    (drain name max sinks).1.onWire = (drain name max sinks).1 := rfl

mutual

/-- The induction goes into the steps at the interrupt points. -/
theorem run_respected : ∀ s : DriverStep, Addressable s.addresses →
    Bench.mirror.Respected DriverReply.onWire s.run
  | board s, _ => onBoard_respected s.run_respected
  | converter s, h => onBoard_respected (s.run_respected wire_faithful h)
  | init _, _ => fun _ ht => ⟨rfl, ht⟩
  | onInterrupt, _ => interrupt_respected
  | capture afterArm afterWait, h =>
    callCapturing_respected _ (captureOn_mirrors (runAll_respected afterArm h.of_append.1)
      (runAll_respected afterWait h.of_append.2)) none
  | setWatermark n, _ => call_respected _ (Driver.setWatermark_mirrors wire_faithful n)
  | setTimeout _, _ => fun _ ht => ⟨rfl, ht⟩
  | readDocumented a, _ =>
    call_respected _ (Driver.onBoard_mirrors (Converter.readDocumented_mirrors wire_faithful a))
  | writeDocumented a v, _ =>
    call_respected _ (Driver.onBoard_mirrors (Converter.writeDocumented_mirrors wire_faithful a v))
  | samples _ _, _ => fun _ ht => ⟨rfl, ht⟩
  | submit n sink afterArm afterWait, h => by
    have hcapture := captureOn_mirrors (runAll_respected afterArm h.of_append.1)
      (runAll_respected afterWait h.of_append.2)
    have hcall := callCapturing_respected (fun _ => .unit)
      (Driver.submitOn_mirrors wire_faithful Capturing.driverPart_mirrored
        (Capturing.sinkPart_mirrored sink) hcapture n) (some sink)
    intro t ht
    -- Waiving the memory limit changes the allocator and nothing that the buses know of.
    obtain ⟨hrun, hinv⟩ := hcall (waiveLimit true t) ⟨ht.transport, ht.carried⟩
    change callCapturing _ _ _ (waiveLimit true (Bench.mirror.image t)) = _ at hrun
    unfold run
    rw [hrun]
    exact ⟨rfl, hinv.transport, hinv.carried⟩
  | fillSink name data, _ => onSinks_respected (fill_onWire name data)
  | drainSink name max, _ => onSinks_respected (drain_onWire name max)
  | showAttribute index room afterArm afterWait, h =>
    callCapturing_respected _ (Driver.showAttributeOn_mirrors wire_faithful
      Capturing.driverPart_mirrored (captureOn_mirrors (runAll_respected afterArm h.of_append.1)
        (runAll_respected afterWait h.of_append.2)) index room) none
  | storeAttribute index input, _ =>
    call_respected _ (Driver.storeAttribute_mirrors wire_faithful index input)
  | channels, _ => fun _ ht => ⟨rfl, ht⟩

theorem runAll_respected : ∀ ss : List DriverStep, Addressable (allAddresses ss) →
    Bench.mirror.Respected DriverReply.allOnWire (runAll ss)
  | [], _ => fun _ ht => ⟨rfl, ht⟩
  | s :: rest, h => by
    intro t ht
    obtain ⟨hs, hrest⟩ := h.of_append
    obtain ⟨hrun, hu⟩ := run_respected s hs t ht
    obtain ⟨hruns, hv⟩ := runAll_respected rest hrest _ hu
    dsimp only [runAll]
    rw [hrun]
    dsimp only
    rw [hruns]
    exact ⟨rfl, hv⟩

end

end DriverStep

end AdcCapture
