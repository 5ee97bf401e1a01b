/-
  The serial bus refines the direct one. Sessions on a converter, on a descriptor and on a driver
  are three layers over the same board: each has states with a board, and steps that give replies
  (`Layer`). What one step preserves on a layer, a whole session preserves (`Layer.runAll_onWire`,
  `Layer.endOf_onWire`); and `serial_refines_direct` says it of all three, for arbitrary boards,
  schedules of failures and steps: the same accesses to the converter, the same replies up to the
  kind of a failed transfer, the same state at the end.
-/
import AdcCapture.Proofs.SerialSteps

namespace AdcCapture

/-! ## Sessions -/

def FifoSessionStep.addresses : FifoSessionStep → List UInt16
  | step s => s.addresses
  | _ => []

def FifoSessionReply.onWire : FifoSessionReply → FifoSessionReply
  | reply r => reply r.onWire
  | bare answer => bare answer.onWire

namespace FifoSession

/-- The session with its converter on the serial bus. -/
def onWire : FifoSession → FifoSession
  | holding f => holding f.onWire
  | released b => released b.onWire

def mirror : Mirror FifoSession := ⟨onWire, fun t => t.board.Direct⟩

theorem run_respected (s : FifoSessionStep) (h : Addressable s.addresses) :
    mirror.Respected FifoSessionReply.onWire (run s) := by
  intro t ht
  cases t with
  | holding f =>
    cases s with
    | step s =>
      obtain ⟨hrun, hinv⟩ := s.run_respected h f ht
      change s.run f.onWire = _ at hrun
      unfold run
      dsimp only [mirror, onWire]
      rw [hrun]
      exact ⟨rfl, hinv⟩
    | renew => exact ⟨rfl, ht⟩
    | release =>
      obtain ⟨hrun, hinv⟩ := ConverterStep.call_respected ConverterStep.word
        (Converter.productId_mirrors Board.wire_faithful) f.board ht
      change ConverterStep.call _ _ f.board.onWire = _ at hrun
      unfold run
      dsimp only [mirror, onWire, Fifo.onWire]
      rw [hrun]
      exact ⟨rfl, hinv⟩
  | released b => cases s <;> exact ⟨rfl, ht⟩

end FifoSession

def DriverSessionStep.addresses : DriverSessionStep → List UInt16
  | step s => s.addresses
  | fini => []

namespace DriverSession

/-- The session with its converter on the serial bus. -/
def onWire : DriverSession → DriverSession
  | stopped b sinks => stopped b.onWire sinks
  | running t => running (Bench.mirror.image t)

def mirror : Mirror DriverSession := ⟨onWire, fun t => t.board.Direct⟩

theorem runStopped_respected (s : DriverStep) {b : Board} (hb : b.Direct) (sinks : Sinks) :
    runStopped s b.onWire sinks =
        ((runStopped s b sinks).1.onWire, (runStopped s b sinks).2.onWire) ∧
      (runStopped s b sinks).2.board.Direct := by
  cases s with
  | board s =>
    obtain ⟨hrun, hinv⟩ := s.run_respected b hb
    change s.run b.onWire = _ at hrun
    unfold runStopped
    dsimp only
    rw [hrun]
    exact ⟨rfl, hinv⟩
  | init c =>
    obtain ⟨hrun, hinv⟩ := Driver.init_mirrors Board.wire_faithful c b hb
    change Driver.init c b.onWire = _ at hrun
    unfold runStopped
    dsimp only
    rw [hrun]
    rcases hinit : Driver.init c b with ⟨o, c⟩
    rw [hinit] at hinv
    cases o with
    -- The session goes on with the board inside the driver.
    | ok d => exact ⟨rfl, (Driver.init_board hinit).symm ▸ hinv⟩
    | error e => exact ⟨rfl, hinv⟩
    | fault x => exact ⟨rfl, hinv⟩
  | fillSink name data =>
    refine ⟨Prod.ext ?_ rfl, hb⟩
    exact congrArg (DriverReply.mk · none none none none)
      (DriverStep.fill_onWire name data sinks).symm
  | drainSink name max => exact ⟨rfl, hb⟩
  | _ => exact ⟨rfl, hb⟩

/-- Ending a driver takes it down and reads a register of the board that is left. -/
theorem stop_respected {t : Bench} (ht : Bench.mirror.inv t) :
    stop (Bench.mirror.image t) = ((stop t).1.onWire, (stop t).2.onWire) ∧
      (stop t).2.board.Direct := by
  obtain ⟨hrun, hinv⟩ := Driver.takeDown_mirrors Board.wire_faithful t.driver ht
  change Driver.takeDown t.driver.onWire = _ at hrun
  unfold stop Driver.fini
  dsimp only [Bench.mirror]
  rw [hrun]
  generalize Driver.takeDown t.driver = x at hinv
  obtain ⟨o, d⟩ := x
  cases o with
  | ok _ =>
    obtain ⟨hread, hafter⟩ := ConverterStep.busCall_respected ConverterStep.byte
      (Board.readRegister_mirrors (a := Register.generalConfig) (by decide)) d.fifo.board hinv
    change ConverterStep.busCall _ _ d.fifo.board.onWire = _ at hread
    dsimp only [Outcome.map, Outcome.mapError, Driver.mirrorOf, Fifo.mirrorOf, Board.mirror]
    rw [hread]
    exact ⟨rfl, hafter⟩
  | error e => exact nomatch e
  | fault x => exact ⟨rfl, hinv⟩

theorem run_respected (s : DriverSessionStep) (h : Addressable s.addresses) :
    mirror.Respected DriverReply.onWire (run s) := by
  intro t ht
  cases t with
  | stopped b sinks =>
    cases s with
    | step s => exact runStopped_respected s ht sinks
    | fini => exact ⟨rfl, ht⟩
  | running t =>
    cases s with
    | step s =>
      obtain ⟨hrun, hinv⟩ := s.run_respected h t ht
      unfold run
      dsimp only [mirror, onWire]
      rw [hrun]
      exact ⟨rfl, hinv⟩
    | fini => exact stop_respected ht

end DriverSession

/-! ## Layers -/

/-- The state in which steps end if each of them starts with an empty record. -/
def endOf {ι σ ρ : Type} (run : ι → σ → ρ × σ) (clear : σ → σ) : List ι → σ → σ
  | [], s => s
  | i :: rest, s => endOf run clear rest (run i (clear s)).2

/-- States with a board, and steps on them that give replies: what a step does, and what of it
there is over the serial bus. -/
structure Layer (ι σ ρ : Type) where
  board : σ → Board
  run : ι → σ → ρ × σ
  clear : σ → σ
  addresses : ι → List UInt16
  mirror : Mirror σ
  reply : ρ → ρ
  direct : ∀ s, mirror.inv s → (board s).Direct
  board_image : ∀ s, board (mirror.image s) = (board s).onWire
  /-- With an empty record a direct converter is all that is asked for. -/
  cleared : ∀ s, (board s).transport = .direct →
    clear (mirror.image s) = mirror.image (clear s) ∧ mirror.inv (clear s)
  respected : ∀ i, Addressable (addresses i) → mirror.Respected reply (run i)

namespace Layer

variable {ι σ ρ : Type} (L : Layer ι σ ρ)

/-- The replies of steps, each with what happened during the step. -/
def runAll : List ι → σ → List (ρ × List Event)
  | [], _ => []
  | i :: rest, s =>
    ((L.run i (L.clear s)).1, (L.board (L.run i (L.clear s)).2).record.reverse) ::
      runAll rest (L.run i (L.clear s)).2

/-- What a step shows, as it is shown over the serial bus. -/
def shownOnWire (x : ρ × List Event) : ρ × List Event := (L.reply x.1, x.2.map Event.onWire)

variable {L} {i : ι} {s : σ}

/-- One step that starts with an empty record. -/
theorem step_onWire (hi : Addressable (L.addresses i)) (hs : (L.board s).transport = .direct) :
    L.run i (L.clear (L.mirror.image s)) =
        (L.reply (L.run i (L.clear s)).1, L.mirror.image (L.run i (L.clear s)).2) ∧
      (L.board (L.run i (L.clear s)).2).Direct := by
  obtain ⟨hclear, hinv⟩ := L.cleared s hs
  obtain ⟨hrun, hafter⟩ := L.respected i hi _ hinv
  exact ⟨(congrArg (L.run i) hclear).trans hrun, L.direct _ hafter⟩

variable {steps : List ι} (h : ∀ i ∈ steps, Addressable (L.addresses i))
include h

theorem runAll_onWire (hs : (L.board s).transport = .direct) :
    L.runAll steps (L.mirror.image s) = (L.runAll steps s).map L.shownOnWire ∧
      ∀ x ∈ L.runAll steps s, ∀ e ∈ x.2, e.onWire.busAccess? = e.busAccess? := by
  induction steps generalizing s with
  | nil => exact ⟨rfl, nofun⟩
  | cons i rest ih =>
    obtain ⟨hrun, hafter⟩ := step_onWire (h i List.mem_cons_self) hs
    obtain ⟨hrest, hcarried⟩ := ih (fun j hj => h j (List.mem_cons_of_mem i hj)) hafter.transport
    constructor
    · unfold runAll
      rw [hrun, hrest, List.map_cons, L.board_image]
      refine congrArg (fun es => (_, es) :: _) ?_
      exact List.map_reverse.symm
    · refine List.forall_mem_cons.mpr ⟨fun e he => ?_, hcarried⟩
      exact hafter.carried e (List.mem_reverse.mp he)

theorem endOf_onWire (hs : (L.board s).transport = .direct) :
    endOf L.run L.clear steps (L.mirror.image s) =
      L.mirror.image (endOf L.run L.clear steps s) := by
  induction steps generalizing s with
  | nil => rfl
  | cons i rest ih =>
    obtain ⟨hrun, hafter⟩ := step_onWire (h i List.mem_cons_self) hs
    unfold endOf
    rw [hrun]
    exact ih (fun j hj => h j (List.mem_cons_of_mem i hj)) hafter.transport

end Layer

/-! ### The three layers -/

/-- The board with nothing in its record. -/
def Board.clearRecord (b : Board) : Board := { b with record := [] }

/-- The converter alone. -/
def converterLayer : Layer DeviceStep Board Answer where
  board b := b
  run := DeviceStep.run
  clear := Board.clearRecord
  addresses := DeviceStep.addresses
  mirror := Board.mirror
  reply := Answer.onWire
  direct _ hb := hb
  board_image _ := rfl
  cleared _ hb := ⟨rfl, hb, nofun⟩
  respected s h := s.run_respected h

/-- A descriptor. -/
def fifoLayer : Layer FifoSessionStep FifoSession FifoSessionReply where
  board := FifoSession.board
  run := FifoSession.run
  clear := FifoSession.clearRecord
  addresses := FifoSessionStep.addresses
  mirror := FifoSession.mirror
  reply := FifoSessionReply.onWire
  direct _ ht := ht
  board_image t := by cases t <;> rfl
  cleared t ht := by cases t <;> exact ⟨rfl, ht, nofun⟩
  respected := FifoSession.run_respected

/-- A driver with its sinks. -/
def driverLayer : Layer DriverSessionStep DriverSession DriverReply where
  board := DriverSession.board
  run := DriverSession.run
  clear := DriverSession.clearRecord
  addresses := DriverSessionStep.addresses
  mirror := DriverSession.mirror
  reply := DriverReply.onWire
  direct _ ht := ht
  board_image t := by cases t <;> rfl
  cleared t ht := by cases t <;> exact ⟨rfl, ht, nofun⟩
  respected := DriverSession.run_respected

theorem DeviceStep.runAll_eq (steps : List DeviceStep) (b : Board) :
    runAll steps b = converterLayer.runAll steps b := by
  induction steps generalizing b with
  | nil => rfl
  | cons s rest ih => exact congrArg (_ :: ·) (ih _)

theorem FifoSession.runAll_eq (steps : List FifoSessionStep) (t : FifoSession) :
    runAll steps t = fifoLayer.runAll steps t := by
  induction steps generalizing t with
  | nil => rfl
  | cons s rest ih => exact congrArg (_ :: ·) (ih _)

theorem DriverSession.runAll_eq (steps : List DriverSessionStep) (t : DriverSession) :
    runAll steps t = driverLayer.runAll steps t := by
  induction steps generalizing t with
  | nil => rfl
  | cons s rest ih => exact congrArg (_ :: ·) (ih _)

/-! ## Refinement -/

/-- What a run over the serial bus shows, `shown'`, is what a run over the direct bus shows: step by
step the same accesses with the same bytes, each of them one transfer that fails when the access
does, and the same replies, with a failure of the bus as its kind. -/
structure OverSerial {ρ : Type} (reply : ρ → ρ) (shown shown' : List (ρ × List Event)) : Prop where
  accesses : (shown'.map fun x => x.2.filterMap Event.busAccess?) =
    shown.map fun x => x.2.filterMap Event.busAccess?
  events : shown'.map Prod.snd = shown.map fun x => x.2.map Event.onWire
  replies : shown'.map Prod.fst = shown.map fun x => reply x.1

theorem Layer.overSerial {ι σ ρ : Type} {L : Layer ι σ ρ} {steps : List ι} {s : σ}
    (h : ∀ i ∈ steps, Addressable (L.addresses i)) (hs : (L.board s).transport = .direct) :
    OverSerial L.reply (L.runAll steps s) (L.runAll steps (L.mirror.image s)) := by
  obtain ⟨hshown, hcarried⟩ := runAll_onWire h hs
  rw [hshown]
  refine ⟨?_, ?_, ?_⟩
  · rw [List.map_map]
    exact List.map_congr_left fun x hx => Event.traffic_onWire (hcarried x hx)
  · rw [List.map_map]
    rfl
  · rw [List.map_map]
    rfl

/-- Whatever is done to a converter, a descriptor or a driver, and whatever fails on the way, is
done over the serial bus as it is over the direct one, as long as the addresses that callers choose
have fifteen bits: the same accesses, the same replies and the same state. Data is read as it is
over the direct bus, no instruction can be taken for another one, and none for one that goes the
other way, whatever its address. -/
theorem serial_refines_direct {b : Board} {t : FifoSession} {u : DriverSession}
    {device : List DeviceStep} {fifo : List FifoSessionStep} {driver : List DriverSessionStep}
    (hb : b.transport = .direct) (ht : t.board.transport = .direct)
    (hu : u.board.transport = .direct) (hdevice : ∀ s ∈ device, Addressable s.addresses)
    (hfifo : ∀ s ∈ fifo, Addressable s.addresses)
    (hdriver : ∀ s ∈ driver, Addressable s.addresses) :
    (OverSerial Answer.onWire (DeviceStep.runAll device b) (DeviceStep.runAll device b.onWire) ∧
      endOf DeviceStep.run Board.clearRecord device b.onWire =
        (endOf DeviceStep.run Board.clearRecord device b).onWire) ∧
    (OverSerial FifoSessionReply.onWire (FifoSession.runAll fifo t)
        (FifoSession.runAll fifo t.onWire) ∧
      endOf FifoSession.run FifoSession.clearRecord fifo t.onWire =
        (endOf FifoSession.run FifoSession.clearRecord fifo t).onWire) ∧
    (OverSerial DriverReply.onWire (DriverSession.runAll driver u)
        (DriverSession.runAll driver u.onWire) ∧
      endOf DriverSession.run DriverSession.clearRecord driver u.onWire =
        (endOf DriverSession.run DriverSession.clearRecord driver u).onWire) ∧
    (∀ (c : Board) (n : Nat), c.Direct → Board.readData n c.onWire =
      ((Board.readData n c).1.mapError BusFault.onWire, (Board.readData n c).2.onWire)) ∧
    (∀ i j : Instruction, i.address ≤ 0x7FFF → j.address ≤ 0x7FFF →
      i.encode = j.encode → i = j) ∧
    ∀ i : Instruction, ∃ high low, i.encode = [high, low] ∧
      (Instruction.decode high low).isRead = i.isRead := by
  refine ⟨⟨?_, converterLayer.endOf_onWire hdevice hb⟩, ⟨?_, fifoLayer.endOf_onWire hfifo ht⟩,
    ⟨?_, driverLayer.endOf_onWire hdriver hu⟩, ?_, ?_, ?_⟩
  · rw [DeviceStep.runAll_eq, DeviceStep.runAll_eq]
    exact converterLayer.overSerial hdevice hb
  · rw [FifoSession.runAll_eq, FifoSession.runAll_eq]
    exact fifoLayer.overSerial hfifo ht
  · rw [DriverSession.runAll_eq, DriverSession.runAll_eq]
    exact driverLayer.overSerial hdriver hu
  · intro c n hc
    refine (Board.readData_mirrors n c hc).1.trans (congrArg (Prod.mk · _) ?_)
    cases (Board.readData n c).1 <;> rfl
  · exact fun i j hi hj h => Instruction.encode_injective hi hj h
  · intro i
    obtain ⟨high, low, hencode, hdecode⟩ := i.encode_decodes
    exact ⟨high, low, hencode, by rw [hdecode]⟩

/-- The second access fails with code 1: over the serial bus that is a fault of the mode. -/
theorem serial_refines_direct_faulty :
    let b : Board := { faults := { planned := fun k _ => if k = 1 then some 1 else none } }
    let device : List DeviceStep := [.converter (.write 0x7FFF 5), .converter (.read 0x0A)]
    let fifo : List FifoSessionStep :=
      [.step (.setWatermark 2), .step (.interrupt [.converter (.busRead 0x7F00)]), .release]
    let driver : List DriverSessionStep :=
      [.step (.init { watermark := 2 }), .step (.capture [.onInterrupt] []), .fini]
    OverSerial Answer.onWire (DeviceStep.runAll device b) (DeviceStep.runAll device b.onWire) ∧
      (DeviceStep.runAll device b).map Prod.fst = [.unit, .failure (.bus (.code 1))] ∧
      (DeviceStep.runAll device b.onWire).map Prod.fst =
        [.unit, .failure (.bus (.serial .modeFault))] ∧
      (DeviceStep.runAll device b.onWire).map (fun x => x.2.filterMap Event.busAccess?) =
        [[.write 0x7FFF 5 true], [.read 0x0A none]] ∧
      OverSerial FifoSessionReply.onWire (FifoSession.runAll fifo (.holding { board := b }))
        (FifoSession.runAll fifo (.holding { board := b.onWire })) ∧
      OverSerial DriverReply.onWire (DriverSession.runAll driver (.stopped b []))
        (DriverSession.runAll driver (.stopped b.onWire [])) := by
  intro b device fifo driver
  obtain ⟨⟨hdevice, -⟩, ⟨hfifo, -⟩, ⟨hdriver, -⟩, -⟩ :=
    @serial_refines_direct b (.holding { board := b }) (.stopped b []) device fifo driver rfl rfl
      rfl (by decide) (by decide) (by decide)
  exact ⟨hdevice, rfl, rfl, rfl, hfifo, hdriver⟩

end AdcCapture
