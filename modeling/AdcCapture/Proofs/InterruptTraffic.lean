/-
  What an interrupt does on the bus. It asks for the status; if the FIFO is full it reads it out
  once, provided that a capture waits for that, and turns it off (`Driver.InterruptEnds`). An
  interrupt that no capture waits for changes nothing of the driver but its board
  (`interrupted_unawaited`).
-/
import AdcCapture.Proofs.BusTraffic

namespace AdcCapture

open Converter (SetFieldEnds)

theorem Converter.fifoFull_effect (b : Board) :
    ∃ v, b.After [.read Register.deviceStatus v] b.chip (fifoFull b).2 := by
  rcases read_ends (a := Register.deviceStatus) (by decide) b with ⟨c, h, hc⟩ | ⟨f, c, h, hc⟩
  · have hrun : fifoFull b = (.ok _, c) := Action.bind_ok _ h _
    rw [hrun]
    exact ⟨_, hc⟩
  · have hrun : fifoFull b = (.error _, c) := Action.bind_error _ h _
    rw [hrun]
    exact ⟨_, hc⟩

/-- An attempt to turn the FIFO off sets the mode or fails to, and may leave a message. -/
theorem Board.switchedOff_ends (report : Cause → Message) (b : Board) :
    ∃ o c, SetFieldEnds .fifoMode FifoMode.disabled.code b (o, c) ∧
      c.After [] c.chip (b.switchedOff report) := by
  have hmode := Converter.setFifoMode_effect .disabled b
  unfold switchedOff
  rcases hm : Converter.setFifoMode .disabled b with ⟨o, c⟩
  rw [hm] at hmode
  refine ⟨o, c, hmode, ?_⟩
  cases o with
  | ok _ => exact .refl c
  | error e => exact Board.after_noted _ c
  | fault x => exact .refl c

theorem Fifo.readSamples_board {f : Fifo} {b : Buffers} (hb : f.buffers = some b)
    (hs : b.Shaped) : (readSamples f).2.board = (Converter.readData b.rawSize f.board).2 := by
  rw [readSamples_eq hb hs.rawSize_eq]
  rcases Converter.readData b.rawSize f.board with ⟨o, c⟩
  cases o <;> rfl

namespace Driver

/-- The board that an interrupt of the driver `d` leaves. -/
inductive InterruptEnds (d : Driver) : Board → Prop where
  /-- The status could not be read, or it did not show the FIFO as full. -/
  | asked {v : Option UInt8} {b : Board} (hfull : ¬ d.full)
      (hask : d.fifo.board.After [.read Register.deviceStatus v] d.fifo.board.chip b) :
      InterruptEnds d b
  /-- The FIFO was full, no capture waited for it, and it was turned off or could not be. -/
  | unheard {v : Option UInt8} {b c e : Board} {o : Outcome Cause Unit} (hfull : d.full)
      (hidle : d.awaits = false)
      (hask : d.fifo.board.After [.read Register.deviceStatus v] d.fifo.board.chip b)
      (hoff : SetFieldEnds .fifoMode FifoMode.disabled.code b (o, c))
      (hlast : c.After [] c.chip e) : InterruptEnds d e
  /-- The FIFO was full, and it was read out for a capture before it was turned off. -/
  | heard {v : Option UInt8} {done : Bool} {b c e : Board} {o : Outcome Cause Unit}
      (hfull : d.full) (hawaits : d.awaits = true)
      (hask : d.fifo.board.After [.data d.fifo.rawSize done, .read Register.deviceStatus v]
        d.fifo.board.chip b)
      (hoff : SetFieldEnds .fifoMode FifoMode.disabled.code b (o, c))
      (hlast : c.After [] c.chip e) : InterruptEnds d e

/-- Every interrupt of a sound driver ends in one of these ways. -/
theorem interrupted_ends {d : Driver} (h : d.Sound) :
    InterruptEnds d d.interrupted.fifo.board := by
  obtain ⟨v, hask⟩ := Converter.fifoFull_effect d.fifo.board
  have hfull : d.full ↔ (Converter.fifoFull d.fifo.board).1 = .ok true := Iff.rfl
  unfold interrupted
  rcases hf : Converter.fifoFull d.fifo.board with ⟨o, b⟩
  rw [hf] at hask hfull
  cases o with
  | error e =>
    refine .asked (fun hn => nomatch hfull.mp hn) (v := v) ?_
    exact hask.trans (hask.chip ▸ Board.after_noted _ b)
  | fault x => exact .asked (fun hn => nomatch hfull.mp hn) hask
  | ok full =>
    cases full with
    | false =>
      refine .asked (fun hn => nomatch hfull.mp hn) (v := v) ?_
      exact hask.trans (hask.chip ▸ Board.after_noted _ b)
    | true =>
      change InterruptEnds d ((d.withBoard b).consumed.fifo.board.switchedOff .interruptFailed)
      obtain ⟨o, c, hoff, hlast⟩ :=
        Board.switchedOff_ends .interruptFailed (d.withBoard b).consumed.fifo.board
      cases ha : d.awaits with
      | false =>
        have hidle : (d.withBoard b).awaits = false := ha
        rw [consumed_idle hidle] at hoff hlast ⊢
        have hlog := hask.trans (hask.chip ▸ Board.after_noted .noCapturePending b)
        exact .unheard (hfull.mpr rfl) ha hlog hoff hlast
      | true =>
        have hawaits : (d.withBoard b).awaits = true := ha
        have hconsumed : (d.withBoard b).consumed = (d.withBoard b).readOut := if_pos hawaits
        obtain ⟨buffers, hb⟩ := Option.isSome_iff_exists.mp (h.sized (awaits_iff.mp ha).1)
        have hsize : d.fifo.rawSize = buffers.rawSize := by
          unfold Fifo.rawSize
          rw [hb]
          rfl
        obtain ⟨done, hdata⟩ := Converter.after_readData buffers.rawSize b
        have hread : (d.withBoard b).readOut.fifo.board =
            (Converter.readData buffers.rawSize b).2 :=
          Fifo.readSamples_board (f := (d.withBoard b).fifo) hb (h.shaped buffers hb)
        rw [hconsumed, hread] at hoff hlast ⊢
        rw [← hsize, hask.chip] at hdata
        rw [← hsize] at hoff hlast ⊢
        exact .heard (hfull.mpr rfl) ha (hask.trans hdata) hoff hlast

/-- The accesses that an interrupt of the driver `d` can make. -/
inductive InterruptAccess (d : Driver) : BusAccess → Prop where
  | read {a : UInt16} {r : Option UInt8} : InterruptAccess d (.read a r)
  /-- The FIFO is turned off, and nothing else in the register of its mode is changed. -/
  | turnOff {done : Bool} : InterruptAccess d (.write Register.generalConfig
      (Field.fifoMode.put FifoMode.disabled.code
        (d.fifo.board.registers.get Register.generalConfig)) done)
  /-- The FIFO is read out for a capture that waits for it. -/
  | readOut {done : Bool} (hfull : d.full) (hawaits : d.awaits = true) :
      InterruptAccess d (.data d.fifo.rawSize done)

namespace InterruptEnds

variable {d : Driver} {b : Board}

/-- The converter stays as it is, or its FIFO is turned off. -/
theorem chip (h : InterruptEnds d b) :
    b.chip = d.fifo.board.chip ∨ b.chip = d.fifo.board.chip.setMode .disabled := by
  cases h with
  | asked _ hask => exact .inl hask.chip
  | unheard _ _ hask hoff hlast =>
    rw [hlast.chip, ← hask.chip]
    exact hoff.chip
  | heard _ _ hask hoff hlast =>
    rw [hlast.chip, ← hask.chip]
    exact hoff.chip

/-- All new accesses are such as interrupts make. -/
theorem traffic (h : InterruptEnds d b) :
    ∃ new, b.traffic = new ++ d.fifo.board.traffic ∧ ∀ x ∈ new, InterruptAccess d x := by
  have hmode : ∀ {e c : Board} {o : Outcome Cause Unit}, e.chip = d.fifo.board.chip →
      SetFieldEnds .fifoMode FifoMode.disabled.code e (o, c) →
        ∃ new, c.traffic = new ++ e.traffic ∧ ∀ x ∈ new, InterruptAccess d x := by
    intro e c o hchip hoff
    obtain ⟨new, hnew, honly⟩ := hoff.traffic
    refine ⟨new, hnew, fun x hx => ?_⟩
    rcases honly x hx with ⟨r, rfl⟩ | ⟨done, rfl⟩
    · exact .read
    · rw [show e.registers = d.fifo.board.registers from congrArg Chip.registers hchip]
      exact .turnOff
  cases h with
  | @asked v _ _ hask =>
    exact ⟨[.read Register.deviceStatus v], hask.traffic, List.forall_mem_singleton.mpr .read⟩
  | @unheard v _ _ _ _ _ _ hask hoff hlast =>
    obtain ⟨new, hnew, honly⟩ := hmode hask.chip hoff
    refine ⟨new ++ [.read Register.deviceStatus v], ?_, ?_⟩
    · rw [hlast.traffic, hnew, hask.traffic, List.append_assoc, List.nil_append]
    · exact List.forall_mem_append.mpr ⟨honly, List.forall_mem_singleton.mpr .read⟩
  | @heard v done _ _ _ _ hfull hawaits hask hoff hlast =>
    obtain ⟨new, hnew, honly⟩ := hmode hask.chip hoff
    refine ⟨new ++ [.data d.fifo.rawSize done, .read Register.deviceStatus v], ?_, ?_⟩
    · rw [hlast.traffic, hnew, hask.traffic, List.append_assoc, List.nil_append]
    · refine List.forall_mem_append.mpr ⟨honly, List.forall_mem_cons.mpr ⟨?_, ?_⟩⟩
      · exact .readOut hfull hawaits
      · exact List.forall_mem_singleton.mpr .read

end InterruptEnds

/-- An interrupt that no capture waits for changes nothing of the driver but its board. -/
theorem interrupted_unawaited {d : Driver} (h : d.awaits = false) :
    d.interrupted = d.withBoard d.interrupted.fifo.board := by
  unfold interrupted
  split
  · rename_i b hf
    have hidle : (d.withBoard b).awaits = false := h
    rw [consumed_idle hidle]
    rfl
  · rfl
  · rfl
  · rfl

/-- An interrupt that does not find the FIFO full changes nothing of the driver but its board. -/
theorem interrupted_not_full {d : Driver} (h : ¬ d.full) :
    d.interrupted = d.withBoard d.interrupted.fifo.board := by
  unfold full at h
  unfold interrupted
  split
  · rename_i b hf
    rw [hf] at h
    exact absurd rfl h
  · rfl
  · rfl
  · rfl

end Driver

end AdcCapture
