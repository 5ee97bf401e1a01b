/-
  Failures of the bus, and what a call says about them. An access to the converter is taken from
  the record with the failure it ended with (`Board.accessLog`), on either bus; whether it fails is
  up to the schedule of the board alone (`Board.Makes`). A call is truthful if it fails because of
  the bus exactly when the last access that it made has failed, and none before it has
  (`Action.Truthful`): so it hides no failure, makes none up, and leaves the bus alone after one.
  Sequences of truthful calls are truthful, and so is each access, whichever bus it goes over.
-/
import AdcCapture.Proofs.BusTraffic
import AdcCapture.Proofs.PlatformCalls

namespace AdcCapture

variable {σ ε ε' α β : Type}

/-- The failure that a board's bus reports for a fault code. -/
def Transport.fault : Transport → UInt32 → BusFault
  | direct, k => .code k
  | serial, k => .serial (.ofCode k)

/-- The failure of a result, if it is one. -/
def Event.failure? : Except BusFault α → Option BusFault
  | .ok _ => none
  | .error e => some e

/-- An access to the converter, with the failure that it ended with if it failed. -/
abbrev Attempt : Type := Access × Option BusFault

/-- The access that an event tells of. On the serial bus it is the converter that knows which one
the bytes of a transfer ask for. -/
def Event.attempt? : Event → Option Attempt
  | read a r => some (.read a, failure? r)
  | write a _ r => some (.write a, failure? r)
  | readData _ r => some (.data, failure? r)
  | transfer (high :: low :: rest) r =>
    let i := Instruction.decode high low
    if i.isRead then some (.read i.address, failure? r)
    else rest.head?.map fun _ => (.write i.address, failure? r)
  | stream _ r => some (.data, failure? r)
  | _ => none

namespace Board

/-- The accesses to the converter so far, the latest first. -/
def accessLog (b : Board) : List Attempt := b.record.filterMap Event.attempt?

/-- Each of these accesses, the latest first, ends as the schedule of the board has it, if they are
the next ones. -/
def Scheduled (b : Board) : List Attempt → Prop
  | [] => True
  | x :: earlier =>
    x.2 = (b.faults.code? (b.accesses + earlier.length) x.1).map b.transport.fault ∧
      b.Scheduled earlier

/-- The board `c` comes from `b` by these accesses, the latest first, and by no other. -/
structure Makes (b : Board) (xs : List Attempt) (c : Board) : Prop where
  log : c.accessLog = xs ++ b.accessLog
  accesses : c.accesses = b.accesses + xs.length
  faults : c.faults = b.faults
  transport : c.transport = b.transport
  scheduled : b.Scheduled xs

namespace Makes

variable {b c d : Board} {xs ys : List Attempt}

theorem refl (b : Board) : b.Makes [] b := ⟨rfl, rfl, rfl, rfl, trivial⟩

theorem scheduled_append (h : b.Makes xs c) (hys : c.Scheduled ys) : b.Scheduled (ys ++ xs) := by
  induction ys with
  | nil => exact h.scheduled
  | cons y ys ih =>
    obtain ⟨hy, hys⟩ := hys
    refine ⟨hy.trans ?_, ih hys⟩
    have hplace : c.accesses + ys.length = b.accesses + (ys ++ xs).length := by
      rw [h.accesses, List.length_append]
      omega
    rw [h.faults, h.transport, hplace]
    rfl

theorem trans (h : b.Makes xs c) (h' : c.Makes ys d) : b.Makes (ys ++ xs) d where
  log := by rw [h'.log, h.log, List.append_assoc]
  accesses := by
    rw [h'.accesses, h.accesses, List.length_append]
    omega
  faults := h'.faults.trans h.faults
  transport := h'.transport.trans h.transport
  scheduled := h.scheduled_append h'.scheduled

/-- What is noted in the record and is no access changes nothing. -/
theorem noted {e : Event} (he : e.attempt? = none) (b : Board) :
    b.Makes [] { b with record := e :: b.record } :=
  ⟨List.filterMap_cons_none he, rfl, rfl, rfl, trivial⟩

end Makes

/-- Accesses do not make a board fail that does not fail on its own. -/
theorem Reliable.makes {b c : Board} (h : b.Reliable) {xs : List Attempt} (hc : b.Makes xs c) :
    c.Reliable := by
  intro k a hk
  rw [hc.faults]
  exact h k a (Nat.le_trans (hc.accesses.symm ▸ Nat.le_add_right _ _) hk)

/-- A call has come from the board `b` to the board `c` and fails because of the bus with the
failure `told`, or not because of the bus. This is the truth: the failure is that of an access that
the call has made, there is one if an access has failed, and that access is the last. -/
def Tells (b : Board) (told : Option BusFault) (c : Board) : Prop :=
  ∃ xs, b.Makes xs c ∧ (∀ e, told = some e ↔ ∃ a, (a, some e) ∈ xs) ∧ ∀ x ∈ xs.tail, x.2 = none

namespace Tells

variable {b c d : Board} {t : Option BusFault}

theorem silent (h : b.Makes [] c) : b.Tells none c := by
  refine ⟨[], h, fun e => ⟨?_, ?_⟩, fun _ hx => (nomatch hx)⟩
  · intro he
    cases he
  · rintro ⟨a, ha⟩
    cases ha

theorem single {a : Access} (h : b.Makes [(a, t)] c) : b.Tells t c := by
  refine ⟨_, h, fun e => ⟨?_, ?_⟩, fun _ hx => (nomatch hx)⟩
  · rintro rfl
    exact ⟨a, List.mem_singleton_self _⟩
  · rintro ⟨_, ha⟩
    cases List.mem_singleton.mp ha
    rfl

/-- A call that fails for no reason of the bus has made accesses that all went well. -/
theorem sound {xs : List Attempt} (h : ∀ e, none = some e ↔ ∃ a, (a, some e) ∈ xs) :
    ∀ x ∈ xs, x.2 = none := by
  rintro ⟨a, t⟩ hx
  cases t with
  | none => rfl
  | some e => exact nomatch (h e).mpr ⟨a, hx⟩

/-- After a call that has met no failure, another one may go on. -/
theorem trans (h : b.Tells none c) (h' : c.Tells t d) : b.Tells t d := by
  obtain ⟨xs, hmakes, htold, -⟩ := h
  obtain ⟨ys, hmakes', htold', hlast⟩ := h'
  have hxs := sound htold
  refine ⟨ys ++ xs, hmakes.trans hmakes', fun e => (htold' e).trans ?_, fun x hx => ?_⟩
  · constructor
    · rintro ⟨a, ha⟩
      exact ⟨a, List.mem_append_left _ ha⟩
    · rintro ⟨a, ha⟩
      rcases List.mem_append.mp ha with ha | ha
      · exact ⟨a, ha⟩
      · cases hxs _ ha
  · cases ys with
    | nil => exact hxs _ (List.mem_of_mem_tail hx)
    | cons y ys =>
      rcases List.mem_append.mp hx with hx | hx
      · exact hlast _ hx
      · exact hxs _ hx

/-- After any call, what makes no access leaves its truth alone. -/
theorem then_silent (h : b.Tells t c) (h' : c.Makes [] d) : b.Tells t d := by
  obtain ⟨xs, hmakes, htold⟩ := h
  exact ⟨xs, hmakes.trans h', htold⟩

end Tells

/-- No access is made. -/
def silent : Contract Board where
  inv _ := True
  allows b c := b.Makes [] c
  refl := .refl
  trans := .trans

theorem log_silent (m : Message) : (log m : Action Board ε Unit).Obeys silent :=
  .update fun b _ => ⟨trivial, .noted rfl b⟩

theorem platform_silent (c : PlatformCall) (irq : Option UInt32) : (platform c irq).Obeys silent := by
  intro b _
  have hcall : b.Makes [] (platform c irq b).2 :=
    ⟨List.filterMap_cons_none rfl, rfl, rfl, rfl, trivial⟩
  rcases platform_ends c irq b with ⟨d, ok, hrun, -⟩ | ⟨d, hrun, -⟩
  · rw [hrun] at hcall ⊢
    exact ⟨rfl, trivial, hcall⟩
  · rw [hrun] at hcall ⊢
    exact ⟨rfl, trivial, hcall⟩

end Board

/-- The bus failure that an outcome tells of; `bus?` picks it from an error. -/
def Outcome.told? (bus? : ε → Option BusFault) : Outcome ε α → Option BusFault
  | ok _ => none
  | error e => bus? e
  | fault _ => none

theorem Outcome.told?_of_none {bus? : ε → Option BusFault} (h : ∀ e, bus? e = none)
    (o : Outcome ε α) : o.told? bus? = none := by
  cases o with
  | error e => exact h e
  | _ => rfl

/-- The bus failure behind a cause. -/
def Failure.busFault? : Cause → Option BusFault
  | bus e => some e
  | _ => none

/-! ## Truthful calls -/

/-- Wherever the call is made, it tells the truth about the bus of the board, and its errors that
come from the bus are those of which `bus?` gives a failure. -/
def Action.Truthful (board : σ → Board) (bus? : ε → Option BusFault) (a : Action σ ε α) : Prop :=
  ∀ s, (board s).Tells ((a s).1.told? bus?) (board (a s).2)

namespace Action.Truthful

variable {board : σ → Board} {bus? : ε → Option BusFault} {bus?' : ε' → Option BusFault}

theorem silent {a : Action σ ε α} (ha : ∀ s, (board s).Makes [] (board (a s).2))
    (ht : ∀ s, (a s).1.told? bus? = none) : a.Truthful board bus? :=
  fun s => (ht s).symm ▸ .silent (ha s)

theorem pure (v : α) : (Pure.pure v : Action σ ε α).Truthful board bus? :=
  silent (fun _ => .refl _) fun _ => rfl

theorem fail {e : ε} (he : bus? e = none) : (Action.fail e : Action σ ε α).Truthful board bus? :=
  silent (fun _ => .refl _) fun _ => he

theorem state : (Action.state : Action σ ε σ).Truthful board bus? :=
  silent (fun _ => .refl _) fun _ => rfl

theorem give {o : Outcome ε α} (ho : o.told? bus? = none) :
    (Action.give o : Action σ ε α).Truthful board bus? := silent (fun _ => .refl _) fun _ => ho

theorem update {f : σ → σ} (hf : ∀ s, board (f s) = board s) :
    (Action.update f : Action σ ε Unit).Truthful board bus? :=
  silent (fun s => (hf s).symm ▸ .refl _) fun _ => rfl

theorem bind {a : Action σ ε α} {f : α → Action σ ε β} (ha : a.Truthful board bus?)
    (hf : ∀ v, (f v).Truthful board bus?) : (a >>= f).Truthful board bus? := by
  intro s
  have htells := ha s
  rw [Action.bind_apply]
  rcases h : a s with ⟨o, t⟩
  rw [h] at htells
  cases o with
  | ok v => exact htells.trans (hf v t)
  | error e => exact htells
  | fault x => exact htells

theorem mapError {a : Action σ ε α} {f : ε → ε'} (ha : a.Truthful board bus?)
    (hf : ∀ e, bus?' (f e) = bus? e) : (a.mapError f).Truthful board bus?' := by
  intro s
  have htells := ha s
  unfold Action.mapError
  rcases h : a s with ⟨o, t⟩
  rw [h] at htells
  cases o with
  | ok v => exact htells
  | error e =>
    change (board s).Tells (bus?' (f e)) (board t)
    rw [hf]
    exact htells
  | fault x => exact htells

/-- An answer to errors that are not those of the bus is one more call. -/
theorem recover {a : Action σ ε α} {h : ε → Action σ ε' α} (ha : a.Truthful board bus?)
    (hbus : ∀ e, bus? e = none) (hh : ∀ e, (h e).Truthful board bus?') :
    (a.recover h).Truthful board bus?' := by
  intro s
  have htells := ha s
  rw [Outcome.told?_of_none hbus] at htells
  unfold Action.recover
  rcases hrun : a s with ⟨o, t⟩
  rw [hrun] at htells
  cases o with
  | ok v => exact htells
  | error e => exact htells.trans (hh e t)
  | fault x => exact htells

/-- An answer to any error makes no access, and hands the failure on. -/
theorem recover_with {a : Action σ ε α} {h : ε → Action σ ε' α} (ha : a.Truthful board bus?)
    (hh : ∀ e s, (board s).Makes [] (board (h e s).2) ∧ (h e s).1.told? bus?' = bus? e) :
    (a.recover h).Truthful board bus?' := by
  intro s
  have htells := ha s
  unfold Action.recover
  rcases hrun : a s with ⟨o, t⟩
  rw [hrun] at htells
  cases o with
  | ok v => exact htells
  | error e =>
    obtain ⟨hmakes, htold⟩ := hh e t
    dsimp only
    rw [htold]
    exact htells.then_silent hmakes
  | fault x => exact htells

/-- So does what comes after an error that was taken as a value. -/
theorem attempt_bind {a : Action σ ε α} {f : Except ε α → Action σ ε β}
    (ha : a.Truthful board bus?) (hok : ∀ v, (f (.ok v)).Truthful board bus?)
    (hh : ∀ e s, (board s).Makes [] (board (f (.error e) s).2) ∧
      (f (.error e) s).1.told? bus? = bus? e) :
    (Action.attempt a >>= f).Truthful board bus? := by
  intro s
  have htells := ha s
  rw [Action.bind_apply]
  unfold Action.attempt
  rcases hrun : a s with ⟨o, t⟩
  rw [hrun] at htells
  cases o with
  | ok v => exact htells.trans (hok v t)
  | error e =>
    obtain ⟨hmakes, htold⟩ := hh e t
    dsimp only
    rw [htold]
    exact htells.then_silent hmakes
  | fault x => exact htells

end Action.Truthful

/-! ## Accesses -/

namespace Board

theorem log_truthful {bus? : ε → Option BusFault} (m : Message) :
    (log m : Action Board ε Unit).Truthful id bus? :=
  .silent (fun b => .noted rfl b) fun _ => rfl

theorem platform_truthful (c : PlatformCall) (irq : Option UInt32) :
    (platform c irq).Truthful id fun _ => none :=
  .silent (fun b => (platform_silent c irq b trivial).allowed) fun _ =>
    Outcome.told?_of_none (fun _ => rfl) _

/-- Below the bus, this is one access: it fails with the code that the schedule has for it, and
changes nothing but registers. -/
def Asks (x : Access) (a : Action Board UInt32 α) : Prop :=
  ∀ b : Board, (∃ r, (a b).2 = { b.counted with registers := r }) ∧
    ((∃ v, (a b).1 = .ok v ∧ b.faults.code? b.accesses x = none) ∨
      ∃ k, (a b).1 = .error k ∧ b.faults.code? b.accesses x = some k)

theorem countAccess_asks (x : Access) : Asks x (countAccess x) := by
  intro b
  unfold countAccess
  cases b.faults.code? b.accesses x with
  | none => exact ⟨⟨b.registers, rfl⟩, .inl ⟨(), rfl, rfl⟩⟩
  | some k => exact ⟨⟨b.registers, rfl⟩, .inr ⟨k, rfl, rfl⟩⟩

/-- What follows an access and cannot fail belongs to it. -/
theorem Asks.bind {x : Access} {a : Action Board UInt32 α} (ha : Asks x a)
    {f : α → Action Board UInt32 β}
    (hf : ∀ v b, ∃ w r, f v b = (.ok w, { b with registers := r })) : Asks x (a >>= f) := by
  intro b
  obtain ⟨⟨r, hr⟩, ⟨v, hv, hcode⟩ | ⟨k, hk, hcode⟩⟩ := ha b
  · obtain ⟨w, r', hrun⟩ := hf v (a b).2
    rw [Action.bind_ok b (Prod.ext hv rfl), hrun, hr]
    exact ⟨⟨r', rfl⟩, .inl ⟨w, rfl, hcode⟩⟩
  · rw [Action.bind_error b (Prod.ext hk hr)]
    exact ⟨⟨r, rfl⟩, .inr ⟨k, rfl, hcode⟩⟩

theorem peek_asks (a : UInt16) : Asks (.read a) (peek a) :=
  (countAccess_asks _).bind fun _ b => ⟨_, b.registers, rfl⟩

theorem poke_asks (a : UInt16) (v : UInt8) : Asks (.write a) (poke a v) :=
  (countAccess_asks _).bind fun _ b => ⟨_, b.registers.set a v, rfl⟩

theorem serve_asks (n : Nat) : Asks .data (serve n) :=
  (countAccess_asks _).bind fun _ b => ⟨_, b.registers, rfl⟩

/-- The bytes of an instruction reach the converter as the access that they stand for. -/
theorem answer_read_asks (a : UInt16) :
    Asks (.read (Instruction.wired a)) (answer (Instruction.encode ⟨true, a⟩)) := by
  rw [answer_read]
  exact (peek_asks _).bind fun _ b => ⟨_, b.registers, rfl⟩

theorem answer_write_asks (a : UInt16) (v : UInt8) :
    Asks (.write (Instruction.wired a)) (answer (Instruction.encode ⟨false, a⟩ ++ [v])) := by
  rw [answer_write]
  exact (poke_asks _ v).bind fun _ b => ⟨_, b.registers, rfl⟩

theorem attempt?_transfer_read (a : UInt16) (r : Except BusFault (List UInt8)) :
    (Event.transfer (Instruction.encode ⟨true, a⟩) r).attempt? =
      some (.read (Instruction.wired a), Event.failure? r) := by
  obtain ⟨high, low, henc, hdec⟩ := Instruction.encode_decodes ⟨true, a⟩
  rw [henc]
  unfold Event.attempt?
  dsimp only
  rw [hdec, if_pos rfl]

theorem attempt?_transfer_write (a : UInt16) (v : UInt8) (r : Except BusFault (List UInt8)) :
    (Event.transfer (Instruction.encode ⟨false, a⟩ ++ [v]) r).attempt? =
      some (.write (Instruction.wired a), Event.failure? r) := by
  obtain ⟨high, low, henc, hdec⟩ := Instruction.encode_decodes ⟨false, a⟩
  rw [henc, List.cons_append, List.cons_append]
  unfold Event.attempt?
  dsimp only
  rw [hdec, if_neg Bool.false_ne_true]
  rfl

/-- An access that is noted with its result tells of its failure, if the bus makes of the fault
code what the board's bus does. -/
theorem traced_tells {x : Access} {a : Action Board UInt32 α} (ha : Asks x a)
    {kind : UInt32 → BusFault} {event : Except BusFault α → Event}
    (hevent : ∀ r, (event r).attempt? = some (x, Event.failure? r)) {b : Board}
    (hkind : kind = b.transport.fault) :
    b.Tells ((traced kind event a b).1.told? some) (traced kind event a b).2 := by
  have hnoted : ∀ (r : Except BusFault α) (rs : RegisterFile),
      Event.failure? r = (b.faults.code? b.accesses x).map b.transport.fault →
      b.Makes [(x, Event.failure? r)]
        { b.counted with registers := rs, record := event r :: b.record } :=
    fun r rs hr => ⟨List.filterMap_cons_some (hevent r), rfl, rfl, rfl, hr, trivial⟩
  obtain ⟨⟨rs, hrs⟩, ⟨v, hv, hcode⟩ | ⟨k, hk, hcode⟩⟩ := ha b
  · rw [traced_ok kind event (Prod.ext hv hrs)]
    exact .single (hnoted (.ok v) rs (by rw [hcode]; rfl))
  · rw [traced_error kind event (Prod.ext hk hrs)]
    exact .single (hnoted (.error (kind k)) rs (by rw [hcode, hkind]; rfl))

/-- A call that first looks at the transport is truthful if it is over either bus. -/
theorem transport_truthful {direct serial : Action Board BusFault α}
    (hdirect : ∀ b : Board, b.transport = .direct →
      b.Tells ((direct b).1.told? some) (direct b).2)
    (hserial : ∀ b : Board, b.transport = .serial →
      b.Tells ((serial b).1.told? some) (serial b).2) :
    (do match (← Action.state).transport with
        | .direct => direct
        | .serial => serial : Action Board BusFault α).Truthful id some := by
  intro b
  rw [Action.state_bind]
  cases h : b.transport with
  | direct => exact hdirect b h
  | serial => exact hserial b h

/-- What a call gives makes no difference to what it tells. -/
theorem tells_map {a : Action Board BusFault α} {b : Board}
    (h : b.Tells ((a b).1.told? some) (a b).2) (f : α → β) :
    b.Tells (((do return f (← a) : Action Board BusFault β) b).1.told? some)
      ((do return f (← a) : Action Board BusFault β) b).2 := by
  rw [Action.bind_apply]
  rcases hrun : a b with ⟨o, c⟩
  rw [hrun] at h
  cases o <;> exact h

theorem readRegister_truthful (a : UInt16) : (readRegister a).Truthful id some :=
  transport_truthful
    (fun _ h => traced_tells (peek_asks a) (fun _ => rfl) (by rw [h]; rfl))
    (fun _ h => tells_map
      (traced_tells (answer_read_asks a) (attempt?_transfer_read a) (by rw [h]; rfl)) _)

theorem writeRegister_truthful (a : UInt16) (v : UInt8) :
    (writeRegister a v).Truthful id some :=
  transport_truthful
    (fun _ h => traced_tells (poke_asks a v) (fun _ => rfl) (by rw [h]; rfl))
    (fun _ h => tells_map
      (traced_tells (answer_write_asks a v) (attempt?_transfer_write a v) (by rw [h]; rfl)) _)

theorem readData_truthful (n : Nat) : (readData n).Truthful id some :=
  transport_truthful
    (fun _ h => traced_tells (serve_asks n) (fun r => by cases r <;> rfl) (by rw [h]; rfl))
    (fun _ h => traced_tells (serve_asks n) (fun r => by cases r <;> rfl) (by rw [h]; rfl))

end Board

end AdcCapture
