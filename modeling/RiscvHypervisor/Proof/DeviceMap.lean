import RiscvHypervisor.Model.Handlers

namespace RiscvHypervisor

/-!
# The device model

A register map of the emulated devices, which says what is at which address, what a load finds
there and what a store does, and the device model against it:

* `resetUpperBits_writeRegLow` — the two stages in which a load writes its destination register
  make one write of the extended value;
* `virtualMmdevLoad_cases`, `virtualMmdevStore_cases` — the device model follows the map;
* `emulateDevice_cases` — all that an emulated access can do.
-/

variable {s s' : State}

/-! ### Registers, a width at a time -/

/-- The number of bits an access of the given width has. -/
def MemoryAccessWidth.bits : MemoryAccessWidth → Nat
  | .w8  => 8
  | .w16 => 16
  | .w32 => 32
  | .w64 => 64

/-- The low bits of `v`, sign- or zero-extended. -/
def MemoryAccessWidth.extend (width : MemoryAccessWidth) (isSigned : Bool) (v : Word) : Word :=
  if isSigned then (v.setWidth width.bits).signExtend 64 else (v.setWidth width.bits).setWidth 64

theorem MemoryAccessWidth.bits_le (width : MemoryAccessWidth) : width.bits ≤ 64 := by
  cases width <;> decide

theorem MemoryAccessWidth.getLsbD_mask (width : MemoryAccessWidth) {i : Nat} (hi : i < 64) :
    width.mask.getLsbD i = decide (i < width.bits) := by
  have hmask : width.mask = BitVec.ofNat 64 (2 ^ width.bits - 1) := by
    cases width <;> rfl
  rw [hmask, BitVec.getLsbD_ofNat, Nat.testBit_two_pow_sub_one, decide_eq_true hi, Bool.true_and]

/-- The low bits of a register after a store of that width are those stored. -/
theorem setWidth_writeLow (width : MemoryAccessWidth) (old v : Word) :
    ((old &&& ~~~width.mask) ||| (v &&& width.mask)).setWidth width.bits =
      v.setWidth width.bits := by
  ext i hi
  have hlt : i < 64 := Nat.lt_of_lt_of_le hi width.bits_le
  simp only [BitVec.getElem_setWidth, BitVec.getLsbD_or, BitVec.getLsbD_and, BitVec.getLsbD_not,
    width.getLsbD_mask hlt, hi, decide_true, Bool.not_true, Bool.and_false, Bool.and_true,
    Bool.false_or]

/-- The low bits alone. -/
theorem and_mask (width : MemoryAccessWidth) (v : Word) :
    v &&& width.mask = width.extend false v := by
  show v &&& width.mask = (v.setWidth width.bits).setWidth 64
  apply BitVec.eq_of_getLsbD_eq
  intro i hi
  rw [BitVec.getLsbD_and, width.getLsbD_mask hi, BitVec.getLsbD_setWidth,
    BitVec.getLsbD_setWidth, decide_eq_true hi, Bool.true_and, Bool.and_comm]

@[simp] theorem MemoryAccessWidth.extend_w64 (isSigned : Bool) (v : Word) :
    MemoryAccessWidth.w64.extend isSigned v = v := by
  cases isSigned with
  | true => exact BitVec.signExtend_eq v
  | false => exact BitVec.setWidth_eq v

/-- The destination register of an access, as the handlers pass it on. -/
def DecodedAccess.regPtr (access : DecodedAccess) : Option Nat :=
  if access.reg = 0 then none else some (access.reg - 1)

theorem readReg_setReg {n r : Nat} {v : Word} :
    readReg (s.setReg n v).host.activeRegs r =
      if r = n + 1 then v else readReg s.host.activeRegs r := by
  unfold readReg
  by_cases hr : r = 0
  · rw [if_pos hr, if_pos hr, if_neg (by omega)]
  · rw [if_neg hr, if_neg hr]
    show Function.update s.host.activeRegs n v (r - 1) = _
    by_cases hn : r = n + 1
    · rw [if_pos hn, hn, Nat.add_sub_cancel, Function.update_self]
    · rw [if_neg hn, Function.update_of_ne (by omega)]

/-- Writing a register back changes nothing. -/
theorem setReg_activeRegs (s : State) (n : Nat) : s.setReg n (s.host.activeRegs n) = s := by
  show { s with host := { s.host with
    activeRegs := Function.update s.host.activeRegs n (s.host.activeRegs n) } } = s
  rw [Function.update_eq_self]

theorem setReg_setReg (s : State) (n : Nat) (v w : Word) :
    (s.setReg n v).setReg n w = s.setReg n w := by
  show { s with host := { s.host with
    activeRegs := Function.update (Function.update s.host.activeRegs n v) n w } } = _
  rw [Function.update_idem]
  rfl

/-- `reset_upper_bits` extends the low bits of the register. -/
theorem resetUpperBits_some (s : State) (n : Nat) (width : MemoryAccessWidth) (isSigned : Bool) :
    resetUpperBits s (some n) width isSigned =
      s.setReg n (width.extend isSigned (s.host.activeRegs n)) := by
  cases width with
  | w64 =>
    rw [MemoryAccessWidth.extend_w64, setReg_activeRegs]
    rfl
  | _ => rfl

/-- **Writing back.**  The store through the pointer and the repair of the upper bits together
    leave the extended value, whatever the register held. -/
theorem resetUpperBits_writeRegLow (s : State) (n : Nat) (width : MemoryAccessWidth)
    (isSigned : Bool) (v : Word) :
    resetUpperBits (writeRegLow s (some n) width v) (some n) width isSigned =
      s.setReg n (width.extend isSigned v) := by
  have hextend : width.extend isSigned
      ((s.host.activeRegs n &&& ~~~width.mask) ||| (v &&& width.mask)) =
      width.extend isSigned v := by
    unfold MemoryAccessWidth.extend
    rw [setWidth_writeLow]
  rw [resetUpperBits_some]
  show (s.setReg n _).setReg n (width.extend isSigned
    (Function.update s.host.activeRegs n _ n)) = _
  rw [Function.update_self, hextend, setReg_setReg]

/-- What a store takes from its source register. -/
theorem readRegLow_regPtr (s : State) (access : DecodedAccess) (width : MemoryAccessWidth) :
    readRegLow s access.regPtr width =
      width.extend false (readReg s.host.activeRegs access.reg) := by
  unfold DecodedAccess.regPtr readReg
  by_cases hr : access.reg = 0
  · rw [if_pos hr, if_pos hr]
    cases width <;> rfl
  · rw [if_neg hr, if_neg hr]
    exact and_mask _ _

/-! ### The register map -/

/-- The device registers in the guest's reach. -/
inductive DeviceRegister where
  | mtimecmp
  | mtime
  | plicPriority
  | plicEnable
  | plicThreshold
  | uartData
  | uartIer
  | uartLsr
deriving DecidableEq, Repr

namespace DeviceRegister

/-- Where the register is in the guest's machine. -/
def address : DeviceRegister → Nat
  | mtimecmp      => 0x02004000
  | mtime         => 0x0200BFF8
  | plicPriority  => 0x0C000028
  | plicEnable    => 0x0C002000
  | plicThreshold => 0x0C200000
  | uartData      => 0x10000000
  | uartIer       => 0x10000001
  | uartLsr       => 0x10000005

/-- The one width it can be accessed with. -/
def width : DeviceRegister → MemoryAccessWidth
  | mtimecmp | mtime                           => .w64
  | plicPriority | plicEnable | plicThreshold  => .w32
  | uartData | uartIer | uartLsr               => .w8

/-- What a load finds in the register, if it can be loaded.  The bits of the line status are
    "transmitter empty" and "data ready". -/
def value (s : State) : DeviceRegister → Option Word
  | mtimecmp      => some s.guest.timerDeadline
  | mtime         => some (s.clint.mtime - s.guest.timerAdjustment)
  | plicEnable    => some 0
  | uartData      => some (s.uart.received.head?.elim 0 (fun b => b.setWidth 64))
  | uartIer       => some 0
  | uartLsr       => some (if s.uart.received.isEmpty then 0x60 else 0x61)
  | plicPriority  => none
  | plicThreshold => none

/-- The UART after a load: a received byte is taken out of its buffer. -/
def afterLoad (u : Uart) : DeviceRegister → Uart
  | uartData => ⟨u.received.tail⟩
  | _        => u

/-- The state after the register has received `v`, if it can be stored to.  A byte for the UART is
    sent between the two colour sequences; the PLIC and the interrupt enable bits ignore what they
    receive. -/
def receive (v : Word) (s : State) : DeviceRegister → Option State
  | mtimecmp      =>
    some ((s.setGuest { s.guest with timerDeadline := v, timerScheduled := true }).observe
      (.mtimecmpStore v))
  | plicPriority  => some s
  | plicEnable    => some s
  | plicThreshold => some s
  | uartIer       => some s
  | uartData      =>
    some (s.print (uartColourOn ++ [v.setWidth 8] ++ uartColourOff))
  | mtime         => none
  | uartLsr       => none

theorem address_injective {d e : DeviceRegister} (h : d.address = e.address) : d = e := by
  cases d <;> cases e <;> first
    | rfl
    | exact absurd h (by decide)

/-- What the register sends when it receives `v`. -/
def sends (v : Word) : DeviceRegister → List (BitVec 8)
  | uartData => uartColourOn ++ [v.setWidth 8] ++ uartColourOff
  | _        => []

/-- No register receives into the guest's own registers or into memory. -/
theorem receive_frame {d : DeviceRegister} {v : Word} (h : d.receive v s = some s') :
    s'.host = s.host ∧ s'.hart = s.hart ∧ s'.satpSince = s.satpSince ∧ s'.uart = s.uart ∧
      s'.store = printStringSlice (d.sends v) s.store := by
  cases d <;> cases h <;> first
    | exact ⟨rfl, rfl, rfl, rfl, rfl⟩
    | exact ⟨rfl, rfl, rfl, rfl, (printStringSlice_nil _).symm⟩

end DeviceRegister

/-! ### The device model -/

/-- How the device model responds to an access of `width` to `d`, if the answer of `d` is
    `answer`. -/
def DeviceRegister.respond {α : Type} (d : DeviceRegister) (width : MemoryAccessWidth)
    (answer : Option α) (good : α → State) (s : State) : VirtMMAccessResult × State :=
  match answer with
  | none   => (.unknownAddr, s)
  | some v => if width = d.width then (.success, good v) else (.badAccess, s)

/-- The test each device case begins with. -/
theorem ite_width_ne {α : Type} (width w : MemoryAccessWidth) (bad : α)
    (good : MemoryAccessWidth → α) :
    (if width ≠ w then bad else good w) = if width = w then good width else bad := by
  by_cases hw : width = w
  · rw [if_neg (not_not_intro hw), if_pos hw, hw]
  · rw [if_pos hw, if_neg hw]

/-- The receive buffer, as a list. -/
theorem uartReceive_eq (u : Uart) :
    uartReceive u = (u.received.head?.elim 0 (fun b => b.setWidth 64), ⟨u.received.tail⟩) := by
  obtain ⟨received⟩ := u
  cases received with
  | nil => rfl
  | cons b rest => rfl

theorem uartStatus_eq (u : Uart) :
    UART_LSR_THRE ||| UART_LSR_TEMT ||| (uartDataReady u &&& UART_LSR_DR) =
      if u.received.isEmpty then 0x60 else 0x61 := by
  unfold uartDataReady
  by_cases hempty : u.received.isEmpty = true
  · rw [if_pos hempty, if_pos hempty]
    decide
  · rw [if_neg hempty, if_neg hempty]
    decide

/-- A load at the address of a register. -/
theorem virtualMmdevLoad_address (d : DeviceRegister) (regPtr : Option Nat)
    (width : MemoryAccessWidth) (s : State) :
    virtualMmdevLoad d.address regPtr width s = d.respond width (d.value s)
      (fun v => writeRegLow { s with uart := d.afterLoad s.uart } regPtr width v) s := by
  cases d with
  | mtimecmp =>
    exact ite_width_ne width .w64 _ (fun w => (_, writeRegLow s regPtr w s.guest.timerDeadline))
  | mtime =>
    exact ite_width_ne width .w64 _ (fun w => (_, writeRegLow s regPtr w (timerGetTimeVirtual s)))
  | plicPriority => rfl
  | plicEnable => exact ite_width_ne width .w32 _ (fun w => (_, writeRegLow s regPtr w 0))
  | plicThreshold => rfl
  | uartData =>
    -- the byte is taken out also if the destination is `x0`
    have hload := ite_width_ne width .w8 (VirtMMAccessResult.badAccess, s) (fun w =>
      (.success, writeRegLow { s with uart := (uartReceive s.uart).2 } regPtr w
        (uartReceive s.uart).1))
    rw [uartReceive_eq] at hload
    refine Eq.trans ?_ hload
    rw [← uartReceive_eq]
    rfl
  | uartIer => exact ite_width_ne width .w8 _ (fun w => (_, writeRegLow s regPtr w 0))
  | uartLsr =>
    have hload := ite_width_ne width .w8 (VirtMMAccessResult.badAccess, s) (fun w =>
      (.success, writeRegLow s regPtr w
        (UART_LSR_THRE ||| UART_LSR_TEMT ||| (uartDataReady s.uart &&& UART_LSR_DR))))
    rw [uartStatus_eq] at hload
    refine Eq.trans ?_ hload
    rw [← uartStatus_eq]
    rfl

theorem virtualMmdevLoad_unknown {addr : Nat} (h : ∀ d : DeviceRegister, d.address ≠ addr)
    (regPtr : Option Nat) (width : MemoryAccessWidth) (s : State) :
    virtualMmdevLoad addr regPtr width s = (.unknownAddr, s) := by
  unfold virtualMmdevLoad
  split
  · exact absurd rfl (h .mtimecmp)
  · exact absurd rfl (h .mtime)
  · exact absurd rfl (h .uartIer)
  · exact absurd rfl (h .plicEnable)
  · exact absurd rfl (h .uartLsr)
  · exact absurd rfl (h .uartData)
  · rfl

/-- A store at the address of a register. -/
theorem virtualMmdevStore_address (d : DeviceRegister) (regPtr : Option Nat)
    (width : MemoryAccessWidth) (s : State) :
    virtualMmdevStore d.address regPtr width s =
      d.respond width (d.receive (readRegLow s regPtr width) s) id s := by
  cases d with
  | mtimecmp =>
    exact ite_width_ne width .w64 _ (fun w =>
      (_, (s.setGuest { s.guest with
        timerDeadline := readRegLow s regPtr w, timerScheduled := true }).observe
          (.mtimecmpStore (readRegLow s regPtr w))))
  | mtime => rfl
  | plicPriority => exact ite_width_ne width .w32 _ (fun _ => (_, s))
  | plicEnable => exact ite_width_ne width .w32 _ (fun _ => (_, s))
  | plicThreshold => exact ite_width_ne width .w32 _ (fun _ => (_, s))
  | uartData =>
    exact ite_width_ne width .w8 _ (fun w =>
      (_, s.print (uartColourOn ++ [(readRegLow s regPtr w).setWidth 8] ++ uartColourOff)))
  | uartIer => exact ite_width_ne width .w8 _ (fun _ => (_, s))
  | uartLsr => rfl

theorem virtualMmdevStore_unknown {addr : Nat} (h : ∀ d : DeviceRegister, d.address ≠ addr)
    (regPtr : Option Nat) (width : MemoryAccessWidth) (s : State) :
    virtualMmdevStore addr regPtr width s = (.unknownAddr, s) := by
  unfold virtualMmdevStore
  split
  · exact absurd rfl (h .mtimecmp)
  · exact absurd rfl (h .plicPriority)
  · exact absurd rfl (h .plicEnable)
  · exact absurd rfl (h .plicThreshold)
  · exact absurd rfl (h .uartIer)
  · exact absurd rfl (h .uartData)
  · rfl

/-! ### What the device model accepts -/

/-- A load at `addr` is of register `d` and finds `v`. -/
def Loads (s : State) (addr : Nat) (width : MemoryAccessWidth) (d : DeviceRegister) (v : Word) :
    Prop :=
  d.address = addr ∧ d.width = width ∧ d.value s = some v

/-- A store of `v` at `addr` is to register `d` and leads to `s'`. -/
def Stores (s : State) (addr : Nat) (width : MemoryAccessWidth) (v : Word) (d : DeviceRegister)
    (s' : State) : Prop :=
  d.address = addr ∧ d.width = width ∧ d.receive v s = some s'

/-- An access is answered by the register at its address, if that takes accesses of this kind and
    width, and by nothing else. -/
theorem access_cases {α : Type} {answer : DeviceRegister → Option α} {addr : Nat}
    {width : MemoryAccessWidth} {r : VirtMMAccessResult × State}
    (good : DeviceRegister → α → State)
    (hat : ∀ d : DeviceRegister, d.address = addr → r = d.respond width (answer d) (good d) s)
    (hunknown : (∀ d : DeviceRegister, d.address ≠ addr) → r = (.unknownAddr, s)) :
    (∃ d v, (d.address = addr ∧ d.width = width ∧ answer d = some v) ∧
      r = (.success, good d v)) ∨
    ((∀ d v, ¬ (d.address = addr ∧ d.width = width ∧ answer d = some v)) ∧
      ∃ res, res ≠ .success ∧ r = (res, s)) := by
  by_cases hd : ∃ d : DeviceRegister, d.address = addr
  swap
  · refine Or.inr ⟨fun d _ hc => hd ⟨d, hc.1⟩, .unknownAddr, by decide, ?_⟩
    exact hunknown (fun d hc => hd ⟨d, hc⟩)
  obtain ⟨d, hd⟩ := hd
  -- no other register has this address
  have honly : ∀ e : DeviceRegister, e.address = addr → e = d :=
    fun e he => DeviceRegister.address_injective (he.trans hd.symm)
  have hr := hat d hd
  cases hanswer : answer d with
  | none =>
    rw [hanswer] at hr
    refine Or.inr ⟨fun e v he => ?_, .unknownAddr, by decide, hr⟩
    have hsome := he.2.2
    rw [honly e he.1, hanswer] at hsome
    cases hsome
  | some v =>
    rw [hanswer] at hr
    by_cases hwidth : width = d.width
    · exact Or.inl ⟨d, v, ⟨hd, hwidth.symm, hanswer⟩, hr.trans (if_pos hwidth)⟩
    · have hr := hr.trans (if_neg hwidth)
      refine Or.inr ⟨fun e w he => hwidth ?_, .badAccess, by decide, hr⟩
      rw [← he.2.1, honly e he.1]

theorem virtualMmdevLoad_cases (addr : Nat) (regPtr : Option Nat) (width : MemoryAccessWidth)
    (s : State) :
    (∃ d v, Loads s addr width d v ∧ virtualMmdevLoad addr regPtr width s =
      (.success, writeRegLow { s with uart := d.afterLoad s.uart } regPtr width v)) ∨
    ((∀ d v, ¬ Loads s addr width d v) ∧
      ∃ res, res ≠ .success ∧ virtualMmdevLoad addr regPtr width s = (res, s)) := by
  refine access_cases (fun d v => writeRegLow { s with uart := d.afterLoad s.uart } regPtr width v)
    ?_ (fun h => virtualMmdevLoad_unknown h regPtr width s)
  rintro d rfl
  exact virtualMmdevLoad_address d regPtr width s

theorem virtualMmdevStore_cases (addr : Nat) (regPtr : Option Nat) (width : MemoryAccessWidth)
    (s : State) :
    (∃ d s', Stores s addr width (readRegLow s regPtr width) d s' ∧
      virtualMmdevStore addr regPtr width s = (.success, s')) ∨
    ((∀ d s', ¬ Stores s addr width (readRegLow s regPtr width) d s') ∧
      ∃ res, res ≠ .success ∧ virtualMmdevStore addr regPtr width s = (res, s)) := by
  refine access_cases (fun _ => id) ?_ (fun h => virtualMmdevStore_unknown h regPtr width s)
  rintro d rfl
  exact virtualMmdevStore_address d regPtr width s

/-! ### Emulated accesses -/

/-- The state after a load from a device: the destination register has the extended value, the
    guest is behind the instruction, and the UART has given up a byte if it was read. -/
def LoadEffect (access : DecodedAccess) (gm : Nat) (s s' : State) : Prop :=
  ∃ d v, Loads s gm access.width d v ∧
    (∀ r, readReg s'.host.activeRegs r =
      if r = access.reg ∧ r ≠ 0 then access.width.extend access.isSigned v
      else readReg s.host.activeRegs r) ∧
    s' = { s with
      host := { s.host with activeRegs := s'.host.activeRegs }
      hart := s.hart.writeMepc (s.hart.mepc + BitVec.ofNat 64 access.pcAdvance)
      uart := d.afterLoad s.uart }

/-- The state after a store to a device, which has received the low bits of the source register. -/
def StoreEffect (access : DecodedAccess) (gm : Nat) (s s' : State) : Prop :=
  ∃ d s₁, Stores s gm access.width
      (access.width.extend false (readReg s.host.activeRegs access.reg)) d s₁ ∧
    s₁.host = s.host ∧ s' = s₁.setMepc (s.hart.mepc + BitVec.ofNat 64 access.pcAdvance)

/-- The device model accepts the access. -/
def DeviceAccepts (acc : MempermIndex) (access : DecodedAccess) (gm : Nat) (s : State) : Prop :=
  match acc with
  | .r => (virtualMmdevLoad gm access.regPtr access.width s).1 = .success
  | .w => (virtualMmdevStore gm access.regPtr access.width s).1 = .success
  | _  => False

/-- The destination register of an accepted load. -/
theorem loadEffect_of_loads {access : DecodedAccess} {gm : Nat} {d : DeviceRegister} {v : Word}
    (h : Loads s gm access.width d v) :
    LoadEffect access gm s ((resetUpperBits
      (writeRegLow { s with uart := d.afterLoad s.uart } access.regPtr access.width v)
      access.regPtr access.width access.isSigned).setMepc
        (s.hart.mepc + BitVec.ofNat 64 access.pcAdvance)) := by
  refine ⟨d, v, h, ?_⟩
  by_cases hreg : access.reg = 0
  · -- `x0`: the pointer is `NULL` in both stages
    have hptr : access.regPtr = none := if_pos hreg
    rw [hptr]
    refine ⟨fun r => ?_, rfl⟩
    rw [if_neg (fun hc => hc.2 (hc.1.trans hreg))]
    rfl
  · have hptr : access.regPtr = some (access.reg - 1) := if_neg hreg
    rw [hptr, resetUpperBits_writeRegLow]
    refine ⟨fun r => ?_, rfl⟩
    rw [State.host_setMepc, readReg_setReg, Nat.sub_add_cancel (Nat.pos_of_ne_zero hreg)]
    refine if_congr ?_ rfl rfl
    exact ⟨fun hr => ⟨hr, by rwa [hr]⟩, fun hr => hr.1⟩

/-- A load the device model accepts. -/
theorem emulateDevice_of_load {access : DecodedAccess} {gm : Nat} {s₁ : State}
    (h : virtualMmdevLoad gm access.regPtr access.width s = (.success, s₁)) :
    emulateDevice .r access gm s =
      (.success, (resetUpperBits s₁ access.regPtr access.width access.isSigned).setMepc
        (s.hart.mepc + BitVec.ofNat 64 access.pcAdvance)) := by
  unfold DecodedAccess.regPtr at h
  unfold emulateDevice
  dsimp only
  rw [h]
  rfl

/-- A load it rejects. -/
theorem emulateDevice_of_load_rejected {access : DecodedAccess} {gm : Nat}
    {res : VirtMMAccessResult} {s₁ : State}
    (h : virtualMmdevLoad gm access.regPtr access.width s = (res, s₁)) (hres : res ≠ .success) :
    emulateDevice .r access gm s = (.tooLow, s₁) := by
  unfold DecodedAccess.regPtr at h
  unfold emulateDevice
  dsimp only
  rw [h]
  cases res with
  | success => exact absurd rfl hres
  | unknownAddr => rfl
  | badAccess => rfl

/-- A store it accepts. -/
theorem emulateDevice_of_store {access : DecodedAccess} {gm : Nat} {s₁ : State}
    (h : virtualMmdevStore gm access.regPtr access.width s = (.success, s₁)) :
    emulateDevice .w access gm s =
      (.success, s₁.setMepc (s.hart.mepc + BitVec.ofNat 64 access.pcAdvance)) := by
  unfold DecodedAccess.regPtr at h
  unfold emulateDevice
  dsimp only
  rw [h]

/-- A store it rejects. -/
theorem emulateDevice_of_store_rejected {access : DecodedAccess} {gm : Nat}
    {res : VirtMMAccessResult} {s₁ : State}
    (h : virtualMmdevStore gm access.regPtr access.width s = (res, s₁)) (hres : res ≠ .success) :
    emulateDevice .w access gm s = (.tooLow, s₁) := by
  unfold DecodedAccess.regPtr at h
  unfold emulateDevice
  dsimp only
  rw [h]
  cases res with
  | success => exact absurd rfl hres
  | unknownAddr => rfl
  | badAccess => rfl

/-- **Loads.**  Those the device model accepts are of the register map and have their effect; the
    others have none. -/
theorem emulateDevice_load (access : DecodedAccess) (gm : Nat) (s : State) :
    (DeviceAccepts .r access gm s ∧
      ∃ s', emulateDevice .r access gm s = (.success, s') ∧ LoadEffect access gm s s') ∨
    (¬ DeviceAccepts .r access gm s ∧ (∀ d v, ¬ Loads s gm access.width d v) ∧
      emulateDevice .r access gm s = (.tooLow, s)) := by
  unfold DeviceAccepts
  rcases virtualMmdevLoad_cases gm access.regPtr access.width s with
    ⟨d, v, hloads, hload⟩ | ⟨hnone, res, hres, hload⟩
  · rw [emulateDevice_of_load hload, hload]
    exact Or.inl ⟨rfl, _, rfl, loadEffect_of_loads hloads⟩
  · rw [emulateDevice_of_load_rejected hload hres, hload]
    exact Or.inr ⟨hres, hnone, rfl⟩

/-- **Stores.**  The same. -/
theorem emulateDevice_store (access : DecodedAccess) (gm : Nat) (s : State) :
    (DeviceAccepts .w access gm s ∧
      ∃ s', emulateDevice .w access gm s = (.success, s') ∧ StoreEffect access gm s s') ∨
    (¬ DeviceAccepts .w access gm s ∧
      (∀ d s', ¬ Stores s gm access.width
        (access.width.extend false (readReg s.host.activeRegs access.reg)) d s') ∧
      emulateDevice .w access gm s = (.tooLow, s)) := by
  have hcases := virtualMmdevStore_cases gm access.regPtr access.width s
  rw [readRegLow_regPtr] at hcases
  unfold DeviceAccepts
  rcases hcases with ⟨d, s₁, hstores, hstore⟩ | ⟨hnone, res, hres, hstore⟩
  · rw [emulateDevice_of_store hstore, hstore]
    refine Or.inl ⟨rfl, _, rfl, d, s₁, hstores, ?_, rfl⟩
    exact (DeviceRegister.receive_frame hstores.2.2).1
  · rw [emulateDevice_of_store_rejected hstore hres, hstore]
    exact Or.inr ⟨hres, hnone, rfl⟩

/-- **Accesses.**  What an emulated access can do: it has the effect of a load or of a store, or
    none. -/
theorem emulateDevice_cases (acc : MempermIndex) (access : DecodedAccess) (gm : Nat) (s : State) :
    (∃ s', emulateDevice acc access gm s = (.success, s') ∧
      (acc = .r ∧ LoadEffect access gm s s' ∨ acc = .w ∧ StoreEffect access gm s s')) ∨
    emulateDevice acc access gm s = (.tooLow, s) := by
  cases acc with
  | r =>
    rcases emulateDevice_load access gm s with ⟨-, s', hdev, heffect⟩ | ⟨-, -, hdev⟩
    · exact Or.inl ⟨s', hdev, Or.inl ⟨rfl, heffect⟩⟩
    · exact Or.inr hdev
  | w =>
    rcases emulateDevice_store access gm s with ⟨-, s', hdev, heffect⟩ | ⟨-, -, hdev⟩
    · exact Or.inl ⟨s', hdev, Or.inr ⟨rfl, heffect⟩⟩
    · exact Or.inr hdev
  | _ => exact Or.inr rfl

end RiscvHypervisor
