import RiscvHypervisor.Lib.Rv64Line
import RiscvHypervisor.Model.Base

namespace RiscvHypervisor

open ByteMem Rv64Line Rv64Line.Abi

/-!
# Model — entering and leaving the hypervisor

`hypenterleave.S`, with the layout of `HostThreadData` that it numbers its slots by.  The trap
path is `excEntry`, the call of `exception`, and `enterGuest`, which falls through to `mret`.
What the C code does in between is any change of the machine, so that it is a second state here
and not a function.
-/

/-! ### Layout of the host thread context -/

/-- `registers.cc`: the number and the name of every general-purpose register. -/
def registers : List (Nat × String) :=
  [(1, "ra"), (2, "sp"), (3, "gp"), (4, "tp"), (5, "t0"), (6, "t1"), (7, "t2"), (8, "s0"),
   (9, "s1"), (10, "a0"), (11, "a1"), (12, "a2"), (13, "a3"), (14, "a4"), (15, "a5"),
   (16, "a6"), (17, "a7"), (18, "s2"), (19, "s3"), (20, "s4"), (21, "s5"), (22, "s6"),
   (23, "s7"), (24, "s8"), (25, "s9"), (26, "s10"), (27, "s11"), (28, "t3"), (29, "t4"),
   (30, "t5"), (31, "t6")]

/-- Size of `SavedRegisters`, a union of one field for each register and `x_plus_one[31]`. -/
def sizeofSavedRegisters : Nat := max (8 * registers.length) (8 * 31)

/-- The fields of `HostThreadData` after `active_regs`; none of them needs padding.  A build with
    `USE_STACK_TRACE` has one more pointer behind them. -/
def exceptionHandlerStackOffset : Nat := sizeofSavedRegisters
def currentGuestOffset : Nat := exceptionHandlerStackOffset + 8
def sizeofHostThreadData : Nat := currentGuestOffset + 8

/-- The `int` at `a`. -/
def loadInt (m : Mem) (a : Nat) : Int := (BitVec.ofNat 32 (load m a 4)).toInt

/-- The host thread context at `ctx`. -/
def hostThreadAt (m : Mem) (ctx : Nat) : HostThreadData where
  activeRegs n := if n < 31 then loadDouble m (ctx + 8 * n) else 0
  exceptionHandlerStack := load m (ctx + exceptionHandlerStackOffset) 8
  currentGuest := ⟨loadInt m (ctx + currentGuestOffset), loadInt m (ctx + currentGuestOffset + 4)⟩

/-! ### The code -/

/-- `_exc_entry`, up to the call of `exception`. -/
def excEntry : List Instr :=
  [ .csrrw sp mscratch sp, .sd ra 0 sp, .sd gp 16 sp, .sd tp 24 sp, .sd t0 32 sp, .sd t1 40 sp,
    .sd t2 48 sp, .sd s0 56 sp, .sd s1 64 sp, .sd a0 72 sp, .sd a1 80 sp, .sd a2 88 sp,
    .sd a3 96 sp, .sd a4 104 sp, .sd a5 112 sp, .sd a6 120 sp, .sd a7 128 sp, .sd s2 136 sp,
    .sd s3 144 sp, .sd s4 152 sp, .sd s5 160 sp, .sd s6 168 sp, .sd s7 176 sp, .sd s8 184 sp,
    .sd s9 192 sp, .sd s10 200 sp, .sd s11 208 sp, .sd t3 216 sp, .sd t4 224 sp, .sd t5 232 sp,
    .sd t6 240 sp, .csrr t0 mscratch, .sd t0 8 sp, .csrw mscratch sp, .ld sp 248 sp ]

/-- `enter_guest`, up to `mret`. -/
def enterGuest : List Instr :=
  [ .csrr sp mscratch, .ld ra 0 sp, .ld gp 16 sp, .ld tp 24 sp, .ld t0 32 sp, .ld t1 40 sp,
    .ld t2 48 sp, .ld s0 56 sp, .ld s1 64 sp, .ld a0 72 sp, .ld a1 80 sp, .ld a2 88 sp,
    .ld a3 96 sp, .ld a4 104 sp, .ld a5 112 sp, .ld a6 120 sp, .ld a7 128 sp, .ld s2 136 sp,
    .ld s3 144 sp, .ld s4 152 sp, .ld s5 160 sp, .ld s6 168 sp, .ld s7 176 sp, .ld s8 184 sp,
    .ld s9 192 sp, .ld s10 200 sp, .ld s11 208 sp, .ld t3 216 sp, .ld t4 224 sp, .ld t5 232 sp,
    .ld t6 240 sp, .ld sp 8 sp ]

/-- The state in which `exception` is called by the trap code, which `ret` follows. -/
def exceptionCall (ret : Word) (s : Machine) : Machine := (run excEntry s).set ra ret

/-- The registers of the guest, `x1` to `x31`, when `s` is the machine at the trap or at the
    `mret`. -/
def guestRegs (s : Machine) : SavedRegisters :=
  fun n => if h : n < 31 then s.x ⟨n + 1, by omega⟩ else 0

end RiscvHypervisor
