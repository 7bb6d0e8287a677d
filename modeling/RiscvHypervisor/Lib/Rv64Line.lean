import RiscvHypervisor.Lib.Memory
import Mathlib.Logic.Function.Basic
import Mathlib.Data.Fin.Basic

namespace Rv64Line

open ByteMem

/-!
# Library — straight lines of RV64 assembly

Code that saves and restores registers has no branches: it moves CSRs and loads and stores
doublewords at hand-numbered offsets of one base register.  `run` executes such a line, and two
theorems say what its two characteristic parts do, over any table of registers and offsets.

* `run_saves` — a block of stores through one base fills every slot of the table with its
  register and touches no other byte, provided the slots do not overlap.
* `run_restores` — a block of loads through one base gives every register of the table its slot
  and changes no other, provided the base itself is not among them.
-/

/-! ### Machine -/

/-- A register, by its number. -/
abbrev Reg := Fin 32

/-- The registers, the CSRs and the memory.  CSRs hold whatever was written to them. -/
structure Machine where
  x : Reg → BitVec 64
  csr : BitVec 12 → BitVec 64
  mem : Mem

/-- Read a register; `x0` reads as zero. -/
def Machine.get (s : Machine) (r : Reg) : BitVec 64 := if r = 0 then 0 else s.x r

/-- Write a register; a write to `x0` is lost. -/
def Machine.set (s : Machine) (r : Reg) (v : BitVec 64) : Machine :=
  if r = 0 then s else { s with x := Function.update s.x r v }

/-- The doubleword at `a`. -/
def loadDouble (m : Mem) (a : Nat) : BitVec 64 := BitVec.ofNat 64 (load m a 8)

/-- Store a doubleword at `a`. -/
def storeDouble (m : Mem) (a : Nat) (v : BitVec 64) : Mem := store m a 8 v.toNat

/-- The address `imm(rs1)` when `rs1` holds `base`. -/
def slotAddr (base : BitVec 64) (imm : BitVec 12) : Nat := (base + imm.signExtend 64).toNat

inductive Instr where
  | csrrw (rd : Reg) (csr : BitVec 12) (rs1 : Reg)
  | csrr (rd : Reg) (csr : BitVec 12)
  | csrw (csr : BitVec 12) (rs1 : Reg)
  | sd (rs2 : Reg) (imm : BitVec 12) (rs1 : Reg)
  | ld (rd : Reg) (imm : BitVec 12) (rs1 : Reg)
deriving DecidableEq, Repr

/-- One instruction. -/
def exec (s : Machine) : Instr → Machine
  | .csrrw rd csr rs1 =>
    { s.set rd (s.csr csr) with csr := Function.update s.csr csr (s.get rs1) }
  | .csrr rd csr      => s.set rd (s.csr csr)
  | .csrw csr rs1     => { s with csr := Function.update s.csr csr (s.get rs1) }
  | .sd rs2 imm rs1   => { s with mem := storeDouble s.mem (slotAddr (s.get rs1) imm) (s.get rs2) }
  | .ld rd imm rs1    => s.set rd (loadDouble s.mem (slotAddr (s.get rs1) imm))

/-- A line of instructions. -/
def run (line : List Instr) (s : Machine) : Machine := line.foldl exec s

/-! ### Names of the ABI -/

namespace Abi

abbrev ra : Reg := 1
abbrev sp : Reg := 2
abbrev gp : Reg := 3
abbrev tp : Reg := 4
abbrev t0 : Reg := 5
abbrev t1 : Reg := 6
abbrev t2 : Reg := 7
abbrev s0 : Reg := 8
abbrev s1 : Reg := 9
abbrev a0 : Reg := 10
abbrev a1 : Reg := 11
abbrev a2 : Reg := 12
abbrev a3 : Reg := 13
abbrev a4 : Reg := 14
abbrev a5 : Reg := 15
abbrev a6 : Reg := 16
abbrev a7 : Reg := 17
abbrev s2 : Reg := 18
abbrev s3 : Reg := 19
abbrev s4 : Reg := 20
abbrev s5 : Reg := 21
abbrev s6 : Reg := 22
abbrev s7 : Reg := 23
abbrev s8 : Reg := 24
abbrev s9 : Reg := 25
abbrev s10 : Reg := 26
abbrev s11 : Reg := 27
abbrev t3 : Reg := 28
abbrev t4 : Reg := 29
abbrev t5 : Reg := 30
abbrev t6 : Reg := 31

/-- The scratch register for machine-mode trap handlers. -/
abbrev mscratch : BitVec 12 := 0x340

end Abi

variable {s s' : Machine} {r q base : Reg} {v : BitVec 64} {m : Mem} {a b : Nat}

/-- Lines one after the other. -/
theorem run_append (l l' : List Instr) (s : Machine) : run (l ++ l') s = run l' (run l s) :=
  List.foldl_append

/-! ### Registers and doublewords -/

@[simp] theorem Machine.csr_set : (s.set r v).csr = s.csr := by
  unfold Machine.set
  split <;> rfl

@[simp] theorem Machine.mem_set : (s.set r v).mem = s.mem := by
  unfold Machine.set
  split <;> rfl

/-- Every register but `x0` reads as it is, -/
theorem Machine.get_of_ne_zero (hr : r ≠ 0) : s.get r = s.x r := if_neg hr

/-- holds what was written to it, -/
theorem Machine.x_set_self (hr : r ≠ 0) : (s.set r v).x r = v := by
  rw [Machine.set, if_neg hr]
  exact Function.update_self ..

/-- and is not changed by a write to another, -/
theorem Machine.x_set_of_ne (hq : q ≠ r) : (s.set r v).x q = s.x q := by
  unfold Machine.set
  split
  · rfl
  · exact Function.update_of_ne hq ..

/-- however it is read. -/
theorem Machine.get_set_of_ne (hq : q ≠ r) : (s.set r v).get q = s.get q := by
  unfold Machine.get
  rw [Machine.x_set_of_ne hq]

/-- A doubleword just stored is loaded, -/
theorem loadDouble_storeDouble_same : loadDouble (storeDouble m a v) a = v := by
  unfold loadDouble storeDouble
  rw [load_store_same]
  have hv : v.toNat % 256 ^ 8 = v.toNat := Nat.mod_eq_of_lt (by have := v.isLt; omega)
  rw [hv, BitVec.ofNat_toNat, BitVec.setWidth_eq]

/-- and one that lies apart is not touched. -/
theorem loadDouble_storeDouble_disjoint (h : b + 8 ≤ a ∨ a + 8 ≤ b) :
    loadDouble (storeDouble m a v) b = loadDouble m b := by
  unfold loadDouble storeDouble
  rw [load_store_disjoint h]

/-- A load depends on eight bytes. -/
theorem loadDouble_congr {m' : Mem} (h : ∀ x, a ≤ x → x < a + 8 → m x = m' x) :
    loadDouble m a = loadDouble m' a := by
  unfold loadDouble
  rw [load_congr h]

/-- A non-negative offset that does not wrap around the address space. -/
theorem slotAddr_eq {p : BitVec 64} {imm : BitVec 12} (himm : imm.toNat < 2048)
    (hp : p.toNat + imm.toNat < 2 ^ 64) : slotAddr p imm = p.toNat + imm.toNat := by
  have hmsb : imm.msb = false := by
    rw [BitVec.msb_eq_decide]
    exact decide_eq_false (by omega)
  unfold slotAddr
  rw [BitVec.signExtend_eq_setWidth_of_msb_false hmsb, BitVec.toNat_add, BitVec.toNat_setWidth]
  rw [Nat.mod_eq_of_lt (show imm.toNat < 2 ^ 64 by omega)]
  exact Nat.mod_eq_of_lt hp

/-! ### Saving -/

/-- Store every register of the table at its offset. -/
def saves (base : Reg) (table : List (Reg × BitVec 12)) : List Instr :=
  table.map (fun p => .sd p.1 p.2 base)

/-- `s'` is `s` after every register of the table was saved below `base`. -/
structure Saved (base : Reg) (table : List (Reg × BitVec 12)) (s s' : Machine) : Prop where
  x : s'.x = s.x
  csr : s'.csr = s.csr
  slot : ∀ p ∈ table, loadDouble s'.mem (slotAddr (s.get base) p.2) = s.get p.1
  frame : ∀ a, (∀ p ∈ table, a < slotAddr (s.get base) p.2 ∨ slotAddr (s.get base) p.2 + 8 ≤ a) →
    s'.mem a = s.mem a

/-- The slots of a table do not overlap. -/
def Apart (base : BitVec 64) (table : List (Reg × BitVec 12)) : Prop :=
  table.Pairwise (fun p q => slotAddr base p.2 + 8 ≤ slotAddr base q.2 ∨
    slotAddr base q.2 + 8 ≤ slotAddr base p.2)

/-- **A block of stores.** -/
theorem run_saves (s : Machine) (table : List (Reg × BitVec 12))
    (hapart : Apart (s.get base) table) : Saved base table s (run (saves base table) s) := by
  induction table generalizing s with
  | nil => exact ⟨rfl, rfl, fun _ hp => absurd hp List.not_mem_nil, fun _ _ => rfl⟩
  | cons p table ih =>
    obtain ⟨hfirst, hrest⟩ := List.pairwise_cons.mp hapart
    -- a store changes no register, so the slots are where they were
    have hget : ∀ r, (exec s (.sd p.1 p.2 base)).get r = s.get r := fun _ => rfl
    have hsaved := ih (exec s (.sd p.1 p.2 base)) (by rw [hget]; exact hrest)
    obtain ⟨hx, hcsr, hslot, hframe⟩ := hsaved
    rw [hget] at hslot hframe
    refine ⟨hx, hcsr, ?_, ?_⟩
    · intro q hq
      rcases List.mem_cons.mp hq with rfl | hq
      · have hkept : loadDouble (run (saves base table) (exec s (.sd q.1 q.2 base))).mem
            (slotAddr (s.get base) q.2) =
              loadDouble (exec s (.sd q.1 q.2 base)).mem (slotAddr (s.get base) q.2) := by
          refine loadDouble_congr (fun a hlo hhi => hframe a ?_)
          intro p hp
          have hp := hfirst p hp
          omega
        exact hkept.trans loadDouble_storeDouble_same
      · exact hslot q hq
    · intro a ha
      have hhead := ha p List.mem_cons_self
      exact (hframe a (fun q hq => ha q (List.mem_cons_of_mem p hq))).trans
        (store_apply_of_disjoint hhead)

/-! ### Restoring -/

/-- Load every register of the table from its offset. -/
def restores (base : Reg) (table : List (Reg × BitVec 12)) : List Instr :=
  table.map (fun p => .ld p.1 p.2 base)

/-- `s'` is `s` after every register of the table was loaded from below `base`. -/
structure Restored (base : Reg) (table : List (Reg × BitVec 12)) (s s' : Machine) : Prop where
  loaded : ∀ p ∈ table, s'.x p.1 = loadDouble s.mem (slotAddr (s.get base) p.2)
  kept : ∀ r, (∀ p ∈ table, r ≠ p.1) → s'.x r = s.x r
  csr : s'.csr = s.csr
  mem : s'.mem = s.mem

/-- **A block of loads.** -/
theorem run_restores (s : Machine) (table : List (Reg × BitVec 12))
    (hdistinct : table.Pairwise (fun p q => p.1 ≠ q.1))
    (hbase : ∀ p ∈ table, p.1 ≠ 0 ∧ p.1 ≠ base) :
    Restored base table s (run (restores base table) s) := by
  induction table generalizing s with
  | nil => exact ⟨fun _ hp => absurd hp List.not_mem_nil, fun _ _ => rfl, rfl, rfl⟩
  | cons p table ih =>
    obtain ⟨hfirst, hrest⟩ := List.pairwise_cons.mp hdistinct
    obtain ⟨hp0, hpbase⟩ := hbase p List.mem_cons_self
    have hrestored := ih (exec s (.ld p.1 p.2 base)) hrest
      (fun q hq => hbase q (List.mem_cons_of_mem p hq))
    obtain ⟨hloaded, hkept, hcsr, hmem⟩ := hrestored
    -- the base is not among the registers loaded, so the slots are where they were
    have hget : (exec s (.ld p.1 p.2 base)).get base = s.get base :=
      Machine.get_set_of_ne hpbase.symm
    have hexecMem : (exec s (.ld p.1 p.2 base)).mem = s.mem := Machine.mem_set
    rw [hget, hexecMem] at hloaded
    refine ⟨?_, ?_, hcsr.trans Machine.csr_set, hmem.trans hexecMem⟩
    · intro q hq
      rcases List.mem_cons.mp hq with rfl | hq
      · exact (hkept q.1 hfirst).trans (Machine.x_set_self hp0)
      · exact hloaded q hq
    · intro r hr
      exact (hkept r (fun q hq => hr q (List.mem_cons_of_mem p hq))).trans
        (Machine.x_set_of_ne (hr p List.mem_cons_self))

end Rv64Line
