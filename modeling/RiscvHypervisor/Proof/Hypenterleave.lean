import RiscvHypervisor.Model.Hypenterleave
import RiscvHypervisor.Model.System
import Mathlib.Data.List.FinRange

namespace RiscvHypervisor

open ByteMem Rv64Line Rv64Line.Abi

/-!
# Traps are transparent to the guest's registers

The trap code saves and restores thirty registers at offsets written by hand, and moves the
guest's `sp` through `mscratch`.  The offsets of both directions are one table (`slots`), the
slot of `x(n+1)` being `x_plus_one[n]` (`excEntry_eq`, `enterGuest_eq`), so that each direction
is a block of `Rv64Line` and a few instructions for `sp`.

* `run_excEntry` — the state in which `exception` is called.
* `run_enterGuest` — the state at the `mret`, from any state with the context in `mscratch`.
* `trap_transparent` — both together, around whatever the C code does.
* `exceptionCall_guestRun` — the entry code implements the step `run` of the system's model.
-/

/-- The offset of `x_plus_one[r - 1]`. -/
def slotOffset (r : Reg) : BitVec 12 := BitVec.ofNat 12 (8 * (r.val - 1))

/-- The registers saved and restored through `sp`: all but `x0` and `sp` itself. -/
def savedRegs : List Reg := ra :: (List.finRange 32).drop 3

/-- The table of both directions. -/
def slots : List (Reg × BitVec 12) := savedRegs.map (fun r => (r, slotOffset r))

/-- The instructions for `sp`: the guest's goes from `mscratch` to its slot, the context back to
    `mscratch`, and the stack of the handler into `sp`. -/
def saveSp : List Instr :=
  [.csrr t0 mscratch, .sd t0 (slotOffset sp) sp, .csrw mscratch sp, .ld sp 248 sp]

/-- The entry code follows the table. -/
theorem excEntry_eq : excEntry = [.csrrw sp mscratch sp] ++ saves sp slots ++ saveSp := by decide

/-- And so does the exit code. -/
theorem enterGuest_eq : enterGuest =
    [.csrr sp mscratch] ++ restores sp slots ++ [.ld sp (slotOffset sp) sp] := by
  decide

/-! ### The slots -/

/-- `registers.cc` declares the registers in the order of their numbers, and all of them: a field
    of `SavedRegisters` overlays the element of `x_plus_one` that the trap code saves to. -/
theorem registers_order : registers.map Prod.fst = List.range' 1 31 := by decide

/-- The registers of the table are all but `x0` and `sp`, -/
theorem mem_savedRegs {r : Reg} : r ∈ savedRegs ↔ r ≠ 0 ∧ r ≠ sp := by
  revert r
  decide

/-- in order. -/
theorem savedRegs_sorted : savedRegs.Pairwise (· < ·) := by decide

/-- What the address of a context promises: the object lies in the address space. -/
def Fits (ctx : Word) : Prop := ctx.toNat + sizeofHostThreadData ≤ 2 ^ 64

/-- 31 doublewords, -/
theorem sizeofSavedRegisters_eq : sizeofSavedRegisters = 248 := by decide

/-- and two more. -/
theorem sizeofHostThreadData_eq : sizeofHostThreadData = 264 := by decide

variable {ctx : Word} {s : Machine} {r : Reg}

/-- The slot of `r` is the element `r - 1` of `x_plus_one`. -/
theorem slotAddr_slotOffset (hfits : Fits ctx) (r : Reg) :
    slotAddr ctx (slotOffset r) = ctx.toNat + 8 * (r.val - 1) := by
  unfold Fits at hfits
  rw [sizeofHostThreadData_eq] at hfits
  have hr := r.isLt
  have hoffset : (slotOffset r).toNat = 8 * (r.val - 1) := by
    rw [slotOffset, BitVec.toNat_ofNat]
    exact Nat.mod_eq_of_lt (by omega)
  rw [slotAddr_eq (by omega) (by omega), hoffset]

/-- The slots of the table do not overlap. -/
theorem slots_apart (hfits : Fits ctx) : Apart ctx slots := by
  refine List.pairwise_map.mpr (savedRegs_sorted.imp_of_mem ?_)
  intro q r hq _ hlt
  have hq0 := (mem_savedRegs.mp hq).1
  rw [slotAddr_slotOffset hfits, slotAddr_slotOffset hfits]
  have : q.val ≠ 0 := fun h => hq0 (Fin.ext h)
  have : q.val < r.val := hlt
  omega

/-- The slot of a register, as a field of the context. -/
theorem activeRegs_hostThreadAt (m : Mem) (a : Nat) (hr : r ≠ 0) :
    (hostThreadAt m a).activeRegs (r.val - 1) = loadDouble m (a + 8 * (r.val - 1)) := by
  have hpos : r.val ≠ 0 := fun h => hr (Fin.ext h)
  have hlt := r.isLt
  exact if_pos (by omega)

/-- A register of the guest, as an element of `x_plus_one`. -/
theorem guestRegs_apply (s : Machine) (hr : r ≠ 0) : guestRegs s (r.val - 1) = s.x r := by
  have hpos : r.val ≠ 0 := fun h => hr (Fin.ext h)
  have hlt := r.isLt
  rw [guestRegs, dif_pos (by omega)]
  congr 1
  apply Fin.ext
  exact Nat.sub_add_cancel (by omega)

/-- Past the end of the array both sides read zero: -/
theorem guestRegs_of_ge (s : Machine) {n : Nat} (hn : 31 ≤ n) : guestRegs s n = 0 :=
  dif_neg (Nat.not_lt.mpr hn)

/-- the registers of the machine and those in its context. -/
theorem activeRegs_of_ge (m : Mem) (a : Nat) {n : Nat} (hn : 31 ≤ n) :
    (hostThreadAt m a).activeRegs n = 0 :=
  if_neg (Nat.not_lt.mpr hn)

/-- Register files agree when they agree at the registers. -/
theorem savedRegisters_ext {f g : SavedRegisters}
    (hregs : ∀ r : Reg, r ≠ 0 → f (r.val - 1) = g (r.val - 1)) (hrest : ∀ n ≥ 31, f n = g n) :
    f = g := by
  funext n
  by_cases hn : n < 31
  · have hreg := hregs ⟨n + 1, by omega⟩ (fun h => absurd (congrArg Fin.val h) (Nat.succ_ne_zero n))
    exact hreg
  · exact hrest n (by omega)

/-- A field of the context depends only on the bytes at and after its offset. -/
theorem hostThreadAt_congr {m m' : Mem} {a : Nat}
    (h : ∀ x, a + sizeofSavedRegisters ≤ x → m' x = m x) :
    hostThreadAt m' a = { hostThreadAt m a with activeRegs := (hostThreadAt m' a).activeRegs } := by
  have hload : ∀ b n, a + sizeofSavedRegisters ≤ b → load m' b n = load m b n := by
    intro b n hb
    exact load_congr (fun x hlo _ => h x (Nat.le_trans hb hlo))
  unfold hostThreadAt loadInt currentGuestOffset exceptionHandlerStackOffset
  simp only [HostThreadData.mk.injEq, true_and]
  rw [hload _ 8 (by omega), hload _ 4 (by omega), hload _ 4 (by omega)]
  exact ⟨rfl, rfl⟩

/-! ### Entry -/

/-- The three instructions that exchange `sp` and `mscratch`. -/
theorem run_saveSp (s : Machine) :
    (run saveSp s).csr = Function.update s.csr mscratch (s.x sp) ∧
    (run saveSp s).mem =
      storeDouble s.mem (slotAddr (s.x sp) (slotOffset sp)) (s.csr mscratch) ∧
    (run saveSp s).x sp = loadDouble (run saveSp s).mem (slotAddr (s.x sp) 248) :=
  ⟨rfl, rfl, rfl⟩

/-- The swap at the very start: `sp` holds the context and `mscratch` the guest's `sp`. -/
def swapped (s : Machine) : Machine :=
  { s with x := Function.update s.x sp (s.csr mscratch),
           csr := Function.update s.csr mscratch (s.x sp) }

/-- They leave the other registers alone. -/
theorem get_swapped (hsp : r ≠ sp) (hr : r ≠ 0) : (swapped s).get r = s.x r := by
  rw [Machine.get_of_ne_zero hr]
  exact Function.update_of_ne hsp ..

/-- What holds of the state `c` after the swap and the thirty stores. -/
structure SavedAllButSp (s c : Machine) : Prop where
  base : c.x sp = s.csr mscratch
  csr : c.csr = Function.update s.csr mscratch (s.x sp)
  saved : ∀ r, r ≠ 0 → r ≠ sp →
    loadDouble c.mem ((s.csr mscratch).toNat + 8 * (r.val - 1)) = s.x r
  frame : ∀ a, a < (s.csr mscratch).toNat ∨ (s.csr mscratch).toNat + sizeofSavedRegisters ≤ a →
    c.mem a = s.mem a

/-- Then every other register is in its slot. -/
theorem run_saves_swapped (s : Machine) (hfits : Fits (s.csr mscratch)) :
    SavedAllButSp s (run (saves sp slots) (swapped s)) := by
  have hslot := slotAddr_slotOffset hfits
  have hbase : (swapped s).get sp = s.csr mscratch := rfl
  have hsaves := run_saves (swapped s) slots (by rw [hbase]; exact slots_apart hfits)
  generalize run (saves sp slots) (swapped s) = c at hsaves
  obtain ⟨hx, hcsr, hload, hframe⟩ := hsaves
  rw [hbase] at hload hframe
  refine ⟨congrFun hx sp, hcsr, ?_, ?_⟩
  · intro r hr hrsp
    have hmem := hload (r, slotOffset r) (List.mem_map_of_mem (mem_savedRegs.mpr ⟨hr, hrsp⟩))
    rwa [hslot, get_swapped hrsp hr] at hmem
  · intro a ha
    rw [sizeofSavedRegisters_eq] at ha
    apply hframe
    intro p hp
    obtain ⟨q, _, rfl⟩ := List.mem_map.mp hp
    have hq := q.isLt
    rw [hslot]
    omega

/-- What holds of the state `c` in which the entry code, started in `s`, calls `exception`. -/
structure AtException (s c : Machine) : Prop where
  csr : c.csr = s.csr
  saved : ∀ r, r ≠ 0 → loadDouble c.mem ((s.csr mscratch).toNat + 8 * (r.val - 1)) = s.x r
  stack : c.x sp = loadDouble s.mem ((s.csr mscratch).toNat + exceptionHandlerStackOffset)
  frame : ∀ a, a < (s.csr mscratch).toNat ∨ (s.csr mscratch).toNat + sizeofSavedRegisters ≤ a →
    c.mem a = s.mem a

/-- **Entry.**  Every register of the guest is in its slot and nothing else of the memory has
    changed, the context is back in `mscratch`, and `sp` is the stack of the handler. -/
theorem run_excEntry (s : Machine) (hfits : Fits (s.csr mscratch)) :
    AtException s (run excEntry s) := by
  have hswap : run [.csrrw sp mscratch sp] s = swapped s := rfl
  have hsaves := run_saves_swapped s hfits
  rw [excEntry_eq, run_append, run_append, hswap]
  generalize run (saves sp slots) (swapped s) = c2 at hsaves
  obtain ⟨hbase, hcsr2, hsaved2, hframe2⟩ := hsaves
  obtain ⟨hcsr, hmem, hsp⟩ := run_saveSp c2
  generalize run saveSp c2 = c at hcsr hmem hsp
  have hguestSp : c2.csr mscratch = s.x sp := by rw [hcsr2, Function.update_self]
  rw [hbase] at hcsr hmem hsp
  rw [hguestSp, slotAddr_slotOffset hfits] at hmem
  have hval : (sp : Reg).val = 2 := rfl
  have hframe : ∀ a, a < (s.csr mscratch).toNat ∨
      (s.csr mscratch).toNat + sizeofSavedRegisters ≤ a → c.mem a = s.mem a := by
    intro a ha
    have hout := ha
    rw [sizeofSavedRegisters_eq] at hout
    rw [hmem]
    exact (store_apply_of_disjoint (by omega)).trans (hframe2 a ha)
  refine ⟨?_, ?_, ?_, hframe⟩
  · rw [hcsr, hcsr2, Function.update_idem, Function.update_eq_self]
  · intro r hr
    rw [hmem]
    by_cases hrsp : r = sp
    · rw [hrsp]
      exact loadDouble_storeDouble_same
    · have hne : r.val ≠ 2 := fun h => hrsp (Fin.ext h)
      have hpos : r.val ≠ 0 := fun h => hr (Fin.ext h)
      rw [loadDouble_storeDouble_disjoint (by omega)]
      exact hsaved2 r hr hrsp
  · have hstack : slotAddr (s.csr mscratch) 248 =
        (s.csr mscratch).toNat + exceptionHandlerStackOffset := by
      have hend := hfits
      unfold Fits at hend
      rw [sizeofHostThreadData_eq] at hend
      exact slotAddr_eq (by decide) (show _ + 248 < 2 ^ 64 by omega)
    rw [hsp, hstack]
    exact loadDouble_congr (fun a hlo _ => hframe a (Or.inr hlo))

/-! ### Exit -/

/-- **Exit.**  From any state with the context in `mscratch`, every register of the guest is
    loaded from its slot, and memory and CSRs are left alone. -/
theorem run_enterGuest (s : Machine) (hfits : Fits (s.csr mscratch)) :
    (∀ r, r ≠ 0 → (run enterGuest s).x r =
      loadDouble s.mem ((s.csr mscratch).toNat + 8 * (r.val - 1))) ∧
    (run enterGuest s).csr = s.csr ∧ (run enterGuest s).mem = s.mem := by
  have hslot := slotAddr_slotOffset hfits
  have hread : run [.csrr sp mscratch] s = s.set sp (s.csr mscratch) := rfl
  have hbase : (s.set sp (s.csr mscratch)).x sp = s.csr mscratch :=
    Machine.x_set_self (by decide)
  have hdistinct : slots.Pairwise (fun p q => p.1 ≠ q.1) :=
    List.pairwise_map.mpr (savedRegs_sorted.imp (fun hlt => Fin.ne_of_lt hlt))
  have hnotBase : ∀ p ∈ slots, p.1 ≠ 0 ∧ p.1 ≠ sp := by
    intro p hp
    obtain ⟨r, hr, rfl⟩ := List.mem_map.mp hp
    exact mem_savedRegs.mp hr
  have hrestored := run_restores (s.set sp (s.csr mscratch)) slots hdistinct hnotBase
  rw [enterGuest_eq, run_append, run_append, hread]
  generalize run (restores sp slots) (s.set sp (s.csr mscratch)) = s2 at hrestored
  obtain ⟨hloaded, hkept, hcsr, hmem⟩ := hrestored
  rw [Machine.get_of_ne_zero (by decide), hbase] at hloaded
  rw [Machine.mem_set] at hloaded hmem
  rw [Machine.csr_set] at hcsr
  have hctx : s2.x sp = s.csr mscratch :=
    (hkept sp (fun p hp => (hnotBase p hp).2.symm)).trans hbase
  -- the last load is that of `sp`, while it still holds the context
  have hlast : run [.ld sp (slotOffset sp) sp] s2 =
      s2.set sp (loadDouble s2.mem (slotAddr (s2.get sp) (slotOffset sp))) := rfl
  rw [hlast, Machine.get_of_ne_zero (by decide), Machine.csr_set, Machine.mem_set]
  refine ⟨?_, hcsr, hmem⟩
  intro r hr
  by_cases hrsp : r = sp
  · rw [hrsp, Machine.x_set_self (by decide), hctx, hslot, hmem]
  · have hmem2 := hloaded (r, slotOffset r) (List.mem_map_of_mem (mem_savedRegs.mpr ⟨hr, hrsp⟩))
    rw [Machine.x_set_of_ne hrsp, hmem2, hslot]

/-! ### The trap as a whole -/

/-- The call of `exception` only adds the return address. -/
theorem AtException.call {c : Machine} (h : AtException s c) (ret : Word) :
    AtException s (c.set ra ret) := by
  refine ⟨Machine.csr_set.trans h.csr, ?_, ?_, ?_⟩
  · rw [Machine.mem_set]
    exact h.saved
  · exact (Machine.x_set_of_ne (by decide)).trans h.stack
  · rw [Machine.mem_set]
    exact h.frame

/-- The call of the C code changes none of this. -/
theorem atException_exceptionCall (s : Machine) (ret : Word) (hfits : Fits (s.csr mscratch)) :
    AtException s (exceptionCall ret s) :=
  (run_excEntry s hfits).call ret

/-- The context that `exception` finds is the one before the trap, with the registers of the
    guest in it. -/
theorem AtException.hostThreadAt_eq {c : Machine} (h : AtException s c) :
    hostThreadAt c.mem (s.csr mscratch).toNat =
      { hostThreadAt s.mem (s.csr mscratch).toNat with activeRegs := guestRegs s } := by
  have hregs : (hostThreadAt c.mem (s.csr mscratch).toNat).activeRegs = guestRegs s := by
    refine savedRegisters_ext ?_ ?_
    · intro r hr
      rw [activeRegs_hostThreadAt _ _ hr, guestRegs_apply s hr]
      exact h.saved r hr
    · intro n hn
      rw [activeRegs_of_ge _ _ hn, guestRegs_of_ge s hn]
  rw [hostThreadAt_congr (fun x hx => h.frame x (Or.inr hx)), hregs]

/-- The registers with which the guest goes on are the registers of the context. -/
theorem guestRegs_enterGuest (s : Machine) (hfits : Fits (s.csr mscratch)) :
    guestRegs (run enterGuest s) = (hostThreadAt s.mem (s.csr mscratch).toNat).activeRegs := by
  refine savedRegisters_ext ?_ ?_
  · intro r hr
    rw [activeRegs_hostThreadAt _ _ hr, guestRegs_apply _ hr]
    exact (run_enterGuest s hfits).1 r hr
  · intro n hn
    rw [activeRegs_of_ge _ _ hn, guestRegs_of_ge _ hn]

/-- **The step `run`.**  When the context of a system's state lies at `mscratch` and the guest
    has run up to a trap, the entry code makes the context that of the state after the step. -/
theorem exceptionCall_guestRun (st : State) (pc : Word) (s : Machine) (ret : Word)
    (hfits : Fits (s.csr mscratch))
    (hhost : hostThreadAt s.mem (s.csr mscratch).toNat = st.host) :
    hostThreadAt (exceptionCall ret s).mem (s.csr mscratch).toNat =
      (st.guestRun (guestRegs s) pc).host := by
  rw [(atException_exceptionCall s ret hfits).hostThreadAt_eq, hhost]
  rfl

/-- **Traps are transparent.**  At the call of `exception` element `n - 1` of `x_plus_one` is
    register `xn` of the guest, for `n` in `1..31`, the rest of the context is as it was,
    `mscratch` holds the context again and `sp` is `exception_handler_stack`.  In whatever state
    the C code leaves the machine, as long as `mscratch` is kept, at the `mret` every `xn` is
    element `n - 1` of `x_plus_one`; if that code changed only the element of one register, then
    every other register is what it was at the trap. -/
theorem trap_transparent (s after : Machine) (ret : Word) (hfits : Fits (s.csr mscratch))
    (hkeep : after.csr mscratch = (exceptionCall ret s).csr mscratch) :
    let ctx := (s.csr mscratch).toNat
    let call := exceptionCall ret s
    let back := run enterGuest after
    (∀ n : Reg, n ≠ 0 → (hostThreadAt call.mem ctx).activeRegs (n.val - 1) = s.x n) ∧
    hostThreadAt call.mem ctx = { hostThreadAt s.mem ctx with activeRegs := guestRegs s } ∧
    call.csr mscratch = s.csr mscratch ∧
    (call.x sp).toNat = (hostThreadAt call.mem ctx).exceptionHandlerStack ∧
    (∀ n : Reg, n ≠ 0 → back.x n = (hostThreadAt after.mem ctx).activeRegs (n.val - 1)) ∧
    ∀ r : Reg, (∀ n : Reg, n ≠ 0 → n ≠ r → (hostThreadAt after.mem ctx).activeRegs (n.val - 1) =
        (hostThreadAt call.mem ctx).activeRegs (n.val - 1)) →
      ∀ n : Reg, n ≠ 0 → n ≠ r → back.x n = s.x n := by
  intro ctx call back
  have hcall : AtException s call := atException_exceptionCall s ret hfits
  have hctx : call.csr mscratch = s.csr mscratch := congrFun hcall.csr mscratch
  have hafter : after.csr mscratch = s.csr mscratch := hkeep.trans hctx
  have hsaved : ∀ n : Reg, n ≠ 0 →
      (hostThreadAt call.mem ctx).activeRegs (n.val - 1) = s.x n := by
    intro n hn
    rw [activeRegs_hostThreadAt _ _ hn]
    exact hcall.saved n hn
  have hrestored : ∀ n : Reg, n ≠ 0 →
      back.x n = (hostThreadAt after.mem ctx).activeRegs (n.val - 1) := by
    intro n hn
    rw [activeRegs_hostThreadAt _ _ hn, (run_enterGuest after (by rw [hafter]; exact hfits)).1 n hn,
      hafter]
  have hstack : (call.x sp).toNat = (hostThreadAt call.mem ctx).exceptionHandlerStack := by
    rw [hcall.stack, hcall.hostThreadAt_eq, loadDouble, BitVec.toNat_ofNat]
    exact Nat.mod_eq_of_lt (load_lt _ _ 8)
  refine ⟨hsaved, hcall.hostThreadAt_eq, hctx, hstack, hrestored, ?_⟩
  intro r hchanged n hn hne
  rw [hrestored n hn, hchanged n hn hne, hsaved n hn]

/-- A hart at a trap, with `xn` holding `n`. -/
def sampleTrap : Machine := ⟨fun n => BitVec.ofNat 64 n, fun _ => 0x80003000, fun _ => 0⟩

/-- The C code writes 42 to `x10` of the context, and uses all registers itself. -/
def sampleHandler (s : Machine) : Machine :=
  { s with x := fun _ => 0, mem := storeDouble s.mem (0x80003000 + 8 * 9) 42 }

/-- The guest finds 42 in `x10`, and in all other registers what it has left there. -/
theorem trap_transparent_one_register :
    let back := run enterGuest (sampleHandler (exceptionCall 0x80000200 sampleTrap))
    back.x 10 = 42 ∧ ∀ n : Reg, n ≠ 0 → n ≠ 10 → back.x n = BitVec.ofNat 64 n := by
  obtain ⟨-, -, -, -, hrestored, hback⟩ :=
    trap_transparent sampleTrap (sampleHandler (exceptionCall 0x80000200 sampleTrap)) 0x80000200
      (show (0x80003000 : Word).toNat + sizeofHostThreadData ≤ 2 ^ 64 by decide) rfl
  constructor
  · rw [hrestored 10 (by decide), activeRegs_hostThreadAt _ _ (by decide)]
    exact loadDouble_storeDouble_same
  · -- the other slots are next to the one that is written
    refine hback 10 (fun n hn hne => ?_)
    rw [activeRegs_hostThreadAt _ _ hn, activeRegs_hostThreadAt _ _ hn]
    refine loadDouble_storeDouble_disjoint ?_
    have hn' : n.val ≠ 0 := fun h => hn (Fin.ext h)
    have hne' : n.val ≠ 10 := fun h => hne (Fin.ext h)
    show 0x80003000 + 8 * (n.val - 1) + 8 ≤ 0x80003000 + 8 * 9 ∨
      0x80003000 + 8 * 9 + 8 ≤ 0x80003000 + 8 * (n.val - 1)
    omega

end RiscvHypervisor
