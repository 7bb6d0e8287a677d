import RiscvHypervisor.Proof.Console
import RiscvHypervisor.Proof.CsrView
import RiscvHypervisor.Proof.Slices
import RiscvHypervisor.Proof.Shadow

namespace RiscvHypervisor

open ByteMem RadixForest Except

/-!
# The virtual machine in the host's state

Where the parts of the virtual machine are in the state of the hypervisor.

* `State.virtualHart` — the hart: the saved registers, the guest's context and the host's `mepc`;
* `Represents` — the rest: guest RAM is host RAM moved by `GUEST_MEMORY_OFFSET`, what the shadow
  table maps is in the translation buffer, and the console shows what the guest has sent;
* `Represents.translates` — an address the MMU or the hypervisor translates by the table the guest
  runs on is where the virtual machine has it.

A shadow entry may be missing that the buffer has, but not the other way round.  What the guest, the
MMU and the page-fault handler do to the shadow table is said here in terms of its entries.
-/

variable {L : Layout} {s s' : State} {v : VirtualMachine}

/-! ### The hart -/

/-- The hart of the virtual machine. -/
def State.virtualHart (s : State) : VirtualHart where
  regs := s.host.activeRegs
  pc := s.hart.mepc
  userMode := s.guest.userMode
  paged := s.guest.shadowPtActive
  csrs := s.guest.csr.file
  pending := s.guest.deferredException
  armed := s.guest.timerScheduled
  deadline := s.guest.timerDeadline
  received := s.uart.received

/-! ### Memory and the translation buffer -/

/-- What the shadow table maps is in the buffer. -/
def Caches (st : Store) (root : Nat) (tlb : Nat → Nat → Prop) : Prop :=
  root ≠ 0 → ∀ p e, p < 2 ^ 27 → shadowPte st root p = some e →
    ∃ q, tlb p q ∧ e / 1024 * 4096 = q * 4096 + GUEST_MEMORY_OFFSET

/-- Guest RAM in host memory. -/
def HoldsRam (st : Store) (ram : Mem) : Prop :=
  ∀ x, RAM_START ≤ x → ram x = st.mem (x + GUEST_MEMORY_OFFSET)

/-- **The state of the host is one of the virtual machine.** -/
structure Represents (s : State) (v : VirtualMachine) : Prop where
  hart : v.hart = s.virtualHart
  ram : HoldsRam s.store v.ram
  tlb : Caches s.store s.guest.shadowPageTable v.tlb
  console : Rendered v.transmitted s.store.printed

/-- Only the guest's memory matters, -/
theorem HoldsRam.congr {st st' : Store} {ram : Mem} (h : HoldsRam st ram)
    (hsame : SameGuestRam st st') : HoldsRam st' ram := by
  intro x hx
  rw [h x hx, hsame _ (Nat.add_le_add_right hx _)]

/-- The pages of the table stay where they are, or leave it. -/
theorem Caches.shrink {st st' : Store} {root : Nat} {tlb : Nat → Nat → Prop}
    (h : Caches st root tlb)
    (hsub : ∀ p e', p < 2 ^ 27 → shadowPte st' root p = some e' →
      ∃ e, shadowPte st root p = some e ∧ e' / 1024 = e / 1024) : Caches st' root tlb := by
  intro hroot p e' hp he'
  obtain ⟨e, he, hpage⟩ := hsub p e' hp he'
  rw [hpage]
  exact h hroot p e hp he

/-- and only the leaves of the shadow table. -/
theorem Caches.congr {st st' : Store} {root : Nat} {tlb : Nat → Nat → Prop}
    (h : Caches st root tlb)
    (hsame : ∀ p, p < 2 ^ 27 → shadowPte st' root p = shadowPte st root p) :
    Caches st' root tlb := by
  refine h.shrink (fun p e' hp he' => ⟨e', ?_, rfl⟩)
  rw [← hsame p hp]
  exact he'

/-- An empty table is in every buffer. -/
theorem Caches.of_empty {st : Store} {root : Nat} (tlb : Nat → Nat → Prop)
    (h : ∀ p, p < 2 ^ 27 → shadowPte st root p = none) : Caches st root tlb := by
  intro _ p e hp he
  rw [h p hp] at he
  cases he

/-! ### Reading guest memory -/

/-- A load at the guest's address is a load of its RAM. -/
theorem HoldsRam.load {st : Store} {ram : Mem} (h : HoldsRam st ram) {gm : Nat} (n : Nat)
    (hgm : RAM_START ≤ gm) : load st.mem (gm + GUEST_MEMORY_OFFSET) n = load ram gm n := by
  induction n generalizing gm with
  | zero => rfl
  | succ n ih =>
    have hrest := ih (Nat.le_succ_of_le hgm)
    rw [Nat.succ_add] at hrest
    rw [ByteMem.load, ByteMem.load, hrest, h gm hgm]

/-- And an instruction fetched there is the one in its RAM. -/
theorem HoldsRam.dereferenceInstruction {st : Store} {ram : Mem} (h : HoldsRam st ram) {gm : Nat}
    (hgm : RAM_START ≤ gm) :
    dereferenceInstruction st.mem (gm + GUEST_MEMORY_OFFSET) = dereferenceInstruction ram gm := by
  have hhigh := h.load 2 (Nat.le_add_right_of_le (k := 2) hgm)
  rw [Nat.add_right_comm] at hhigh
  unfold RiscvHypervisor.dereferenceInstruction
  rw [h.load 2 hgm, hhigh]

/-- Both sides fetch an instruction the same way. -/
theorem dereferenceInstruction_eq_instructionAt (m : Mem) (a : Nat) :
    dereferenceInstruction m a = instructionAt m a := by
  have hlong : load m a 4 = load m a 2 + 2 ^ 16 * load m (a + 2) 2 := load_add m a 2 2
  unfold instructionAt
  rcases dereferenceInstruction_cases m a with ⟨heq, hlow⟩ | ⟨heq, hlow⟩
  · rw [heq, if_pos (by omega)]
  · rw [heq, if_neg hlow]

/-- Both look for page tables in the same memory. -/
theorem HoldsRam.tableRead (h : HoldsRam s.store v.ram) : v.tableRead = guestRead s.store := by
  funext a
  unfold VirtualMachine.tableRead guestRead
  split
  · rename_i ha
    exact (h.load 8 ha.1).symm
  · rfl

/-! ### Translated addresses -/

/-- A shadow leaf translates within a page, -/
theorem Sv39.Leaf.translate_shadow {l : Sv39.Leaf} (hlevel : l.level = 0) (hfits : l.pte < 2 ^ 54)
    (va : Nat) : l.translate va = l.pte / 1024 * 4096 + va % 4096 := by
  have hppn : l.pte / 1024 < 2 ^ 44 := by omega
  unfold Sv39.Leaf.translate Sv39.Leaf.base Sv39.ppn Sv39.pageSize
  rw [hlevel]
  show l.pte / 1024 % 2 ^ 44 * 4096 + va % 4096 = _
  rw [Nat.mod_eq_of_lt hppn]

/-- and a machine leaf adds the offset of the guest's memory. -/
theorem Sv39.Leaf.translate_machine {l : Sv39.Leaf} {va : Nat} (hlevel : l.level = 1)
    (hleaf : MachineLeaf (regionOf va) l.pte) :
    l.translate va = va % 2 ^ 39 + GUEST_MEMORY_OFFSET := by
  have hpage := hleaf.page
  have hregion := regionOf_lt va
  unfold Sv39.Leaf.translate Sv39.Leaf.base Sv39.ppn Sv39.pageSize
  rw [hlevel]
  show l.pte / 1024 % 2 ^ 44 * 4096 + va % 2 ^ 21 = _
  rw [hpage]
  unfold regionOf at *
  simp only [GUEST_MEMORY_OFFSET]
  omega

/-- **Addresses.**  What the table the guest runs on translates is where the virtual machine has it,
    moved by `GUEST_MEMORY_OFFSET`. -/
theorem Represents.translates (h : Represents s v) (hcore : Core L s) {va : Nat} {l : Sv39.Leaf}
    (hl : Sv39.walk s.store.load64 va 2 (activeRoot L s.guest) = some l) :
    ∃ gm, v.Translates va gm ∧ RAM_START ≤ gm ∧ l.translate va = gm + GUEST_MEMORY_OFFSET := by
  obtain ⟨own, free, hvm⟩ := hcore.mem.vm
  have hpaged : v.hart.paged = s.guest.shadowPtActive := by
    rw [h.hart]
    rfl
  unfold activeRoot at hl
  by_cases hact : s.guest.shadowPtActive = true
  · rw [if_pos hact] at hl
    have hroot := (hcore.priv.active hact).2
    have hp : pageOf va < 2 ^ 27 := Nat.mod_lt _ (by decide)
    obtain ⟨hlevel, hmaps, -⟩ := (walk_shadow hvm hroot va l).mp hl
    have hleaf : ShadowLeaf l.pte := Maps.leafOk hvm hmaps
    obtain ⟨q, hq, hpage⟩ := h.tlb hroot _ _ hp ((shadowPte_eq_some hvm hroot hp).mpr hmaps)
    have hguest : RAM_START + GUEST_MEMORY_OFFSET ≤ q * 4096 + GUEST_MEMORY_OFFSET := by
      rw [← hpage]
      exact hleaf.guest
    refine ⟨q * 4096 + va % 4096, ?_, ?_, ?_⟩
    · rw [VirtualMachine.translates_of_paged (hpaged.trans hact)]
      exact ⟨q, hq, rfl⟩
    · exact le_trans (Nat.le_of_add_le_add_right hguest) (Nat.le_add_right _ _)
    · rw [Sv39.Leaf.translate_shadow hlevel hleaf.fits, hpage, Nat.add_right_comm]
  · rw [if_neg hact] at hl
    obtain ⟨hlevel, hmaps, -⟩ := (walk_machine hvm va l).mp hl
    have hleaf : MachineLeaf (regionOf va) l.pte := Maps.leafOk hvm hmaps
    have hbare : v.hart.paged = false := hpaged.trans (eq_false_of_ne_true hact)
    refine ⟨va % 2 ^ 39, (VirtualMachine.translates_of_bare hbare).mpr rfl, ?_,
      Sv39.Leaf.translate_machine hlevel hleaf⟩
    have hram := hleaf.ram
    unfold regionOf at hram
    simp only [RAM_START] at hram ⊢
    omega

/-- An access of the guest's goes through the table it runs on. -/
theorem Core.guestAccess_walk (h : Core L s) {bit pa : Nat} {va : Word}
    (ha : guestAccess s bit va = some pa) :
    ∃ l, Sv39.walk s.store.load64 va.toNat 2 (activeRoot L s.guest) = some l ∧
      pa = l.translate va.toNat := by
  unfold guestAccess at ha
  rw [if_neg (by rw [h.satp_mode]; decide)] at ha
  cases hl : mmuLeaf s va with
  | none =>
    rw [hl] at ha
    cases ha
  | some l =>
    rw [hl] at ha
    dsimp only at ha
    split at ha
    · cases ha
      exact ⟨l, h.mmuLeaf_walk hl, rfl⟩
    · cases ha

/-- So does the hypervisor when it looks at an instruction. -/
theorem Core.resolveInstruction_walk (h : Core L s) {pc : Word} {host : Nat}
    (hres : resolveInstruction L s pc = .ok host) :
    ∃ l, Sv39.walk s.store.load64 pc.toNat 2 (activeRoot L s.guest) = some l ∧
      host = l.translate pc.toNat := by
  unfold resolveInstruction at hres
  obtain ⟨it, hit, hlength⟩ := bind_eq_ok.mp hres
  unfold beginIterGuestmem at hit
  rw [resolveGuestmemSlice_eq_ok ?first (h.fitsAt rfl _)] at hit
  case first => exact show (0 : Word).toNat < (4 : Word).toNat by decide
  obtain ⟨l, hl, -, rfl⟩ := hit
  dsimp only at hl hlength
  have hbyte : GuestSlice.byteAddr ⟨pc, 4, s.host.currentGuest⟩ (0 : Word).toNat = pc.toNat := by
    unfold GuestSlice.byteAddr
    simp
  rw [hbyte, h.activePt_eq] at hl
  refine ⟨l, hl, ?_⟩
  rw [hbyte] at hlength
  generalize (if load s.store.mem _ 2 &&& 3 = 3 then (4 : Nat) else 2) = size at hlength
  split at hlength
  · cases hlength
  split at hlength
  · cases hlength
  split at hlength
  · cases hlength
  · cases hlength
    rfl

/-- The instruction the hypervisor looks at is the one the virtual machine fetches. -/
theorem Represents.fetches (h : Represents s v) (hcore : Core L s) {host : Nat}
    (hres : resolveInstruction L s s.hart.mepc = .ok host) :
    v.Fetches (dereferenceInstruction s.store.mem host) := by
  obtain ⟨l, hl, rfl⟩ := hcore.resolveInstruction_walk hres
  obtain ⟨gm, htrans, hgm, heq⟩ := h.translates hcore hl
  refine ⟨gm, ?_, ?_⟩
  · rw [h.hart]
    exact htrans
  · rw [heq, h.ram.dereferenceInstruction hgm, dereferenceInstruction_eq_instructionAt]

/-! ### The guest and the MMU -/

section

variable {root : Nat} {st st' : Store} {own : Owner Tree} {free : List Nat}

/-- Tables are not guest memory. -/
theorem Maps.frame_iff (hvm : VmInv L root st own free ∅) {x : Tree} {key e : Nat}
    (hmem : ∀ a, a < GUEST_BASE → st'.mem a = st.mem a) :
    Maps st' own x key e ↔ Maps st own x key e := by
  have hentry : ∀ t, own t = some ⟨x, 0, key / 512⟩ →
      st'.entry t (key % 512) = st.entry t (key % 512) := by
    intro t ht
    have hb := hvm.table_bounds (t := t) (by simp [ht])
    exact Store.load64_congr (fun a _ ha => hmem a (by omega))
  constructor
  · rintro ⟨t, ht, he, hne⟩
    rw [hentry t ht] at he
    exact ⟨t, ht, he, hne⟩
  · rintro ⟨t, ht, he, hne⟩
    rw [← hentry t ht] at he
    exact ⟨t, ht, he, hne⟩

/-- A mark of the MMU leaves every page where it is. -/
theorem Maps.of_mark (hvm : VmInv L root st own free ∅) {x y : Tree} {key m p e' : Nat}
    {l : Sv39.Leaf} (hm : Maps st own x key l.pte)
    (hslot : ∃ t, own t = some ⟨x, 0, key / 512⟩ ∧ l.slot = t + 8 * (key % 512)) (hlt : m < 1024)
    (hmaps : Maps (st.store64 l.slot (l.pte ||| m)) own y p e') :
    ∃ e, Maps st own y p e ∧ e' / 1024 = e / 1024 := by
  obtain ⟨t, ht, hslot⟩ := hslot
  have hpte : l.pte < 2 ^ 64 := by
    obtain ⟨t', -, he, -⟩ := hm
    rw [← he]
    exact st.entry_lt _ _
  have hval : l.pte ||| m < 2 ^ 64 := Nat.or_lt_two_pow hpte (lt_trans hlt (by decide))
  have hset : st.store64 l.slot (l.pte ||| m) = st.setEntry t (key % 512) (l.pte ||| m) := by
    rw [hslot]
    rfl
  rw [hset, Maps.setLeaf_iff hvm ht (Nat.mod_lt _ (by decide)) hval, Nat.div_add_mod'] at hmaps
  by_cases hkey : y = x ∧ p = key
  · rw [if_pos hkey] at hmaps
    rw [hkey.1, hkey.2, hmaps.1]
    exact ⟨l.pte, hm, or_div_two_pow (n := 10) hlt⟩
  · rw [if_neg hkey] at hmaps
    exact ⟨e', hmaps, rfl⟩

end

/-- A byte written by the guest, in memory. -/
theorem State.mem_writeByte (s : State) (a : Nat) (value : BitVec 8) :
    (s.writeByte a value).store.mem = Function.update s.store.mem a value := rfl

/-- A store of the guest's. -/
theorem Represents.writeByte (h : Represents s v) (hcore : Core L s) {gm : Nat}
    (hgm : RAM_START ≤ gm) (value : BitVec 8) :
    Represents (s.writeByte (gm + GUEST_MEMORY_OFFSET) value)
      { v with ram := Function.update v.ram gm value } := by
  obtain ⟨own, free, hvm⟩ := hcore.mem.vm
  have hge : GUEST_BASE ≤ gm + GUEST_MEMORY_OFFSET := Nat.add_le_add_right hgm _
  have hmem : ∀ a, a < GUEST_BASE →
      (s.writeByte (gm + GUEST_MEMORY_OFFSET) value).store.mem a = s.store.mem a :=
    fun a ha => Function.update_of_ne (Nat.ne_of_lt (lt_of_lt_of_le ha hge)) _ _
  have hvm' : VmInv L s.guest.shadowPageTable
      (s.writeByte (gm + GUEST_MEMORY_OFFSET) value).store own free ∅ := hvm.frame rfl rfl hmem
  refine ⟨h.hart, ?_, ?_, h.console⟩
  · intro x hx
    rw [State.mem_writeByte]
    dsimp only
    by_cases hxg : x = gm
    · rw [hxg, Function.update_self, Function.update_self]
    · rw [Function.update_of_ne hxg, Function.update_of_ne (by omega)]
      exact h.ram x hx
  · intro hroot
    refine (h.tlb.congr (fun p hp => ?_)) hroot
    exact shadowPte_congr hvm hvm' hroot (fun key e => Maps.frame_iff hvm hmem) hp

/-- A mark of the MMU's. -/
theorem Represents.mmuMark (h : Represents s v) (hcore : Core L s) {va : Word} {l : Sv39.Leaf}
    (hl : mmuLeaf s va = some l) (dirty : Bool) : Represents (s.mmuMark l dirty) v := by
  obtain ⟨own, free, hvm⟩ := hcore.mem.vm
  have hw := hcore.mmuLeaf_walk hl
  have hmask : 1 <<< Sv39.bitA ||| (if dirty then 1 <<< Sv39.bitD else 0) < 1024 := by
    cases dirty <;> decide
  obtain ⟨x, key, hmaps, hslot⟩ : ∃ x key, Maps s.store own x key l.pte ∧
      ∃ t, own t = some ⟨x, 0, key / 512⟩ ∧ l.slot = t + 8 * (key % 512) := by
    unfold activeRoot at hw
    split at hw
    · rename_i hact
      rw [walk_shadow hvm (hcore.priv.active hact).2] at hw
      exact ⟨.shadow, pageOf va.toNat, hw.2⟩
    · rw [walk_machine hvm] at hw
      exact ⟨.machine, regionOf va.toNat, hw.2⟩
  have hstore : (s.mmuMark l dirty).store = s.store.store64 l.slot
      (l.pte ||| (1 <<< Sv39.bitA ||| (if dirty then 1 <<< Sv39.bitD else 0))) := by
    rw [← Nat.lor_assoc]
    rfl
  have hvm' := hvm.mark hmaps hslot hmask
  refine ⟨h.hart, h.ram.congr ?_, ?_, h.console⟩
  · rw [hstore]
    obtain ⟨t, ht, hslot⟩ := hslot
    rw [hslot]
    exact hvm.sameGuestRam_setEntry (by simp [ht]) (Nat.mod_lt _ (by decide))
  · intro hroot
    refine (h.tlb.shrink (fun p e' hp he' => ?_)) hroot
    rw [hstore, shadowPte_eq_some hvm' hroot hp] at he'
    obtain ⟨e, he, hpage⟩ := Maps.of_mark hvm hmaps hslot hmask he'
    exact ⟨e, (shadowPte_eq_some hvm hroot hp).mpr he, hpage⟩

end RiscvHypervisor
