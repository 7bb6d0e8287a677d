import RiscvHypervisor.Proof.Invariant

namespace RiscvHypervisor

open ByteMem

/-!
# Isolation and the installed translation

What the invariant says about a hypervisor at work: through neither table does the guest reach a
byte of the image, and the table in `satp` is always the one that belongs to the guest's virtual
mode.
-/

variable {L : Layout} {s : State}

/-- **Isolation.**  In every reachable state, all memory mapped by a leaf of the machine table or of
    the shadow table belongs to the guest, and so does every byte the installed translation lets
    the guest access. -/
theorem guest_isolation (h : Reachable L s) :
    (∀ va l, Sv39.walk s.store.load64 va 2 (L.machineRoot 0) = some l →
      ∀ off, off < Sv39.pageSize l.level → GUEST_BASE ≤ l.base + off) ∧
    (s.guest.shadowPageTable ≠ 0 →
      ∀ va l, Sv39.walk s.store.load64 va 2 s.guest.shadowPageTable = some l →
        ∀ off, off < Sv39.pageSize l.level → GUEST_BASE ≤ l.base + off) ∧
    (∀ bit va pa, guestAccess s bit va = some pa → GUEST_BASE ≤ pa) := by
  have hcore := h.inv.core
  obtain ⟨own, free, hvm⟩ := hcore.mem.vm
  refine ⟨?_, ?_, ?_⟩
  · intro va l hl off _
    exact le_trans (walk_machine_base_ge hvm hl) (Nat.le_add_right _ _)
  · intro hroot va l hl off _
    exact le_trans (walk_shadow_base_ge hvm hroot hl) (Nat.le_add_right _ _)
  · intro bit va pa hpa
    exact hcore.guestAccess_ge hpa

/-- A guest that has just fetched its first instruction: the 2 MiB around `0x80000000` are mapped,
    with write permission, and belong to the guest. -/
theorem guest_isolation_first_fetch :
    ∃ s, Reachable sampleLayout s ∧ guestAccess s Sv39.bitW 0x80000123 = some 0x85000123 ∧
      GUEST_BASE ≤ 0x85000123 := by
  obtain ⟨s, hreach, hs⟩ := exists_reachable (fun _ => 0) [⟨fun _ => 0, 0x80000000, 12⟩]
    (fun s => guestAccess s Sv39.bitW 0x80000123) (some 0x85000123) (by decide) (by decide +kernel)
  exact ⟨s, hreach, hs, (guest_isolation hreach).2.2 _ _ _ hs⟩

/-- **The installed translation.**  Whenever the guest runs, `satp` selects Sv39 with the shadow
    table if that is active and with the machine table otherwise; the shadow table is active in
    user mode only, and then it is a page of the pool: the allocation in `guest_mret`, made when
    there is none yet, does not fail. -/
theorem installed_translation (h : Reachable L s) :
    s.hart.satp >>> 60 = 8 ∧
    (s.hart.satp.extractLsb' 0 44).toNat * 4096 =
      (if s.guest.shadowPtActive then s.guest.shadowPageTable
        else L.machineRoot s.host.currentGuest.machine) ∧
    (s.guest.shadowPtActive = true → s.guest.userMode = true) ∧
    (s.guest.shadowPtActive = true →
      s.guest.shadowPageTable ≠ 0 ∧
        ∃ i, i < MAX_ALLOCATEABLE_PAGES ∧ s.guest.shadowPageTable = L.poolPage i) ∧
    (s.guest.shadowPageTable = 0 → (allocatePagepable L s.store).1 ≠ 0) := by
  have hcore := h.inv.core
  obtain ⟨own, free, hvm⟩ := hcore.mem.vm
  have hb := hvm.table_bounds (hvm.activeRoot_own hcore)
  have hr : activeRoot L s.guest < 2 ^ 56 := by
    simp only [GUEST_BASE, RAM_START, GUEST_MEMORY_OFFSET] at hb
    omega
  refine ⟨hcore.satp_mode, ?_, fun hact => (hcore.priv.active hact).1, fun hact => ?_, fun h0 => ?_⟩
  · rw [hcore.priv.satp_eq, (makeSatp_fields hr hb.1).2, hcore.current]
    rfl
  · have hroot := (hcore.priv.active hact).2
    have hown := hvm.shadow_of_ne_zero hroot
    have hne : s.guest.shadowPageTable ≠ L.machineRoot 0 := by
      intro hc
      rw [hc, hvm.machine] at hown
      cases hown
    exact ⟨hroot, (hvm.alloc.used_pool _ ⟨by simp [hown], hne⟩).mono hvm.alloc.next_le⟩
  · have hmem := hcore.mem
    rw [h0] at hmem
    obtain ⟨p, st', heq, hp, -⟩ := hmem.newRoot
    rw [heq]
    exact hp

/-- A guest that has just entered user mode runs on its shadow table. -/
theorem installed_translation_user_mode :
    ∃ s, Reachable sampleLayout s ∧ s.guest.shadowPtActive = true ∧ s.guest.userMode = true ∧
      (s.hart.satp.extractLsb' 0 44).toNat * 4096 = s.guest.shadowPageTable := by
  obtain ⟨s, hreach, hact⟩ := exists_reachable (sampleKernel fun _ => 0)
    (sampleEnterUser (8 <<< 60 + 0x80010)) (fun s => s.guest.shadowPtActive) true (by decide)
    (by decide +kernel)
  obtain ⟨-, hsatp, huser, -⟩ := installed_translation hreach
  rw [hact, if_pos rfl] at hsatp
  exact ⟨s, hreach, hact, huser hact, hsatp⟩

end RiscvHypervisor
