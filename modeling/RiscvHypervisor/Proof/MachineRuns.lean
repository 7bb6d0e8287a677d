import RiscvHypervisor.Proof.Refinement

namespace RiscvHypervisor

open ByteMem Transition

/-!
# Runs of the guest, seen from the virtual machine

What is plain for the virtual machine holds of the hypervisor by the simulation.

* `user_access_walked` — user mode only reaches pages that the guest's own table gave, by a walk
  since which the guest has not executed `sfence.vma`;
* `guest_ram_written` — guest RAM holds what the guest last wrote to it, or what the loader has
  left.

Both follow the one step that can bring the fact about: a fill of the translation buffer, a write.
-/

variable {L : Layout} {s s' s₀ : State} {v v' : VirtualMachine} {events : List VmEvent}

/-! ### Steps of the virtual machine -/

/-- RAM changes by writes only. -/
theorem VmStep.write_of_ram {l : Option VmEvent} (h : VmStep v l v') {x : Nat}
    (hne : v'.ram x ≠ v.ram x) :
    ∃ va, v.Translates va.toNat x ∧ l = some (.write va (v'.ram x)) := by
  cases h with
  | @write va gm free translated value =>
    by_cases hx : x = gm
    · subst hx
      refine ⟨va, translated, ?_⟩
      show _ = some (VmEvent.write va (Function.update v.ram x value x))
      rw [Function.update_self]
    · exact absurd (Function.update_of_ne hx _ _) hne
  | @deviceStore v' i gm d free fetched located register width stored =>
    -- no device register is in RAM
    have hram : v'.ram = v.ram := by
      cases d with
      | mtime => cases stored
      | uartLsr => cases stored
      | _ =>
        cases stored
        rfl
    exact absurd (congrFun hram x) hne
  | _ => exact absurd rfl hne

/-- A run that shows no write leaves RAM alone. -/
theorem ram_eq_of_quiet {ls : List VmEvent} (h : virtualMachine.Run v ls v')
    (hquiet : ∀ va value, VmEvent.write va value ∉ ls) : v'.ram = v.ram := by
  induction h with
  | refl => rfl
  | @step ls l t u before last ih =>
    rw [← ih (fun va value hmem => hquiet va value (List.mem_append_left _ hmem))]
    funext x
    by_contra hne
    obtain ⟨va, -, hl⟩ := last.write_of_ram hne
    refine hquiet va (u.ram x) (List.mem_append_right _ ?_)
    rw [hl]
    exact List.mem_singleton_self _

/-! ### Steps of the system -/

/-- What a trap shows is no write. -/
theorem newlyObserved_ne_write (s s' : State) (va : Word) (value : BitVec 8) :
    newlyObserved s s' ≠ some (.write va value) := by
  intro hc
  unfold newlyObserved at hc
  split at hc
  · cases hc
  · obtain ⟨o, -, ho⟩ := Option.map_eq_some_iff.mp hc
    cases ho

/-- Of the steps of the system only the guest's stores change guest RAM. -/
theorem HostStep.store_of_mem (hinv : Inv L s) (h : Represents s v) {l : Option VmEvent}
    (hstep : HostStep L s l s') {a : Nat} (ha : GUEST_BASE ≤ a)
    (hne : s'.store.mem a ≠ s.store.mem a) :
    ∃ va, guestAccess s Sv39.bitW va = some a ∧ l = some (.write va (s'.store.mem a)) ∧
      s' = s.writeByte a (s'.store.mem a) := by
  by_cases hwrite : ∃ va value, l = some (.write va value)
  · obtain ⟨va, value, hl⟩ := hwrite
    cases hstep with
    | read kind access => cases hl
    | step step =>
      cases step with
      | @store va' pa value' access guest =>
        by_cases hpa : a = pa
        · subst hpa
          have hself : (s.writeByte a value').store.mem a = value' := Function.update_self _ _ _
          rw [hself]
          exact ⟨va', access, rfl, rfl⟩
        · exact absurd (Function.update_of_ne hpa _ _) hne
      | run regs pc => cases hl
      | receive byte => cases hl
      | corrupt after access image =>
        exact absurd (hinv.core.guestAccess_ge access) (Nat.not_le.mpr image)
      | mmu dirty leaf => exact absurd hl (newlyObserved_ne_write _ _ _ _)
      | trap clock handled => exact absurd hl (newlyObserved_ne_write _ _ _ _)
  · -- The virtual machine follows without a write, and its RAM is guest RAM.
    obtain ⟨v', hfollows, h'⟩ := h.step hinv hstep
    obtain ⟨x, hx, rfl⟩ : ∃ x, RAM_START ≤ x ∧ a = x + GUEST_MEMORY_OFFSET :=
      ⟨a - GUEST_MEMORY_OFFSET, Nat.le_sub_of_add_le ha,
        (Nat.sub_add_cancel (le_trans (Nat.le_add_left _ _) ha)).symm⟩
    have hram : v'.ram = v.ram := by
      refine ram_eq_of_quiet hfollows.run.forget (fun va value hmem => hwrite ⟨va, value, ?_⟩)
      exact Option.mem_toList.mp hmem
    rw [← h'.ram x hx, ← h.ram x hx, hram] at hne
    exact absurd rfl hne

/-! ### Translations -/

/-- The virtual machine in strides: one for each step of the hypervisor. -/
def followingMachine : System VirtualMachine VmEvent where
  start := VirtualMachine.Reset
  step := VirtualMachine.Follows

theorem run_of_following {ls : List VmEvent} (h : followingMachine.Run v ls v') :
    virtualMachine.Run v ls v' := by
  induction h with
  | refl => exact .refl
  | step before last ih => exact ih.trans last.run.forget

/-- What the buffer holds after every stride it holds throughout. -/
theorem keeping_of_following {p q : Nat} {ls : List VmEvent}
    (h : (followingMachine.keeping fun v => v.tlb p q).Run v ls v') :
    (virtualMachine.keeping fun v => v.tlb p q).Run v ls v' := by
  induction h with
  | refl => exact .refl
  | step before last ih => exact ih.trans (last.1.run.weaken (fun w hw => hw p q last.2))

/-- **User mode reaches what the guest has mapped.**  Every page that the MMU lets user mode access
    is one the virtual machine has learned: in some state `w` before, with the shadow table in use,
    a walk of the guest's table as it was in `w` has led to it, and since then no `sfence.vma` has
    emptied the buffer.  If that table is not well formed, or not in RAM, the walk is the
    hypervisor's own and promises nothing; the page is a page of guest RAM all the same. -/
theorem user_access_walked (on : PowerOn L s₀)
    (run : (hypervisorSystem L).Run (bootMain L s₀) events s)
    (paged : s.guest.shadowPtActive = true) {bit pa : Nat} {va : Word}
    (access : guestAccess s bit va = some pa) :
    ∃ before after w u v page gm, events = before ++ after ∧
      (hypervisorSystem L).Run (bootMain L s₀) before w ∧ (hypervisorSystem L).Run w after s ∧
      virtualMachine.Run (resetMachine L s₀) before u ∧ Represents w u ∧
      w.guest.shadowPtActive = true ∧
      (WellFormedWalk (guestRead w.store) w.guest.csr.satpPpn page →
        sv39Resolve (guestRead w.store) w.guest.csr.satpPpn page = some gm) ∧
      InGuestRam gm ∧ pageOf page = pageOf va.toNat ∧
      pa = gm / 4096 * 4096 + va.toNat % 4096 + GUEST_MEMORY_OFFSET ∧
      (virtualMachine.keeping fun v => v.tlb (pageOf page) (gm / 4096)).Run u after v ∧
      Represents s v := by
  obtain ⟨v, hside⟩ := run.beside (Q := followingMachine)
    (R := fun s v => Inv L s ∧ Represents s v) HostStep.follows ⟨bootMain_inv on, on.represents⟩
  obtain ⟨hinv, hrep⟩ := hside.related ⟨bootMain_inv on, on.represents⟩
  dsimp only at hinv hrep
  obtain ⟨walk, hwalk, rfl⟩ := hinv.core.guestAccess_walk access
  obtain ⟨gm', htrans, -, heq⟩ := hrep.translates hinv.core hwalk
  have hpaged : v.hart.paged = true := by
    rw [hrep.hart]
    exact paged
  obtain ⟨q, hq, rfl⟩ := (VirtualMachine.translates_of_paged hpaged).mp htrans
  -- the step with which the buffer has learned the page
  obtain ⟨before, l, after, ⟨w, u⟩, ⟨w', u'⟩, hsplit, hbefore, hold, hstep, hnew, hafter⟩ :=
    hside.since (I := fun x => x.2.tlb (pageOf va.toNat) q) id hq
  have hrepw : Represents w u := (hbefore.related ⟨bootMain_inv on, on.represents⟩).2
  obtain ⟨hupaged, page, gm, hwalks, hram, hpage, rfl⟩ : u.Learns (pageOf va.toNat) q :=
    (hstep.2.1.learns _ _ hnew).resolve_left hold
  have hafter' := hafter.cons ⟨hstep, hnew⟩
  refine ⟨before, l.toList ++ after, w, u, v, page, gm, hsplit, hbefore.fst, hafter'.forget.fst,
    run_of_following hbefore.snd, hrepw, ?_, ?_, hram, hpage, heq, ?_, hrep⟩
  · rw [← hupaged, hrepw.hart]
    rfl
  · unfold VirtualMachine.Walks at hwalks
    rw [hrepw.ram.tableRead, hrepw.hart] at hwalks
    rw [← GuestCsr.file_satpPpn]
    exact hwalks
  · rw [hpage]
    exact keeping_of_following (System.Run.keeping_snd
      (J := fun v : VirtualMachine => v.tlb (pageOf va.toNat) (gm / 4096)) hafter')

/-- A guest that has just fetched its first instruction in user mode, from a page its table maps
    by a leaf of 1 GiB. -/
theorem user_access_walked_fetch :
    ∃ s w u page gm, guestAccess s Sv39.bitX 0x80000008 = some 0x85000008 ∧ Represents w u ∧
      w.guest.shadowPtActive = true ∧
      (WellFormedWalk (guestRead w.store) w.guest.csr.satpPpn page →
        sv39Resolve (guestRead w.store) w.guest.csr.satpPpn page = some gm) ∧
      pageOf page = 0x80000 ∧ 0x85000008 = gm / 4096 * 4096 + 8 + GUEST_MEMORY_OFFSET := by
  obtain ⟨s, hreach, hs⟩ := exists_reachable
    (sampleKernel (store (fun _ => 0) 0x85010010 8 0x2000001F))
    (sampleEnterUser (8 <<< 60 + 0x80010) ++ [⟨fun _ => 0, 0x80000008, 12⟩])
    (fun s => (s.guest.shadowPtActive, guestAccess s Sv39.bitX 0x80000008))
    (true, some 0x85000008) (by decide) (by decide +kernel)
  obtain ⟨hact, haccess⟩ := Prod.mk.inj hs
  obtain ⟨s₀, events, on, hrun⟩ := hreach.hostRun
  obtain ⟨before, after, w, u, v, page, gm, -, -, -, -, hrep, hactw, hwalk, -, hpage, hpa, -⟩ :=
    user_access_walked on hrun hact haccess
  exact ⟨s, w, u, page, gm, haccess, hrep, hactw, hwalk, hpage, hpa⟩

/-! ### Memory -/

/-- **Guest RAM is the guest's.**  A byte of guest RAM that is not what the loader has left is what
    the guest last wrote there, through the translation it then had. -/
theorem guest_ram_written (on : PowerOn L s₀)
    (run : (hypervisorSystem L).Run (bootMain L s₀) events s) {a : Nat} (ha : GUEST_BASE ≤ a)
    (changed : s.store.mem a ≠ s₀.store.mem a) :
    ∃ before va after u, events = before ++ .write va (s.store.mem a) :: after ∧
      (hypervisorSystem L).Run (bootMain L s₀) before u ∧ guestAccess u Sv39.bitW va = some a ∧
      ((hypervisorSystem L).keeping fun t => t.store.mem a = s.store.mem a).Run
        (u.writeByte a (s.store.mem a)) after s := by
  obtain ⟨before, l, after, u, u', hsplit, hbefore, hold, hstep, hnew, hafter⟩ :=
    run.since (I := fun t => t.store.mem a = s.store.mem a) (fun hc => changed hc.symm) rfl
  obtain ⟨v, hv, hinv, hrep⟩ :=
    (hypervisor_simulation L).run ⟨bootMain_inv on, on.represents⟩ hbefore
  have hne : u'.store.mem a ≠ u.store.mem a := by
    rw [hnew]
    exact fun hc => hold hc.symm
  obtain ⟨va, haccess, rfl, heq⟩ := HostStep.store_of_mem hinv hrep hstep ha hne
  rw [hnew] at hsplit heq
  rw [heq] at hafter
  exact ⟨before, va, after, u, hsplit, hbefore, haccess, hafter⟩

/-- A guest that has just written another byte at `0x80000123`. -/
theorem guest_ram_written_first :
    ∃ s₀ s before va after u, s.store.mem 0x85000123 = s₀.store.mem 0x85000123 + 1 ∧
      (hypervisorSystem sampleLayout).Run (bootMain sampleLayout s₀)
        (before ++ .write va (s.store.mem 0x85000123) :: after) s ∧
      guestAccess u Sv39.bitW va = some 0x85000123 := by
  obtain ⟨t, hreach, haccess⟩ := exists_reachable (fun _ => 0) [⟨fun _ => 0, 0x80000000, 12⟩]
    (fun s => guestAccess s Sv39.bitW 0x80000123) (some 0x85000123) (by decide) (by decide +kernel)
  obtain ⟨s₀, events, on, hrun⟩ := hreach.hostRun
  obtain ⟨b, hb⟩ : ∃ b, b = s₀.store.mem 0x85000123 + 1 := ⟨_, rfl⟩
  have hrun' := hrun.step (HostStep.step (Step.store b haccess (by decide)))
  have hmem : (t.writeByte 0x85000123 b).store.mem 0x85000123 = b := by
    show Function.update t.store.mem 0x85000123 b 0x85000123 = b
    rw [Function.update_self]
  have hchanged : (t.writeByte 0x85000123 b).store.mem 0x85000123 ≠ s₀.store.mem 0x85000123 := by
    rw [hmem, hb]
    bv_omega
  obtain ⟨before, va, after, u, hsplit, -, hu, -⟩ :=
    guest_ram_written on hrun' (by decide) hchanged
  rw [hsplit] at hrun'
  exact ⟨s₀, _, before, va, after, u, hmem.trans hb, hrun', hu⟩

end RiscvHypervisor
