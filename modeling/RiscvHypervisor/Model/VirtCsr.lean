import RiscvHypervisor.Model.Base

namespace RiscvHypervisor

/-!
# Model — emulated control and status registers

`virtcsr.c`: the reader and the writer of the guest's virtual CSRs.  Both touch only the `csr`
part of the guest's context, so that is all they are given.
-/

/-! ### CSR numbers (`csrs.cc`) -/

def CSR_satp : Nat := 0x180
def CSR_mstatus : Nat := 0x300
def CSR_mie : Nat := 0x304
def CSR_mtvec : Nat := 0x305
def CSR_mscratch : Nat := 0x340
def CSR_mepc : Nat := 0x341
def CSR_mcause : Nat := 0x342
def CSR_mtval : Nat := 0x343
def CSR_pmpcfg0 : Nat := 0x3A0
def CSR_pmpcfg15 : Nat := 0x3AF
def CSR_pmpaddr0 : Nat := 0x3B0
def CSR_pmpaddr63 : Nat := 0x3EF

/-- The physical memory protection registers, which read as zero and ignore writes. -/
def isPmpCsr (csrId : Nat) : Bool :=
  (CSR_pmpcfg0 ≤ csrId && csrId ≤ CSR_pmpcfg15) ||
    (CSR_pmpaddr0 ≤ csrId && csrId ≤ CSR_pmpaddr63)

/-- `get_virtual_csr`. -/
def getVirtualCsr (csrId : Nat) (csr : GuestCsr) : Except Panic Word :=
  if csrId = CSR_mstatus then
    .ok ((2 <<< 32) ||| (csr.mstatusMpp.setWidth 64 <<< 11) |||
      (if csr.mstatusMie then MSTATUS_MIE else 0) |||
      (if csr.mstatusMdt then MSTATUS_MDT else 0))
  else if csrId = CSR_mie then
    .ok ((if csr.mieMsie then MIE_MSIE else 0) |||
      (if csr.mieMtie then MIE_MTIE else 0) |||
      (if csr.mieMeie then MIE_MEIE else 0))
  else if csrId = CSR_mtvec then .ok csr.mtvec
  else if csrId = CSR_satp then
    .ok ((csr.satpMode.setWidth 64 <<< 60) ||| csr.satpPpn.setWidth 64)
  else if isPmpCsr csrId then .ok 0
  else if csrId = CSR_mepc then .ok csr.mepc
  else if csrId = CSR_mscratch then .ok csr.mscratch
  else if csrId = CSR_mcause then .ok csr.mcause
  else if csrId = CSR_mtval then .ok csr.mtval
  else .error .getEmulatedCsr

/-- `set_virtual_csr`. -/
def setVirtualCsr (csrId : Nat) (value : Word) (csr : GuestCsr) : Except Panic GuestCsr :=
  if csrId = CSR_mstatus then
    .ok { csr with
      mstatusMpp := value.extractLsb' 11 2
      mstatusMie := value &&& MSTATUS_MIE != 0
      -- a set bit is never cleared here
      mstatusMdt := if value &&& MSTATUS_MDT != 0 then true else csr.mstatusMdt }
  else if csrId = CSR_mie then
    if value &&& ~~~(MIE_MSIE ||| MIE_MTIE ||| MIE_MEIE) ≠ 0 then .error .unhandledMieFields
    else
      .ok { csr with
        mieMsie := value &&& MIE_MSIE != 0
        mieMtie := value &&& MIE_MTIE != 0
        mieMeie := value &&& MIE_MEIE != 0 }
  else if csrId = CSR_mtvec then .ok { csr with mtvec := value }
  else if csrId = CSR_satp then
    .ok { csr with satpPpn := value.extractLsb' 0 44, satpMode := value.extractLsb' 60 4 }
  else if isPmpCsr csrId then .ok csr
  else if csrId = CSR_mepc then .ok { csr with mepc := value }
  else if csrId = CSR_mscratch then .ok { csr with mscratch := value }
  else if csrId = CSR_mcause then .ok { csr with mcause := value }
  else if csrId = CSR_mtval then .ok { csr with mtval := value }
  else .error .setEmulatedCsr

end RiscvHypervisor
