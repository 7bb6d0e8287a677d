import RiscvHypervisor.Lib.Memory
import RiscvHypervisor.Lib.Outcome
import RiscvHypervisor.Lib.FreeChain
import RiscvHypervisor.Lib.RadixForest
import RiscvHypervisor.Lib.Occupancy
import RiscvHypervisor.Lib.Sv39
import RiscvHypervisor.Lib.Rv64
import RiscvHypervisor.Lib.FirstMin
import RiscvHypervisor.Lib.Tiling
import RiscvHypervisor.Lib.CellCopy
import RiscvHypervisor.Lib.Rv64Line
import RiscvHypervisor.Lib.CycleWalk
import RiscvHypervisor.Lib.Transition
import RiscvHypervisor.Model.Base
import RiscvHypervisor.Model.PageAlloc
import RiscvHypervisor.Model.Print
import RiscvHypervisor.Model.Vmem
import RiscvHypervisor.Model.Instructions
import RiscvHypervisor.Model.GuestPrivilege
import RiscvHypervisor.Model.Devices
import RiscvHypervisor.Model.VirtCsr
import RiscvHypervisor.Model.Handlers
import RiscvHypervisor.Model.System
import RiscvHypervisor.Model.LtoRequired
import RiscvHypervisor.Model.Hypenterleave
import RiscvHypervisor.Model.StackTrace
import RiscvHypervisor.Model.LockedAlloc
import RiscvHypervisor.Model.Fences
import RiscvHypervisor.Proof.Entries
import RiscvHypervisor.Proof.Decoder
import RiscvHypervisor.Proof.LoadDecoder
import RiscvHypervisor.Proof.Allocator
import RiscvHypervisor.Proof.AllocHistory
import RiscvHypervisor.Proof.Tables
import RiscvHypervisor.Proof.TableBuild
import RiscvHypervisor.Proof.GuestWalk
import RiscvHypervisor.Proof.Teardown
import RiscvHypervisor.Proof.Privilege
import RiscvHypervisor.Proof.Handlers
import RiscvHypervisor.Proof.CsrFile
import RiscvHypervisor.Proof.Walk
import RiscvHypervisor.Proof.DeviceMap
import RiscvHypervisor.Proof.PageFault
import RiscvHypervisor.Proof.Console
import RiscvHypervisor.Proof.Invariant
import RiscvHypervisor.Proof.Effects
import RiscvHypervisor.Proof.Isolation
import RiscvHypervisor.Proof.MachineTable
import RiscvHypervisor.Proof.Ownership
import RiscvHypervisor.Proof.Flush
import RiscvHypervisor.Proof.GuestTable
import RiscvHypervisor.Proof.WalkReads
import RiscvHypervisor.Proof.Shadow
import RiscvHypervisor.Proof.Slices
import RiscvHypervisor.Proof.UserMode
import RiscvHypervisor.Proof.Emulation
import RiscvHypervisor.Proof.Timer
import RiscvHypervisor.Proof.Delivery
import RiscvHypervisor.Proof.VirtualTime
import RiscvHypervisor.Proof.Reschedule
import RiscvHypervisor.Proof.HostTick
import RiscvHypervisor.Proof.Progress
import RiscvHypervisor.Proof.AddressRange
import RiscvHypervisor.Proof.Devices
import RiscvHypervisor.Proof.LtoRequired
import RiscvHypervisor.Proof.Hypenterleave
import RiscvHypervisor.Proof.StackTrace
import RiscvHypervisor.Proof.AtomicAlloc
import RiscvHypervisor.Proof.LockedAlloc
import RiscvHypervisor.Proof.LockProgress
import RiscvHypervisor.Spec.VirtualMachine
import RiscvHypervisor.Proof.CsrView
import RiscvHypervisor.Proof.GuestView
import RiscvHypervisor.Proof.TrapView
import RiscvHypervisor.Proof.FaultView
import RiscvHypervisor.Proof.Refinement
import RiscvHypervisor.Proof.Fences
import RiscvHypervisor.Proof.MachineRuns
import RiscvHypervisor.Proof.Panics
import RiscvHypervisor.Proof.PoolUse
