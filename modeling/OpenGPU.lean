import OpenGPU.Cycle.Fairness
import OpenGPU.Cycle.MemoryLoop
import OpenGPU.Cycle.PathStack
import OpenGPU.Cycle.ShiftAmounts
import OpenGPU.Iss.IllegalWords
import OpenGPU.Iss.Admission
import OpenGPU.Iss.Faults
import OpenGPU.Iss.PrivateStacks
import OpenGPU.Iss.RoundRobin
import OpenGPU.Iss.Schedules
import OpenGPU.Chisel.InstructionCycles
import OpenGPU.Dispatch.Arbitration
import OpenGPU.Dispatch.Coordinates
import OpenGPU.Dispatch.FaultAttribution
import OpenGPU.Dispatch.Isolation
import OpenGPU.Dispatch.KmuLockstep
import OpenGPU.Dispatch.LaunchArithmetic
import OpenGPU.Dispatch.PhysicalId
import OpenGPU.Lockstep.CoreRange
import OpenGPU.Lockstep.MemoryAccess
import OpenGPU.Lockstep.MinorOpcodes
import OpenGPU.Lockstep.PackedState
import OpenGPU.Lockstep.ScalaExec
import OpenGPU.Lockstep.ThreadStep
import OpenGPU.Runtime.Containment
import OpenGPU.Runtime.FailedLaunch
import OpenGPU.Runtime.FirstFit
import OpenGPU.Runtime.HostWork
import OpenGPU.Runtime.Ownership
import OpenGPU.Kernel.GlobalSize
import OpenGPU.Backend.StoreOrder
import OpenGPU.Refinement.RtlRefinesThreads
import OpenGPU.Refinement.WarpsRefineThreads
import OpenGPU.Refinement.Sessions
