import OpenGPU.Verilog.Top

/-!
# The RTL driver

The functions of `sw/sim/hm/rtl.cpp` in a build without lockstep comparison. The
memories may answer differently in every cycle, so a run is taken over a stream
of read data indexed by the cycle counter.
-/

namespace OpenGPU

namespace Verilog

/-- The driver's state: the simulated GPU and the cycle counter. -/
structure Rtl (cfg : Config) where
  top : GPUTop cfg
  cycles : Nat

namespace Rtl

variable {cfg : Config}

/-- A simulation before its first tick. -/
def powerOn (cfg : Config) : Rtl cfg := ⟨⟨GPUKmu.fresh, fun _ => GPUCore.fresh⟩, 0⟩

/-- `tick` with the given pins. -/
def tick (env : Nat → ReadData) (pins : ReadData → TopInputs) (rtl : Rtl cfg) :
    Rtl cfg where
  top := rtl.top.posedge (pins (env rtl.cycles))
  cycles := rtl.cycles + 1

/-- A tick with nothing asserted. -/
def idleTick (env : Nat → ReadData) (rtl : Rtl cfg) : Rtl cfg :=
  rtl.tick env TopInputs.idle

/-- The tick of `gpu_rtl_launch` with the launch pin high. -/
def pulseTick (env : Nat → ReadData) (rtl : Rtl cfg) : Rtl cfg :=
  rtl.tick env TopInputs.launchPulse

/-- `reset`. -/
def reset (env : Nat → ReadData) (rtl : Rtl cfg) : Rtl cfg :=
  rtl.tick env fun rdata => ⟨true, DcrIf.idle, false, rdata⟩

/-- `rtl_init` and `gpu_rtl_init`. -/
def gpuRtlInit (env : Nat → ReadData) (rtl : Rtl cfg) : Rtl cfg :=
  (rtl.reset env).idleTick env

/-- `gpu_rtl_dcr_write`; the address pins are twelve bits wide. -/
def gpuRtlDcrWrite (env : Nat → ReadData) (addr data : Word) (rtl : Rtl cfg) : Rtl cfg :=
  rtl.tick env (TopInputs.dcrWrite (addr.setWidth 12) data)

/-- `gpu_rtl_launch`. -/
def gpuRtlLaunch (env : Nat → ReadData) (rtl : Rtl cfg) : Rtl cfg :=
  (rtl.pulseTick env).idleTick env

/-- `gpu_rtl_wait`. -/
def gpuRtlWait (env : Nat → ReadData) : Nat → Rtl cfg → Bool × Rtl cfg
  | 0, rtl => (!rtl.top.gpuBusy && !rtl.top.gpuFault, rtl)
  | maxCycles + 1, rtl =>
      let next := rtl.idleTick env
      if next.top.gpuFault then (false, next)
      else if !next.top.gpuBusy then (true, next)
      else gpuRtlWait env maxCycles next

/-- The states before each tick of `gpu_rtl_launch`. -/
def launchTicks (env : Nat → ReadData) (rtl : Rtl cfg) : List (Rtl cfg) :=
  [rtl, rtl.pulseTick env]

/-- The states before each tick of `gpu_rtl_wait`. -/
def waitTicks (env : Nat → ReadData) : Nat → Rtl cfg → List (Rtl cfg)
  | 0, _ => []
  | maxCycles + 1, rtl =>
      let next := rtl.idleTick env
      rtl ::
        if next.top.gpuFault || !next.top.gpuBusy then []
        else waitTicks env maxCycles next

/-- The states that any history of driver calls can leave behind. -/
inductive Used (env : Nat → ReadData) : Rtl cfg → Prop
  | init (rtl : Rtl cfg) : Used env (rtl.gpuRtlInit env)
  | dcrWrite {rtl : Rtl cfg} (addr data : Word) (used : Used env rtl) :
      Used env (rtl.gpuRtlDcrWrite env addr data)
  | launch {rtl : Rtl cfg} (used : Used env rtl) : Used env (rtl.gpuRtlLaunch env)
  | wait {rtl : Rtl cfg} (maxCycles : Nat) (used : Used env rtl) :
      Used env (rtl.gpuRtlWait env maxCycles).2

/-- A reset settles the GPU. -/
theorem settled_reset
    (env : Nat → ReadData)
    (rtl : Rtl cfg) :
    (rtl.reset env).top.Settled where
  cores core inRange := by
    rw [reset, tick, GPUTop.posedge_core _ _ inRange]
    exact fun _ => rfl
  rrCore := cfg.numCores_pos

theorem settled_tick
    {env : Nat → ReadData}
    {rtl : Rtl cfg}
    (settled : rtl.top.Settled)
    (pins : ReadData → TopInputs) :
    (rtl.tick env pins).top.Settled :=
  settled.posedge _

theorem settled_wait
    {env : Nat → ReadData}
    {rtl : Rtl cfg}
    (settled : rtl.top.Settled)
    (maxCycles : Nat) :
    (rtl.gpuRtlWait env maxCycles).2.top.Settled := by
  induction maxCycles generalizing rtl with
  | zero => exact settled
  | succ maxCycles inductionHypothesis =>
      have ticked : (rtl.idleTick env).top.Settled := settled_tick settled _
      simp only [gpuRtlWait]
      split_ifs
      · exact ticked
      · exact ticked
      · exact inductionHypothesis ticked

/-- Every used GPU is settled. -/
theorem Used.settled
    {env : Nat → ReadData}
    {rtl : Rtl cfg}
    (used : Used env rtl) :
    rtl.top.Settled := by
  induction used with
  | init rtl => exact settled_tick (settled_reset env rtl) _
  | dcrWrite addr data _ inductionHypothesis => exact settled_tick inductionHypothesis _
  | launch _ inductionHypothesis => exact settled_tick (settled_tick inductionHypothesis _) _
  | wait maxCycles _ inductionHypothesis => exact settled_wait inductionHypothesis maxCycles

end Rtl

end Verilog

end OpenGPU
