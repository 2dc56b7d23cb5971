import OpenGPU.Refinement.RtlLaunch

/-!
# The SystemVerilog GPU refines threads

A launch on the hardware model with DiffTest, of threads that do not interfere and that the
simulator finishes without a fault, from `gpu_model_init` to `gpu_model_wait`.
-/

namespace OpenGPU

open Instruction Verilog

/-- An `EBREAK` shifts nothing. -/
theorem Iss.AtEbreak.neverShiftsNegative
    {cfg : Config}
    {start : Iss}
    (atEbreak : AtEbreak cfg start) :
    NeverShiftsNegative cfg start := by
  intro s reached i turn shifts
  obtain ⟨rfl, rfl⟩ := atEbreak.only_turn reached turn
  have code := shifts.code
  rw [atEbreak.word] at code
  exact absurd code (by decide)

namespace RtlSim

/-- A launch of threads that do not interfere, on at most 8 lanes a warp, that the simulator
finishes without a fault, on the hardware model in DiffTest: all calls return, and
`gpu_model_wait` reports success exactly when no thread shifts a negative value arithmetically
and the limit leaves enough cycles, of which a number that is linear in the instructions is
enough. The GPU shows no fault then, and memory is that of the simulator. -/
theorem rtlRefinesThreads
    {cfg : Config}
    {info : LaunchInfo}
    {blockSize : Word}
    {s start final : Iss}
    {count : Nat}
    (threads : cfg.numThreads ≤ 8)
    (cores : cfg.numCores ≤ 32)
    (small : blockSize.toNat ≤ 32 * cfg.numThreads)
    (checked : info.gpuLaunchBlockSize cfg = some blockSize)
    (launched : s.modelLaunch cfg info blockSize = some start)
    (tame : Iss.Tame cfg start)
    (reached : Iss.ReachableIn cfg start count final)
    (finished : final.Finished) :
    ∃ bound ≤ cycleLimit cfg count info.gridDim.count,
      ∀ blank : Pmem, ∃ initial : RtlSim (vgpuTop cfg),
        (gpuRtlInit cfg .hardwareDiffTest).run blank = some (initial, blank) ∧
        ∀ maxCycles : Nat, ∃ (completed : Bool) (sim : RtlSim (vgpuTop cfg)) (after : Pmem),
          (initial.launchAndWait cfg info blockSize maxCycles).run s.pmem =
              some ((completed, sim), after) ∧
            (completed = true ↔ Iss.NeverShiftsNegative cfg start ∧ bound ≤ maxCycles) ∧
            (completed = true → sim.gpuRtlFault = false ∧ after = final.pmem) := by
  have narrow := threads.trans (show 8 ≤ 32 by decide)
  have accepted := LaunchInfo.accepted_of_gpuLaunchBlockSize checked
  obtain ⟨runs, rfl, same, last, rfl⟩ :=
    exists_launchRuns accepted launched tame reached finished
  rw [← same, ← last, ← runs.plain_iff launched tame reached.reachable finished]
  -- the launch of the cycle model
  obtain ⟨powered, inited⟩ := (Model.faithfulSets_of_le cores narrow small).exists_gpuModelInit
  obtain ⟨configured, configures⟩ := (Model.atRest_of_gpuModelInit inited).exists_configureModel
    (Model.faithfulSets_of_le cores narrow small) (info.configurationWrites blockSize)
  obtain ⟨rest, dcr, mem⟩ := (Model.atRest_of_gpuModelInit inited).configured configures runs.pmem
  obtain ⟨run, bound, clean, inTime, _⟩ :=
    rest.exists_cleanLaunch runs checked threads cores small dcr mem
  have enough := Model.two_le_of_idle accepted rest dcr clean.launch clean.ends
  refine ⟨bound - 1, by omega, fun blank => ?_⟩
  obtain ⟨initial, inits, ready, sameModel⟩ := exists_ready narrow inited blank
  refine ⟨initial, inits, fun maxCycles => ?_⟩
  obtain ⟨written, writes, ready, sameModel⟩ := (ready.write runs.pmem).exists_configure narrow
    (by rw [sameModel]; exact configures)
  rw [← sameModel] at clean dcr
  obtain ⟨pulsed, launches, progress⟩ :=
    ready.exists_launched checked threads small dcr clean (by omega)
  obtain ⟨completed, sim, after, waits, verdict, memory⟩ :=
    progress.exists_gpuRtlWait threads clean (by omega) maxCycles
  refine ⟨completed, sim, after, ?_, ?_, fun success => ?_⟩
  · unfold launchAndWait
    rw [LocalAction.run_bind, writes, Option.bind_some, LocalAction.run_bind, launches]
    exact waits
  · rw [verdict]
    exact and_congr_right' (by omega)
  · obtain ⟨noFault, _, whole⟩ := memory success
    exact ⟨noFault, whole⟩

/-- The two threads that part shift nothing. -/
theorem pairStart_neverShiftsNegative :
    Iss.NeverShiftsNegative Config.twoPairs (Model.pairStart Config.twoPairs) := by
  have codes : ∀ k, k < 9 →
      ∀ i ∈ (Iss.stateAfter Config.twoPairs (Model.pairStart Config.twoPairs) k).turn,
        opcode (Iss.wordAt (Iss.stateAfter Config.twoPairs (Model.pairStart Config.twoPairs) k).pmem
          ((Iss.stateAfter Config.twoPairs (Model.pairStart Config.twoPairs) k).cores i).pc) ∈
            [0x73, 0x37, 0x63, 0x23] := by decide +kernel
  intro s reached i turn shifts
  obtain ⟨k, early, rfl⟩ := Model.pairStart_endsAfter.exists_of_turn reached turn
  have listed := codes k early i turn
  rcases shifts.code with code | code <;> rw [code] at listed <;> exact absurd listed (by decide)

/-- Two lanes of a warp part at a branch and one of them stores: success depends on the limit
only, and the store is in memory then. -/
theorem rtlRefinesThreads_parting :
    ∃ bound ≤ cycleLimit Config.twoPairs 9 1,
      ∀ blank : Pmem, ∃ initial : RtlSim (vgpuTop Config.twoPairs),
        (gpuRtlInit Config.twoPairs .hardwareDiffTest).run blank = some (initial, blank) ∧
        ∀ maxCycles : Nat, ∃ (completed : Bool) (sim : RtlSim (vgpuTop Config.twoPairs))
            (after : Pmem),
          (initial.launchAndWait Config.twoPairs pairLaunch 2 maxCycles).run partingImage =
              some ((completed, sim), after) ∧
            (completed = true ↔ bound ≤ maxCycles) ∧
            (completed = true → sim.gpuRtlFault = false ∧ after 0x82000000 = 1) := by
  obtain ⟨bound, inTime, holds⟩ := rtlRefinesThreads (by decide) (by decide) (by decide)
    (by decide) Model.modelLaunch_pairStart Model.pairStart_tame
    Model.pairStart_endsAfter.reachableIn Model.pairStart_finished
  refine ⟨bound, inTime, fun blank => ?_⟩
  obtain ⟨initial, inits, launches⟩ := holds blank
  refine ⟨initial, inits, fun maxCycles => ?_⟩
  obtain ⟨completed, sim, after, ran, verdict, memory⟩ := launches maxCycles
  refine ⟨completed, sim, after, ran, ?_, fun success => ?_⟩
  · simpa [pairStart_neverShiftsNegative] using verdict
  · obtain ⟨noFault, same⟩ := memory success
    refine ⟨noFault, ?_⟩
    rw [same]
    decide +kernel

end RtlSim

end OpenGPU
