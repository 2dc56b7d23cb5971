import OpenGPU.Backend.Models

/-!
# Runs that only fetch

A run of DiffTest whose netlist reports no store and reads one word only leaves
physical memory alone. That can be decided by following the run.
-/

namespace OpenGPU

open LocalAction

/-- The evaluation reads the word at `entry` and nothing else. -/
def DpiCalls.readsOnly {State : Type} (cfg : Config) (entry : Word) :
    DpiCalls State → Pmem → Bool
  | .done _, _ => true
  | .paddrRead addr next, pmem =>
      addr == entry && (OpenGPU.dpiPaddrRead cfg pmem addr).all fun data =>
        (next data).readsOnly cfg entry pmem
  | .paddrWrite _ _ _ next, pmem => next.readsOnly cfg entry pmem
  | .diffState _ _ next, pmem => next.readsOnly cfg entry pmem

section

variable {cfg : Config} {build : Build} {entry : Word} {pmem : Pmem}

theorem looks_dpiPaddrRead :
    Looks (accessBytes entry 4) (PmemAction.dpiPaddrRead cfg entry) pmem := by
  unfold PmemAction.dpiPaddrRead
  split_ifs
  · exact looks_look (Set.Subset.refl _)
  · exact looks_ofOption _

theorem looks_perform
    {State : Type}
    (diffTest : build.diffTest = true)
    {calls : DpiCalls State}
    {dpi : DpiState}
    (only : calls.readsOnly cfg entry pmem = true) :
    Looks (accessBytes entry 4) (calls.perform cfg build dpi) pmem := by
  induction calls generalizing dpi with
  | done state => exact looks_ofOption _
  | paddrRead addr next inductionHypothesis =>
      obtain ⟨place, rest⟩ := Bool.and_eq_true_iff.mp only
      obtain rfl := beq_iff_eq.mp place
      refine looks_dpiPaddrRead.bind fun data ran => inductionHypothesis data ?_
      rw [PmemAction.run_dpiPaddrRead] at ran
      obtain ⟨_, read, same⟩ := Option.map_eq_some_iff.mp ran
      cases same
      rw [read] at rest
      exact rest
  | paddrWrite addr mask data next inductionHypothesis =>
      rw [DpiCalls.perform, if_pos diffTest]
      exact (looks_ofOption _).bind fun _ _ => inductionHypothesis only
  | diffState base words next inductionHypothesis => exact inductionHypothesis only

namespace RtlSim

variable {V : VGPUTop} {sim next : RtlSim V}

/-- An evaluation at the given clock level reads the word at `entry` and nothing else. -/
def evalReadsOnly (cfg : Config) (entry : Word) (clock : Bool) (sim : RtlSim V) (pmem : Pmem) :
    Bool :=
  (V.eval sim.pins clock sim.top).readsOnly cfg entry pmem

theorem looks_evalTop
    (diffTest : build.diffTest = true)
    {clock : Bool}
    (only : sim.evalReadsOnly cfg entry clock pmem = true) :
    Looks (accessBytes entry 4) (sim.evalTop cfg build clock) pmem :=
  (looks_perform diffTest only).bind fun _ _ => looks_ofOption _

/-- The netlist reports no store. -/
def storesNothing (cfg : Config) (sim : RtlSim V) : Bool :=
  (List.range cfg.numCores).all fun core =>
    sim.dpi.diffState (23 + core * diffCoreWords cfg + 23) == 0

theorem looks_beforeEdge
    {within : Set Word}
    (none : sim.storesNothing cfg = true) :
    Looks within (sim.beforeEdge cfg) pmem := by
  have idle : ∀ core ∈ List.range cfg.numCores, sim.takeStore cfg core = pure sim := by
    intro core member
    have zero := List.all_eq_true.mp none core member
    unfold takeStore
    rw [if_neg (not_not.mpr (beq_iff_eq.mp zero))]
  refine (looks_foldlM idle).1.bind fun taken _ => ?_
  exact (looks_ofOption _).bind fun _ _ => looks_ofOption _

theorem looks_afterEdge
    {within : Set Word}
    (clean : sim.dirtyBytes cfg = []) :
    Looks within (sim.afterEdge cfg) pmem := by
  refine Looks.bind ?_ fun _ _ => looks_ofOption _
  split_ifs
  · exact looks_ofOption _
  · unfold cycleDiffCheckMemory
    split_ifs with idle size full
    · exact looks_ofOption _
    · exact looks_ofOption _
    · exact full.elim
    · rw [clean]
      exact looks_look fun a member => absurd member List.not_mem_nil

/-- A tick of DiffTest reads the word at `entry` and nothing else, and stores nothing. -/
def quietTick (cfg : Config) (build : Build) (entry : Word) (pmem : Pmem) (sim : RtlSim V) : Bool :=
  sim.evalReadsOnly cfg entry false pmem &&
    ((sim.evalTop cfg build false).run pmem).all fun low =>
      low.1.storesNothing cfg && ((low.1.beforeEdge cfg).run pmem).all fun stepped =>
        stepped.1.evalReadsOnly cfg entry true pmem &&
          ((stepped.1.evalTop cfg build true).run pmem).all fun high =>
            high.1.evalReadsOnly cfg entry true pmem &&
              ((high.1.evalTop cfg build true).run pmem).all fun settled =>
                (settled.1.dirtyBytes cfg).isEmpty

/-- What a check of the result of an action says about a result. -/
theorem of_all
    {ρ : Type}
    {act : PmemAction ρ}
    {check : ρ × Pmem → Bool}
    (passes : (act.run pmem).all check = true)
    {answer : ρ}
    {after : Pmem}
    (ran : act.run pmem = some (answer, after)) :
    check (answer, after) = true := by
  rw [ran] at passes
  exact passes

theorem looks_tick
    (diffTest : build.diffTest = true)
    (quiet : sim.quietTick cfg build entry pmem = true) :
    Looks (accessBytes entry 4) (sim.tick cfg build) pmem := by
  obtain ⟨lowReads, quiet⟩ := Bool.and_eq_true_iff.mp quiet
  refine (looks_evalTop diffTest lowReads).bind fun low ran => ?_
  obtain ⟨stores, quiet⟩ := Bool.and_eq_true_iff.mp (of_all quiet ran)
  rw [if_pos diffTest]
  refine (looks_beforeEdge stores).bind fun stepped ran => ?_
  obtain ⟨highReads, quiet⟩ := Bool.and_eq_true_iff.mp (of_all quiet ran)
  refine (looks_evalTop diffTest highReads).bind fun high ran => ?_
  obtain ⟨settledReads, quiet⟩ := Bool.and_eq_true_iff.mp (of_all quiet ran)
  rw [if_pos diffTest]
  refine (looks_evalTop diffTest settledReads).bind fun settled ran => ?_
  exact looks_afterEdge (List.isEmpty_iff.mp (of_all quiet ran))

/-- Both ticks of `gpu_rtl_launch` are quiet. -/
def quietLaunch (cfg : Config) (build : Build) (entry : Word) (pmem : Pmem) (sim : RtlSim V) :
    Bool :=
  ((sim.cycleDiffBegin cfg).run pmem).all fun begun =>
    let pulse := { begun.1 with pins := { begun.1.pins with launch := true } }
    pulse.quietTick cfg build entry pmem &&
      ((pulse.tick cfg build).run pmem).all fun pulsed =>
        { pulsed.1 with pins := { pulsed.1.pins with launch := false } }.quietTick cfg build
          entry pmem

/-- A quiet launch looks at memory for the shadow memory, and changes nothing. -/
theorem looks_gpuRtlLaunch
    (diffTest : build.diffTest = true)
    (quiet : sim.quietLaunch cfg build entry pmem = true) :
    Looks Set.univ (sim.gpuRtlLaunch cfg build) pmem := by
  unfold gpuRtlLaunch
  rw [if_pos diffTest]
  refine (looks_look (Set.subset_univ _)).bind fun begun ran => ?_
  obtain ⟨pulse, quiet⟩ := Bool.and_eq_true_iff.mp (of_all quiet ran)
  refine ((looks_tick diffTest pulse).mono (Set.subset_univ _)).bind fun pulsed ran => ?_
  exact (looks_tick diffTest (of_all quiet ran)).mono (Set.subset_univ _)

/-- The loop of `gpu_rtl_wait` leaves within some rounds, all of them quiet. -/
def quietRounds (cfg : Config) (build : Build) (entry : Word) (pmem : Pmem) :
    Nat → RtlSim V → Bool
  | 0, _ => false
  | rounds + 1, sim =>
      sim.quietTick cfg build entry pmem &&
        ((waitCycle cfg build sim).run pmem).all fun result =>
          match result.1 with
          | .inl _ => true
          | .inr next => quietRounds cfg build entry pmem rounds next

theorem looks_waitCycle
    (diffTest : build.diffTest = true)
    (quiet : sim.quietTick cfg build entry pmem = true) :
    Looks (accessBytes entry 4) (waitCycle cfg build sim) pmem := by
  refine (looks_tick diffTest quiet).bind fun ticked _ => ?_
  split_ifs <;> exact looks_ofOption _

/-- Such a loop only fetches. -/
theorem looks_waitCycles
    (diffTest : build.diffTest = true)
    {rounds : Nat}
    (quiet : sim.quietRounds cfg build entry pmem rounds = true)
    (maxCycles : Nat) :
    Looks (accessBytes entry 4) (sim.waitCycles cfg build maxCycles) pmem := by
  refine looks_loop
    (fun (reached : RtlSim V) => ∃ rounds, reached.quietRounds cfg build entry pmem rounds = true)
    ?_ ?_ ⟨rounds, quiet⟩ maxCycles
  · rintro reached ⟨_ | count, quiet⟩
    · cases quiet
    · exact looks_waitCycle diffTest (Bool.and_eq_true_iff.mp quiet).1
  · rintro reached later ⟨_ | count, quiet⟩ ran
    · cases quiet
    · exact ⟨count, of_all (Bool.and_eq_true_iff.mp quiet).2 ran⟩

end RtlSim

end

end OpenGPU
