import OpenGPU.Foundation.RoundRobin
import OpenGPU.Iss.Accesses

/-!
# The instruction-set simulator: rounds

`gpu_iss_step` goes round robin, so contexts that still run keep in step: in every
round each of them executes one instruction, in the order of the hart ids. A lane
that is about to execute `JALR` finds the lanes of its path at the same instruction,
and so its comparison of targets keeps them together.
-/

namespace OpenGPU

namespace Iss

open Instruction

/-- The context that the next `gpu_iss_step` runs. -/
def turn (s : Iss) : Option Nat :=
  if s.done then none else circularFirst s.ncores s.rr s.live

/-- An executed instruction: where it stood and which word it was. -/
structure Executed where
  pc : Word
  inst : Word
  deriving DecidableEq

/-- The next instruction of a context. -/
def nextInstruction (s : Iss) (index : Nat) : Executed :=
  ⟨(s.cores index).pc, wordAt s.pmem (s.cores index).pc⟩

/-- What all contexts have executed after the next step, newest first. -/
def record (s : Iss) (history : Nat → List Executed) : Nat → List Executed :=
  match s.turn with
  | some index =>
      Function.update history index (s.nextInstruction index :: history index)
  | none => history

/-- Calls of `gpu_iss_step`, with what every context has executed so far. -/
inductive Recorded (cfg : Config) (start : Iss) : Iss → (Nat → List Executed) → Prop
  | start : Recorded cfg start start fun _ => []
  | step {s next : Iss} {history : Nat → List Executed} {moved : Bool} :
      Recorded cfg start s history →
      gpuIssStep cfg s = some (moved, next) →
      Recorded cfg start next (s.record history)

/-! ## One step -/

/-- Where an instruction other than `JALR` leads. -/
structure LeadsTo (executed : Executed) (pc : Word) : Prop where
  branch : opcode executed.inst = 0x63 →
    pc = executed.pc + immB executed.inst ∨ pc = executed.pc + 4
  jal : opcode executed.inst = 0x6f → pc = executed.pc + immJ executed.inst
  straight : opcode executed.inst ≠ 0x63 → opcode executed.inst ≠ 0x6f →
    opcode executed.inst ≠ 0x67 → pc = executed.pc + 4

section Step

variable {cfg : Config} {core : IssCore} {pmem : Pmem} {laneDiverges : Word → Word → Bool}
  {inst : Word} {result : StepResult}

/-- What an instruction that does not fault has done to the context: `EBREAK` halts
it, and any other one leads somewhere. -/
structure GoesOn (core : IssCore) (inst : Word) (after : IssCore) : Prop where
  noBreak : inst ≠ ebreak
  halted : after.halted = core.halted
  leads : LeadsTo ⟨core.pc, inst⟩ after.pc

theorem ne_ebreak_of_opcode
    (noSystem : opcode inst ≠ 0x73) :
    inst ≠ ebreak := by
  rintro rfl
  exact noSystem (by decide)

/-- An instruction that retires at the next word. -/
theorem goesOn_straight
    {written : Pmem}
    {value : Word}
    (noBreak : inst ≠ ebreak)
    (noBranch : opcode inst ≠ 0x63)
    (noJal : opcode inst ≠ 0x6f) :
    GoesOn core inst (retire core written inst value (core.pc + 4) false).core where
  noBreak := noBreak
  halted := Bool.or_false _
  leads :=
    { branch := fun code => absurd code noBranch
      jal := fun code => absurd code noJal
      straight := fun _ _ _ => rfl }

/-- What a step without a fault does. -/
theorem dispatch_goesOn
    (ran : dispatch cfg core pmem laneDiverges inst = some result)
    (clean : result.faulted = false) :
    (inst = ebreak ∧ result.core.halted = true) ∨ GoesOn core inst result.core := by
  have arm : ∀ {code : Word}, opcode inst = code → code ≠ 0x73 → code ≠ 0x63 → code ≠ 0x6f →
      ∀ {written value}, GoesOn core inst
        (retire core written inst value (core.pc + 4) false).core := by
    intro code found noSystem noBranch noJal written value
    rw [← found] at noSystem noBranch noJal
    exact goesOn_straight (ne_ebreak_of_opcode noSystem) noBranch noJal
  by_cases known : Known (opcode inst)
  · rcases known with code | code | code | code | code | code | code | code | code | code
    · rw [dispatch_lui code] at ran
      cases ran
      exact Or.inr (arm code (by decide) (by decide) (by decide))
    · rw [dispatch_auipc code] at ran
      cases ran
      exact Or.inr (arm code (by decide) (by decide) (by decide))
    · rw [dispatch_opImm code] at ran
      cases computed : opImm inst (core.gpr (rs1 inst).toNat) <;> rw [computed] at ran <;>
        cases ran
      · cases clean
      · exact Or.inr (arm code (by decide) (by decide) (by decide))
    · rw [dispatch_op code] at ran
      cases computed : op inst (core.gpr (rs1 inst).toNat) (core.gpr (rs2 inst).toNat) <;>
        rw [computed] at ran <;> cases ran
      · cases clean
      · exact Or.inr (arm code (by decide) (by decide) (by decide))
    · rw [dispatch_load code, Option.map_eq_some_iff] at ran
      obtain ⟨⟨value, faulted⟩, _, rfl⟩ := ran
      cases clean
      exact Or.inr (arm code (by decide) (by decide) (by decide))
    · rw [dispatch_store code, Option.map_eq_some_iff] at ran
      obtain ⟨⟨written, faulted⟩, _, rfl⟩ := ran
      cases clean
      exact Or.inr (arm code (by decide) (by decide) (by decide))
    · rw [dispatch_branch code] at ran
      cases taken : branchTake inst (core.gpr (rs1 inst).toNat) (core.gpr (rs2 inst).toNat) with
      | none =>
          rw [taken] at ran
          cases ran
          cases clean
      | some take =>
          rw [taken] at ran
          cases ran
          refine Or.inr ⟨ne_ebreak_of_opcode (by rw [code]; decide), Bool.or_false _, ?_⟩
          refine ⟨fun _ => ?_, fun other => ?_, fun other => absurd code other⟩
          · cases take
            · exact Or.inr rfl
            · exact Or.inl rfl
          · exact absurd (code.symm.trans other) (by decide)
    · rw [dispatch_jal code] at ran
      cases ran
      refine Or.inr ⟨ne_ebreak_of_opcode (by rw [code]; decide), Bool.or_false _, ?_⟩
      refine ⟨fun other => ?_, fun _ => rfl, fun _ other => absurd code other⟩
      exact absurd (code.symm.trans other) (by decide)
    · rw [dispatch_jalr code] at ran
      split_ifs at ran <;> cases ran
      · cases clean
      · refine Or.inr ⟨ne_ebreak_of_opcode (by rw [code]; decide), Bool.or_false _, ?_⟩
        refine ⟨fun other => ?_, fun other => ?_, fun _ _ other => absurd code other⟩
        · exact absurd (code.symm.trans other) (by decide)
        · exact absurd (code.symm.trans other) (by decide)
    · rw [dispatch_system code] at ran
      split_ifs at ran with stop
      · cases ran
        exact Or.inl ⟨stop, rfl⟩
      · cases read : core.csrValue (csr inst) <;> rw [read] at ran <;> cases ran
        · cases clean
        · exact Or.inr (goesOn_straight stop (by rw [code]; decide) (by rw [code]; decide))
      · cases ran
        cases clean
  · rw [dispatch_reserved known] at ran
    cases ran
    cases clean

/-- A `JALR` that does not fault goes to its target, and no lane disagrees. -/
theorem dispatch_jalr_target
    (jump : opcode inst = 0x67)
    (ran : dispatch cfg core pmem laneDiverges inst = some result)
    (clean : result.faulted = false) :
    result.core.pc = core.jalrTarget inst ∧
      laneDiverges inst (core.jalrTarget inst) = false := by
  rw [dispatch_jalr jump] at ran
  split_ifs at ran with diverges <;> cases ran
  · cases clean
  · exact ⟨rfl, Bool.eq_false_iff.mpr diverges⟩

/-- An instruction that does not fault passes the register check and is the word at
the program counter. -/
theorem dispatch_of_clean
    (ran : execute cfg core pmem laneDiverges = some result)
    (clean : result.faulted = false) :
    dispatch cfg core pmem laneDiverges (wordAt pmem core.pc) = some result := by
  rw [execute_eq] at ran
  split_ifs at ran
  · cases ran
    cases clean
  · exact ran

end Step

section Rounds

variable {cfg : Config} {s next : Iss}

/-- A call runs the context whose turn it is, or does nothing. -/
theorem gpuIssStep_cases
    {moved : Bool}
    (inRange : s.rr < s.ncores)
    (stepped : gpuIssStep cfg s = some (moved, next)) :
    (moved = true ∧ ∃ index, s.turn = some index ∧
        stepCore cfg { s with rr := (index + 1) % s.ncores } index = some next) ∨
      (moved = false ∧ s.turn = none ∧ next = s) := by
  rw [gpuIssStep_eq cfg s inRange] at stepped
  unfold turn
  split_ifs at stepped ⊢
  · cases stepped
    exact Or.inr ⟨rfl, rfl, rfl⟩
  · cases found : circularFirst s.ncores s.rr s.live with
    | none =>
        rw [found] at stepped
        cases stepped
        exact Or.inr ⟨rfl, rfl, rfl⟩
    | some index =>
        rw [found, Option.map_eq_some_iff] at stepped
        obtain ⟨after, ran, shape⟩ := stepped
        cases shape
        exact Or.inl ⟨rfl, index, rfl, ran⟩

/-- The context whose turn it is runs. -/
theorem turn_eq_some
    {index : Nat}
    (chosen : s.turn = some index) :
    circularFirst s.ncores s.rr s.live = some index := by
  unfold turn at chosen
  split_ifs at chosen
  exact chosen

/-- Without a fault some context has its turn as long as one of them runs. -/
theorem halted_of_turn_eq_none
    (clean : s.faulted = false)
    (nobody : s.turn = none) :
    ∀ index, index < s.ncores → (s.cores index).halted = true := by
  intro index inRange
  unfold turn at nobody
  split_ifs at nobody with finished
  · rw [done, clean, Bool.false_or, Bool.and_eq_true, List.all_eq_true] at finished
    exact finished.1 index (List.mem_range.mpr inRange)
  · have idle := circularFirst_eq_none_iff.mp nobody index inRange
    rwa [live, Bool.not_eq_false'] at idle

/-- What a step that raises no fault has done. -/
theorem stepCore_of_clean
    {index rr : Nat}
    (ran : stepCore cfg { s with rr := rr } index = some next)
    (clean : next.faulted = false) :
    s.faulted = false ∧ ∃ result : StepResult,
      dispatch cfg (s.cores index) s.pmem (s.laneDiverges index)
          (s.nextInstruction index).inst = some result ∧
        result.faulted = false ∧
        next =
          { s with
            rr := rr
            cores := Function.update s.cores index result.core
            pmem := result.pmem } := by
  rw [stepCore, Option.map_eq_some_iff] at ran
  obtain ⟨result, executed, rfl⟩ := ran
  obtain ⟨before, now⟩ := Bool.or_eq_false_iff.mp clean
  refine ⟨before, result, dispatch_of_clean executed now, now, ?_⟩
  have before : s.faulted = false := before
  simp only [before, now, Bool.or_self]

/-- Contexts of a warp that both run. -/
structure Together (s : Iss) (i j : Nat) : Prop where
  order : i < j
  inRange : j < s.ncores
  sameWarp : (s.cores i).sameWarp (s.cores j) = true
  first : s.live i = true
  second : s.live j = true

/-- The contexts of a launch go round by round, and `JALR` keeps the contexts of a
warp that reach it together at one address. -/
structure InStep (startupPc : Word) (s : Iss) (history : Nat → List Executed) : Prop where
  round : ∃ round, InRound s.ncores s.rr round s.live fun i => (history i).length
  fresh : ∀ i, i < s.ncores → history i = [] → (s.cores i).pc = startupPc
  leads : ∀ i, i < s.ncores → s.live i = true → ∀ last ∈ (history i).head?,
    last.inst ≠ ebreak ∧ LeadsTo last (s.cores i).pc
  ended : ∀ i, i < s.ncores → s.live i = false → ∃ last ∈ (history i).head?,
    last.inst = ebreak
  ahead : ∀ i j, s.Together i j → (history i).length = (history j).length + 1 →
    ∀ last ∈ (history i).head?, last.pc = (s.cores j).pc → opcode last.inst = 0x67 →
      (s.cores i).pc = (s.cores j).jalrTarget last.inst
  level : ∀ i j, s.Together i j → (history i).length = (history j).length →
    ∀ last ∈ (history i).head?, last ∈ (history j).head? → opcode last.inst = 0x67 →
      (s.cores i).pc = (s.cores j).pc

variable {history : Nat → List Executed} {startupPc : Word}

/-- A context of a warp with a smaller number is never behind. -/
theorem InStep.spread
    (inStep : InStep startupPc s history)
    {i j : Nat}
    (together : s.Together i j) :
    (history j).length ≤ (history i).length ∧
      (history i).length ≤ (history j).length + 1 := by
  obtain ⟨round, inRound⟩ := inStep.round
  exact inRound.turns_le together.order together.inRange together.first together.second

/-- The comparison of `JALR` has found no lane that stands at the instruction and
goes elsewhere. -/
theorem target_of_not_diverges
    {i j : Nat}
    {inst target : Word}
    (together : s.Together i j)
    (agree : s.laneDiverges i inst target = false)
    (here : (s.cores j).pc = (s.cores i).pc) :
    (s.cores j).jalrTarget inst = target := by
  have compared := List.any_eq_false.mp agree j (List.mem_range.mpr together.inRange)
  have awake : (s.cores j).halted = false := by
    have running := together.second
    rwa [live, Bool.not_eq_true'] at running
  have other : (j != i) = true := bne_iff_ne.mpr (Nat.ne_of_gt together.order)
  simpa [awake, other, here, together.sameWarp] using compared

/-- The lanes of a thread do not move between warps. -/
theorem sameWarp_of_sameThread
    {left left' right right' : IssCore}
    (sameLeft : left.SameThread left')
    (sameRight : right.SameThread right') :
    left'.sameWarp right' = left.sameWarp right := by
  unfold IssCore.SameThread at sameLeft sameRight
  rw [sameLeft, sameRight]
  rfl

/-- Context `k` has had its turn: it has executed its word without a fault, and no other
context has moved. -/
structure Turned (s next : Iss) (k : Nat) : Prop where
  chosen : s.turn = some k
  rr : next.rr = (k + 1) % s.ncores
  ncores : next.ncores = s.ncores
  others : ∀ i, i ≠ k → next.cores i = s.cores i
  thread : (s.cores k).SameThread (next.cores k)
  moved : ((s.nextInstruction k).inst = ebreak ∧ (next.cores k).halted = true) ∨
    GoesOn (s.cores k) (s.nextInstruction k).inst (next.cores k)
  jumped : opcode (s.nextInstruction k).inst = 0x67 →
    (next.cores k).pc = (s.cores k).jalrTarget (s.nextInstruction k).inst ∧
      s.laneDiverges k (s.nextInstruction k).inst
        ((s.cores k).jalrTarget (s.nextInstruction k).inst) = false

/-- A step without a fault is a turn. -/
theorem turned_of_clean
    {k : Nat}
    (chosen : s.turn = some k)
    (ran : stepCore cfg { s with rr := (k + 1) % s.ncores } k = some next)
    (clean : next.faulted = false) :
    Turned s next k := by
  obtain ⟨_, result, dispatched, noFault, rfl⟩ := stepCore_of_clean ran clean
  have own : Function.update s.cores k result.core k = result.core := Function.update_self ..
  refine ⟨chosen, rfl, rfl, fun i other => Function.update_of_ne other _ _, ?_, ?_, ?_⟩
  · show (s.cores k).SameThread (Function.update s.cores k result.core k)
    rw [own]
    rcases dispatch_cases dispatched with ⟨_, _, _, _, rfl⟩ | rfl | rfl <;> rfl
  · show _ ∧ (Function.update s.cores k result.core k).halted = true ∨
      GoesOn _ _ (Function.update s.cores k result.core k)
    rw [own]
    exact dispatch_goesOn dispatched noFault
  · intro jump
    show (Function.update s.cores k result.core k).pc = _ ∧ _
    rw [own]
    exact dispatch_jalr_target jump dispatched noFault

section Turned

variable {k : Nat} (turned : Turned s next k)
include turned

theorem Turned.record_self :
    s.record history k = s.nextInstruction k :: history k := by
  rw [record, turned.chosen]
  exact Function.update_self ..

theorem Turned.record_of_ne
    {i : Nat}
    (other : i ≠ k) :
    s.record history i = history i := by
  rw [record, turned.chosen]
  exact Function.update_of_ne other _ _

theorem Turned.running : s.live k = true := circularFirst_ready (turn_eq_some turned.chosen)

/-- No context wakes up. -/
theorem Turned.live_of_live
    {i : Nat}
    (awake : next.live i = true) :
    s.live i = true := by
  rcases eq_or_ne i k with rfl | other
  · exact turned.running
  · rwa [live, turned.others i other] at awake

theorem Turned.sameThread
    (i : Nat) :
    (s.cores i).SameThread (next.cores i) := by
  rcases eq_or_ne i k with rfl | other
  · exact turned.thread
  · rw [turned.others i other]
    exact IssCore.SameThread.refl _

theorem Turned.together
    {i j : Nat}
    (together : next.Together i j) :
    s.Together i j := by
  refine ⟨together.order, turned.ncores ▸ together.inRange, ?_,
    turned.live_of_live together.first, turned.live_of_live together.second⟩
  rw [← together.sameWarp, sameWarp_of_sameThread (turned.sameThread i) (turned.sameThread j)]

/-- The round goes on. -/
theorem Turned.round
    (inStep : InStep startupPc s history)
    (inRange : s.rr < s.ncores) :
    ∃ round, InRound next.ncores next.rr round next.live
      fun i => (s.record history i).length := by
  obtain ⟨round, inRound⟩ := inStep.round
  obtain ⟨round', inRound'⟩ :=
    inRound.turn inRange (turn_eq_some turned.chosen) fun _ => turned.live_of_live
  rw [turned.ncores, turned.rr]
  refine ⟨round', ?_⟩
  convert inRound' using 1
  funext i
  rcases eq_or_ne i k with rfl | other
  · rw [turned.record_self, Function.update_self, List.length_cons]
  · rw [turned.record_of_ne other, Function.update_of_ne other]

/-- The newest instruction of a context that still runs leads to where it stands. -/
theorem Turned.leads
    (inStep : InStep startupPc s history)
    {i : Nat}
    (bound : i < s.ncores)
    (awake : next.live i = true) :
    ∀ last ∈ (s.record history i).head?, last.inst ≠ ebreak ∧ LeadsTo last (next.cores i).pc := by
  intro last newest
  rcases eq_or_ne i k with rfl | other
  · rw [turned.record_self] at newest
    cases newest
    rcases turned.moved with ⟨_, stopped⟩ | goesOn
    · rw [live, Bool.not_eq_true'] at awake
      exact absurd (awake.symm.trans stopped) Bool.false_ne_true
    · exact ⟨goesOn.noBreak, goesOn.leads⟩
  · rw [turned.record_of_ne other] at newest
    rw [turned.others i other]
    exact inStep.leads i bound (turned.live_of_live awake) last newest

/-- A context that has stopped has executed `EBREAK` last. -/
theorem Turned.ended
    (inStep : InStep startupPc s history)
    {i : Nat}
    (bound : i < s.ncores)
    (asleep : next.live i = false) :
    ∃ last ∈ (s.record history i).head?, last.inst = ebreak := by
  rcases eq_or_ne i k with rfl | other
  · rw [turned.record_self]
    rcases turned.moved with ⟨stop, _⟩ | goesOn
    · exact ⟨_, rfl, stop⟩
    · have running := turned.running
      rw [live, ← goesOn.halted] at running
      exact absurd (asleep.symm.trans running) Bool.false_ne_true
  · rw [live, turned.others i other] at asleep
    rw [turned.record_of_ne other]
    exact inStep.ended i bound asleep

/-- A context that is one `JALR` ahead has gone where the later one will go. -/
theorem Turned.ahead
    (inStep : InStep startupPc s history)
    {i j : Nat}
    (together : next.Together i j)
    (lengths : (s.record history i).length = (s.record history j).length + 1) :
    ∀ last ∈ (s.record history i).head?, last.pc = (next.cores j).pc → opcode last.inst = 0x67 →
      (next.cores i).pc = (next.cores j).jalrTarget last.inst := by
  intro last newest here jump
  have was := turned.together together
  rcases eq_or_ne i k with rfl | iOther
  · have apart := Nat.ne_of_gt was.order
    rw [turned.record_self] at newest
    rw [turned.others j apart] at here ⊢
    cases newest
    obtain ⟨target, agree⟩ := turned.jumped jump
    rw [target]
    exact (target_of_not_diverges was agree here.symm).symm
  · rcases eq_or_ne j k with rfl | jOther
    · -- the later context cannot fall two turns behind
      have spread := (inStep.spread was).2
      rw [turned.record_self, turned.record_of_ne iOther, List.length_cons] at lengths
      omega
    · rw [turned.record_of_ne iOther, turned.record_of_ne jOther] at lengths
      rw [turned.record_of_ne iOther] at newest
      rw [turned.others j jOther] at here ⊢
      rw [turned.others i iOther]
      exact inStep.ahead i j was lengths last newest here jump

/-- Contexts that have executed the same `JALR` stand at one address. -/
theorem Turned.level
    (inStep : InStep startupPc s history)
    {i j : Nat}
    (together : next.Together i j)
    (lengths : (s.record history i).length = (s.record history j).length) :
    ∀ last ∈ (s.record history i).head?, last ∈ (s.record history j).head? →
      opcode last.inst = 0x67 → (next.cores i).pc = (next.cores j).pc := by
  intro last newest newest' jump
  have was := turned.together together
  rcases eq_or_ne i k with rfl | iOther
  · have apart := Nat.ne_of_gt was.order
    have spread := (inStep.spread was).1
    rw [turned.record_self, turned.record_of_ne apart, List.length_cons] at lengths
    omega
  · rw [turned.record_of_ne iOther] at newest lengths
    rw [turned.others i iOther]
    rcases eq_or_ne j k with rfl | jOther
    · -- the earlier context has gone where the later one is going now
      rw [turned.record_self] at newest' lengths
      cases newest'
      rw [(turned.jumped jump).1]
      exact inStep.ahead i j was lengths _ newest rfl jump
    · rw [turned.record_of_ne jOther] at newest' lengths
      rw [turned.others j jOther]
      exact inStep.level i j was lengths last newest newest' jump

/-- A turn goes on with the round and keeps the lanes of a path together. -/
theorem Turned.inStep
    (inStep : InStep startupPc s history)
    (inRange : s.rr < s.ncores) :
    InStep startupPc next (s.record history) where
  round := turned.round inStep inRange
  fresh i bound empty := by
    rw [turned.ncores] at bound
    rcases eq_or_ne i k with rfl | other
    · rw [turned.record_self] at empty
      exact absurd empty (List.cons_ne_nil _ _)
    · rw [turned.record_of_ne other] at empty
      rw [turned.others i other]
      exact inStep.fresh i bound empty
  leads _ bound awake := turned.leads inStep (turned.ncores ▸ bound) awake
  ended _ bound asleep := turned.ended inStep (turned.ncores ▸ bound) asleep
  ahead _ _ together lengths := turned.ahead inStep together lengths
  level _ _ together lengths := turned.level inStep together lengths

end Turned

/-! ## Runs -/

/-- A launch begins a round, with every context at the entry point. -/
theorem inStep_launched
    {start : Iss}
    (launched : s.gpuIssLaunch cfg = some start) :
    InStep start.startupPc start fun _ => [] := by
  obtain ⟨_, _, _, rfl⟩ := gpuIssLaunch_eq_some launched
  exact
    { round := ⟨0, fun _ _ _ => rfl⟩
      fresh := fun _ _ _ => rfl
      leads := fun _ _ _ _ newest => absurd newest (Option.not_mem_none _)
      ended := fun _ _ asleep => Bool.noConfusion asleep
      ahead := fun _ _ _ _ _ newest => absurd newest (Option.not_mem_none _)
      level := fun _ _ _ _ _ newest => absurd newest (Option.not_mem_none _) }

theorem Recorded.reachable
    {start : Iss}
    (reached : Recorded cfg start s history) :
    Reachable cfg start s := by
  induction reached with
  | start => exact .refl
  | step _ stepped inductionHypothesis => exact inductionHypothesis.step stepped

/-- Every run without a fault goes round by round. -/
theorem Recorded.inStep
    {origin start : Iss}
    (launched : origin.gpuIssLaunch cfg = some start)
    (reached : Recorded cfg start s history)
    (clean : s.faulted = false) :
    InStep start.startupPc s history := by
  have inRange : start.rr < start.ncores := by
    obtain ⟨positive, _, _, rfl⟩ := gpuIssLaunch_eq_some launched
    exact positive
  induction reached with
  | start => exact inStep_launched launched
  | @step s next history moved reached stepped inductionHypothesis =>
      have pointer := (reached.reachable.sameLaunch inRange).rr_lt
      rcases gpuIssStep_cases pointer stepped with ⟨_, k, chosen, ran⟩ | ⟨_, nobody, rfl⟩
      · have before := (stepCore_of_clean ran clean).1
        exact (turned_of_clean chosen ran clean).inStep (inductionHypothesis before) pointer
      · unfold record
        rw [nobody]
        exact inductionHypothesis clean

/-- The hart ids of a launch are the numbers of its contexts. -/
theorem Reachable.hartid_lt_iff
    {origin start : Iss}
    (launched : origin.gpuIssLaunch cfg = some start)
    (reached : Reachable cfg start s)
    {i j : Nat}
    (first : i < s.ncores)
    (second : j < s.ncores) :
    (s.cores i).hartid < (s.cores j).hartid ↔ i < j := by
  have inRange : start.rr < start.ncores := by
    obtain ⟨positive, _, _, rfl⟩ := gpuIssLaunch_eq_some launched
    exact positive
  have same := reached.sameLaunch inRange
  have bound : s.ncores < 2 ^ 32 := by
    rw [same.ncores_eq]
    obtain ⟨_, small, _, rfl⟩ := gpuIssLaunch_eq_some launched
    exact small
  have hartid : ∀ index, (s.cores index).hartid = BitVec.ofNat 32 index := by
    intro index
    have thread := same.sameThread index
    unfold IssCore.SameThread at thread
    rw [thread]
    obtain ⟨_, _, _, rfl⟩ := gpuIssLaunch_eq_some launched
    rfl
  rw [hartid, hartid, BitVec.lt_def, BitVec.toNat_ofNat, BitVec.toNat_ofNat,
    Nat.mod_eq_of_lt (Nat.lt_trans first bound), Nat.mod_eq_of_lt (Nat.lt_trans second bound)]

/-- A context takes a conditional branch that another one falls through. -/
def SplitByBranch (branch : Executed) (pc pc' : Word) : Prop :=
  opcode branch.inst = 0x63 ∧
    (pc = branch.pc + immB branch.inst ∧ pc' = branch.pc + 4 ∨
      pc = branch.pc + 4 ∧ pc' = branch.pc + immB branch.inst)

/-- Contexts that have executed the same word at the same place stand at one address
unless a branch has split them. -/
theorem LeadsTo.same_or_split
    {executed : Executed}
    {pc pc' : Word}
    (leads : LeadsTo executed pc)
    (leads' : LeadsTo executed pc')
    (noJalr : opcode executed.inst ≠ 0x67) :
    pc = pc' ∨ SplitByBranch executed pc pc' := by
  rcases eq_or_ne (opcode executed.inst) 0x63 with branch | noBranch
  · rcases leads.branch branch with taken | fallen <;>
      rcases leads'.branch branch with taken' | fallen'
    · exact Or.inl (taken.trans taken'.symm)
    · exact Or.inr ⟨branch, Or.inl ⟨taken, fallen'⟩⟩
    · exact Or.inr ⟨branch, Or.inr ⟨fallen, taken'⟩⟩
    · exact Or.inl (fallen.trans fallen'.symm)
  · rcases eq_or_ne (opcode executed.inst) 0x6f with jal | noJal
    · exact Or.inl ((leads.jal jal).trans (leads'.jal jal).symm)
    · exact Or.inl ((leads.straight noBranch noJal noJalr).trans
        (leads'.straight noBranch noJal noJalr).symm)

/-- A context that runs and a later one of its warp with the same history of addresses
stand at one address, unless the last word was another one for each of them or a branch
has split them there. -/
theorem InStep.same_pc
    (inStep : InStep startupPc s history)
    {i j : Nat}
    (order : i < j)
    (inRange : j < s.ncores)
    (sameWarp : (s.cores i).sameWarp (s.cores j) = true)
    (running : s.live i = true)
    (samePath : (history i).map Executed.pc = (history j).map Executed.pc) :
    (s.cores i).pc = (s.cores j).pc ∨
      ∃ last ∈ (history i).head?, ∃ last' ∈ (history j).head?, last.inst ≠ last'.inst ∨
        last = last' ∧ SplitByBranch last (s.cores i).pc (s.cores j).pc := by
  have bound := Nat.lt_trans order inRange
  have lengths := congrArg List.length samePath
  rw [List.length_map, List.length_map] at lengths
  cases mine : history i with
  | nil =>
      have yours : history j = [] := by
        rw [mine] at samePath
        exact List.map_eq_nil_iff.mp samePath.symm
      exact Or.inl ((inStep.fresh i bound mine).trans (inStep.fresh j inRange yours).symm)
  | cons last rest =>
      cases yours : history j with
      | nil =>
          rw [mine, yours] at lengths
          cases lengths
      | cons last' rest' =>
          have newest : last ∈ (history i).head? := by
            rw [mine]
            rfl
          have newest' : last' ∈ (history j).head? := by
            rw [yours]
            rfl
          rw [mine, yours] at samePath
          have address : last.pc = last'.pc := (List.cons_eq_cons.mp samePath).1
          by_cases word : last.inst = last'.inst
          · have equal : last = last' := by
              cases last
              cases last'
              simp only [Executed.mk.injEq]
              exact ⟨address, word⟩
            subst equal
            obtain ⟨noBreak, leads⟩ := inStep.leads i bound running last newest
            have running' : s.live j = true := by
              by_contra asleep
              obtain ⟨final, ending, stop⟩ :=
                inStep.ended j inRange (Bool.eq_false_iff.mpr asleep)
              rw [Option.mem_unique newest' ending] at noBreak
              exact noBreak stop
            rcases eq_or_ne (opcode last.inst) 0x67 with jump | noJump
            · exact Or.inl (inStep.level i j ⟨order, inRange, sameWarp, running, running'⟩ lengths
                last newest newest' jump)
            · refine (leads.same_or_split
                (inStep.leads j inRange running' last newest').2 noJump).imp_right
                fun split => ?_
              exact ⟨last, rfl, last, rfl, Or.inr ⟨rfl, split⟩⟩
          · exact Or.inr ⟨last, rfl, last', rfl, Or.inl word⟩

/-- Two contexts that both run, the first one with the smaller hart id. -/
structure InHartOrder (s : Iss) (i j : Nat) : Prop where
  first_lt : i < s.ncores
  second_lt : j < s.ncores
  hartid_lt : (s.cores i).hartid < (s.cores j).hartid
  first_live : s.live i = true
  second_live : s.live j = true

/-- A call has executed one instruction of one context that still ran, and nothing of
the others. -/
structure ExecutesOne (cfg : Config) (s next : Iss) (history : Nat → List Executed)
    (index : Nat) : Prop where
  inRange : index < s.ncores
  live : s.live index = true
  ran : Iss.stepCore cfg { s with rr := (index + 1) % s.ncores } index = some next
  recorded : s.record history =
    Function.update history index (s.nextInstruction index :: history index)
  others : ∀ other, other ≠ index → next.cores other = s.cores other

/-- The context whose turn it is executes the instruction of a call. -/
theorem executesOne
    (inRange : s.rr < s.ncores)
    (history : Nat → List Executed)
    (stepped : gpuIssStep cfg s = some (true, next)) :
    ∃ index, ExecutesOne cfg s next history index := by
  rcases gpuIssStep_cases inRange stepped with ⟨_, index, chosen, ran⟩ | ⟨never, _⟩
  · have found := turn_eq_some chosen
    refine ⟨index, circularFirst_lt found, circularFirst_ready found, ran, ?_, fun other apart => ?_⟩
    · unfold record
      rw [chosen]
    · rw [stepCore, Option.map_eq_some_iff] at ran
      obtain ⟨result, _, rfl⟩ := ran
      exact Function.update_of_ne apart _ _
  · cases never

/-- A call that executes nothing has found every context halted. -/
theorem idle_of_gpuIssStep
    (inRange : s.rr < s.ncores)
    (clean : s.faulted = false)
    (stepped : gpuIssStep cfg s = some (false, next)) :
    next = s ∧ ∀ index, index < s.ncores → (s.cores index).halted = true := by
  rcases gpuIssStep_cases inRange stepped with ⟨never, _⟩ | ⟨_, nobody, same⟩
  · cases never
  · exact ⟨same, halted_of_turn_eq_none clean nobody⟩

end Rounds

/-- In every run without a fault, contexts that still run have executed equally many
instructions, or the one of smaller hart id has executed one more; a call executes one
instruction of one context, or finds all of them halted. When a context has its turn,
a later context of its warp with the same history of addresses stands at its address,
unless the last word differed between the two or was a branch that only one took. -/
theorem roundRobin_inStep
    {cfg : Config}
    {origin start s : Iss}
    {history : Nat → List Executed}
    (launched : origin.gpuIssLaunch cfg = some start)
    (reached : Recorded cfg start s history)
    (clean : s.faulted = false) :
    (∀ i j, s.InHartOrder i j →
      (history j).length ≤ (history i).length ∧
        (history i).length ≤ (history j).length + 1) ∧
    (∀ next, gpuIssStep cfg s = some (true, next) →
      ∃ index, ExecutesOne cfg s next history index) ∧
    (∀ next, gpuIssStep cfg s = some (false, next) →
      next = s ∧ ∀ index, index < s.ncores → (s.cores index).halted = true) ∧
    ∀ i j, i < s.ncores → j < s.ncores → (s.cores i).hartid < (s.cores j).hartid →
      (s.cores i).sameWarp (s.cores j) = true → s.turn = some i →
      (history i).map Executed.pc = (history j).map Executed.pc →
        (s.cores i).pc = (s.cores j).pc ∨
          ∃ last ∈ (history i).head?, ∃ last' ∈ (history j).head?, last.inst ≠ last'.inst ∨
            last = last' ∧ SplitByBranch last (s.cores i).pc (s.cores j).pc := by
  have inStep := reached.inStep launched clean
  have pointer : s.rr < s.ncores := by
    refine (reached.reachable.sameLaunch ?_).rr_lt
    obtain ⟨positive, _, _, rfl⟩ := gpuIssLaunch_eq_some launched
    exact positive
  have order : ∀ {i j}, i < s.ncores → j < s.ncores → (s.cores i).hartid < (s.cores j).hartid →
      i < j := fun first second hartid =>
    (reached.reachable.hartid_lt_iff launched first second).mp hartid
  refine ⟨fun i j pair => ?_, fun next stepped => executesOne pointer history stepped,
    fun next stepped => idle_of_gpuIssStep pointer clean stepped,
    fun i j first second hartid sameWarp chosen samePath => ?_⟩
  · obtain ⟨round, inRound⟩ := inStep.round
    exact inRound.turns_le (order pair.first_lt pair.second_lt pair.hartid_lt) pair.second_lt
      pair.first_live pair.second_live
  · exact inStep.same_pc (order first second hartid) second sameWarp
      (circularFirst_ready (turn_eq_some chosen)) samePath

/-- The first `count` calls, with their record. -/
def recordSteps (cfg : Config) :
    Nat → Iss × (Nat → List Executed) → Option (Iss × (Nat → List Executed))
  | 0, run => some run
  | count + 1, run =>
      (gpuIssStep cfg run.1).bind fun stepped =>
        recordSteps cfg count (stepped.2, run.1.record run.2)

theorem Recorded.recordSteps
    {cfg : Config}
    {start s : Iss}
    {history : Nat → List Executed}
    (reached : Recorded cfg start s history)
    {count : Nat}
    {run : Iss × (Nat → List Executed)}
    (ran : Iss.recordSteps cfg count (s, history) = some run) :
    Recorded cfg start run.1 run.2 := by
  induction count generalizing s history with
  | zero =>
      cases ran
      exact reached
  | succ count inductionHypothesis =>
      obtain ⟨stepped, called, ran⟩ := Option.bind_eq_some_iff.mp ran
      exact inductionHypothesis (reached.step called) ran

/-- One block of two threads that run `CSRR x1, thread_idx_x` and then a branch that
is taken when it is zero. -/
def branching : Iss :=
  gpuIssDcrWrite 0x019 2 (gpuIssDcrWrite 0x013 2 (gpuIssInit 2 (fresh fun place =>
    wordByte (if place.toNat % 8 < 4 then 0xcc0020f3 else 0x00008463) (place.toNat % 4))))

/-- The two threads after `count` calls. -/
def branchingRun (count : Nat) : Option (Iss × (Nat → List Executed)) :=
  (branching.gpuIssLaunch Config.onePair).bind fun start =>
    recordSteps Config.onePair count (start, fun _ => [])

theorem exists_branchingRun
    {count : Nat}
    {test : Iss × (Nat → List Executed) → Bool}
    (passes : (branchingRun count).map test = some true) :
    ∃ start s history, branching.gpuIssLaunch Config.onePair = some start ∧
      Recorded Config.onePair start s history ∧ test (s, history) = true := by
  obtain ⟨run, ran, passed⟩ := Option.map_eq_some_iff.mp passes
  obtain ⟨start, launched, ran⟩ := Option.bind_eq_some_iff.mp ran
  exact ⟨start, run.1, run.2, launched, Recorded.start.recordSteps ran, passed⟩

/-- After one call the first thread is ahead, by one instruction. -/
theorem roundRobin_inStep_branching :
    ∃ start s history, Recorded Config.onePair start s history ∧ s.InHartOrder 0 1 ∧
      (history 1).length < (history 0).length ∧
      (history 0).length ≤ (history 1).length + 1 := by
  have passes : (branchingRun 1).map (fun run => !run.1.faulted && run.1.ncores == 2 &&
      decide ((run.1.cores 0).hartid < (run.1.cores 1).hartid) && run.1.live 0 && run.1.live 1 &&
      decide ((run.2 1).length < (run.2 0).length)) = some true := by decide
  obtain ⟨start, s, history, launched, reached, passed⟩ := exists_branchingRun passes
  simp only [Bool.and_eq_true, Bool.not_eq_true', beq_iff_eq, decide_eq_true_eq] at passed
  obtain ⟨⟨⟨⟨⟨clean, two⟩, hartid⟩, first⟩, second⟩, ahead⟩ := passed
  have order : s.InHartOrder 0 1 := ⟨by omega, by omega, hartid, first, second⟩
  exact ⟨start, s, history, reached, order, ahead,
    ((roundRobin_inStep launched reached clean).1 0 1 order).2⟩

/-- After four calls both threads have executed the same two instructions, and the
first one is about to go on somewhere else than the second. -/
theorem not_same_pc_branching :
    ∃ start s history, branching.gpuIssLaunch Config.onePair = some start ∧
      Recorded Config.onePair start s history ∧ s.faulted = false ∧ s.InHartOrder 0 1 ∧
      (s.cores 0).sameWarp (s.cores 1) = true ∧ s.turn = some 0 ∧
      (history 0).map Executed.pc = (history 1).map Executed.pc ∧
      (s.cores 0).pc ≠ (s.cores 1).pc := by
  have passes : (branchingRun 4).map (fun run => !run.1.faulted && run.1.ncores == 2 &&
      decide ((run.1.cores 0).hartid < (run.1.cores 1).hartid) && run.1.live 0 && run.1.live 1 &&
      (run.1.cores 0).sameWarp (run.1.cores 1) && run.1.turn == some 0 &&
      decide ((run.2 0).map Executed.pc = (run.2 1).map Executed.pc) &&
      (run.1.cores 0).pc != (run.1.cores 1).pc) = some true := by decide
  obtain ⟨start, s, history, launched, reached, passed⟩ := exists_branchingRun passes
  simp only [Bool.and_eq_true, Bool.not_eq_true', beq_iff_eq, decide_eq_true_eq,
    bne_iff_ne] at passed
  obtain ⟨⟨⟨⟨⟨⟨⟨⟨clean, two⟩, hartid⟩, first⟩, second⟩, sameWarp⟩, turn⟩, path⟩, apart⟩ := passed
  exact ⟨start, s, history, launched, reached, clean, ⟨by omega, by omega, hartid, first, second⟩,
    sameWarp, turn, path, apart⟩

end Iss

end OpenGPU
