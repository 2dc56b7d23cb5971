import OpenGPU.Cycle.MemoryLoop
import OpenGPU.Iss.IllegalWords
import OpenGPU.Lockstep.ThreadResult
import OpenGPU.Lockstep.VerilogExec

/-!
# One instruction of a warp and of its threads

`EXEC` of the cycle model runs a word for all issued lanes at once; `step_core` of the
instruction-set simulator runs it for one thread. Apart from the kind of an immediate
right shift they differ in one more place: a `SYSTEM` word that faults clears its
destination in the cycle model.
-/

namespace OpenGPU

open Instruction

/-! ## One instruction -/

theorem Core.mem_activeLanes
    {cfg : Config}
    {c : Core}
    {t : Nat} :
    t ∈ c.activeLanes cfg ↔ t < cfg.numThreads ∧ hasLane c.im t = true := by
  rw [activeLanes, List.mem_filter, List.mem_range]

/-- Every issued lane has its thread in a simulator that has not faulted and reads the
same word. -/
structure Paired (cfg : Config) (cid : Nat) (c : Core) (s : Iss) (threads : Nat → Nat) :
    Prop where
  noFault : s.faulted = false
  inRange : ∀ t ∈ c.activeLanes cfg, threads t < s.ncores
  same : ∀ t ∈ c.activeLanes cfg, IsThread cfg cid c t (s.cores (threads t))
  fetch : paddrRead cfg s.pmem c.ip 4 = some c.inst

/-- The word is no load, no store and not `EBREAK`, and no branch or `JALR` that
diverges. -/
structure Straight (cfg : Config) (c : Core) (s : Iss) (threads : Nat → Nat) : Prop where
  noLoad : opcode c.inst ≠ 0x03
  noStore : opcode c.inst ≠ 0x23
  noEbreak : c.inst ≠ ebreak
  branch : opcode c.inst = 0x63 → c.takenMask cfg = 0 ∨ c.fallMask cfg = 0
  jalr : opcode c.inst = 0x67 →
    ∀ t ∈ c.activeLanes cfg, ¬s.DivergentTargets (threads t) c.inst

/-- One `step_core` of a context leaves it with the registers and the program counter
of lane `t` after `EXEC`, and with the same fault. -/
def AgreesOn (cfg : Config) (c after : Core) (s : Iss) (index t : Nat) : Prop :=
  ∃ stepped, s.stepCore cfg index = some stepped ∧
    (∀ r, r < 16 → (stepped.cores index).gpr r = after.gpr (c.context cfg t) r) ∧
    (stepped.cores index).pc = after.pc c.iw ∧ stepped.faulted = after.fault

/-- The word in `EXEC` is defined by the language, does to every issued lane what one
`step_core` does to its thread, and leaves all other lanes alone. -/
structure ExecAgrees (cfg : Config) (cid : Nat) (mem : ShadowMemory) (launch : LaunchRegisters)
    (c : Core) (s : Iss) (threads : Nat → Nat) : Prop where
  defined : c.stepDefined cfg launch false = true
  lanes : ∀ t ∈ c.activeLanes cfg,
    AgreesOn cfg c (c.stepCore cfg mem launch cid false) s (threads t) t
  idle : ∀ x, (∀ t ∈ c.activeLanes cfg, x ≠ c.context cfg t) →
    (c.stepCore cfg mem launch cid false).gpr x = c.gpr x

/-- A lane on which the two decoders disagree: a negative value is shifted by a word
whose kind of shift they read from different bits, or a faulting `SYSTEM` word clears a
register that the simulator keeps. -/
def Disagrees (cfg : Config) (c : Core) (t : Nat) : Prop :=
  rd c.inst ≠ 0 ∧
    (MixedShift c.inst ∧ shamt c.inst ≠ 0 ∧ (c.laneRegister cfg t (rs1 c.inst)).msb = true ∨
      opcode c.inst = 0x73 ∧ Core.supported c.inst = false ∧
        c.laneRegister cfg t (rd c.inst) ≠ 0)

section Step

variable {cfg : Config} {cid : Nat} {c : Core} {s : Iss} {threads : Nat → Nat} {index t : Nat}

/-- What a step of the simulator leaves of the context that it runs. -/
theorem agreesOn_iff
    {after : Core}
    {result : Iss.StepResult}
    (noFault : s.faulted = false)
    (ran : Iss.execute cfg (s.cores index) s.pmem (s.laneDiverges index) = some result) :
    AgreesOn cfg c after s index t ↔
      (∀ r, r < 16 → result.core.gpr r = after.gpr (c.context cfg t) r) ∧
        result.core.pc = after.pc c.iw ∧ result.faulted = after.fault := by
  obtain ⟨next, stepped, core, faulted⟩ : ∃ next, s.stepCore cfg index = some next ∧
      next.cores index = result.core ∧ next.faulted = result.faulted := by
    rw [Iss.stepCore, ran, Option.map_some]
    refine ⟨_, rfl, Function.update_self .., ?_⟩
    show (s.faulted || result.faulted) = result.faulted
    rw [noFault, Bool.false_or]
  rw [← core, ← faulted]
  constructor
  · rintro ⟨found, same, agrees⟩
    rw [stepped] at same
    cases same
    exact agrees
  · exact fun agrees => ⟨next, stepped, agrees⟩

/-- The fetch and the register check of the simulator. -/
theorem Paired.execute_eq
    (paired : Paired cfg cid c s threads)
    (issued : t ∈ c.activeLanes cfg) :
    Iss.execute cfg (s.cores (threads t)) s.pmem (s.laneDiverges (threads t)) =
      if badRegister c.inst then some (Iss.fault (s.cores (threads t)) s.pmem)
      else Iss.dispatch cfg (s.cores (threads t)) s.pmem (s.laneDiverges (threads t)) c.inst := by
  rw [Iss.execute, (paired.same t issued).pc, paired.fetch, Option.bind_some]

/-- The issued lanes of a `JALR` that does not diverge have one target. -/
theorem Paired.laneTarget_eq
    (paired : Paired cfg cid c s threads)
    (straight : Straight cfg c s threads)
    (legal : badRegister c.inst = false)
    (code : opcode c.inst = 0x67)
    {first second : Nat}
    (issued : first ∈ c.activeLanes cfg)
    (also : second ∈ c.activeLanes cfg) :
    c.laneTarget cfg second = c.laneTarget cfg first := by
  rcases eq_or_ne second first with rfl | other
  · rfl
  by_contra differs
  have here := paired.same first issued
  have there := paired.same second also
  refine straight.jalr code first issued
    ⟨threads second, paired.inRange second also, fun same => other ?_, ?_, ?_, ?_, ?_⟩
  · -- the lane is part of the context
    have lanes : (BitVec.ofNat 32 second : Word) = BitVec.ofNat 32 first := by
      have ids := congrArg (fun index => (s.cores index).laneId) same
      rw [there.rest, here.rest] at ids
      exact ids
    have bounds : ∀ t ∈ c.activeLanes cfg, t < 2 ^ 32 := fun t member => by
      have bound := cfg.context_lt cfg.numWarps_pos (Core.mem_activeLanes.mp member).1
      have fits := cfg.contexts_lt
      omega
    have numbers := congrArg BitVec.toNat lanes
    rwa [BitVec.toNat_ofNat, BitVec.toNat_ofNat, Nat.mod_eq_of_lt (bounds second also),
      Nat.mod_eq_of_lt (bounds first issued)] at numbers
  · rw [there.rest]
    rfl
  · rw [there.pc, here.pc]
  · rw [there.rest, here.rest]
    simp [IssCore.sameWarp, Core.thread]
  · rw [there.jalrTarget legal code, here.jalrTarget legal code]
    exact differs

/-- Without divergence the lanes of a `JALR` go where the first one goes. -/
theorem Paired.uniform
    (paired : Paired cfg cid c s threads)
    (straight : Straight cfg c s threads)
    (legal : badRegister c.inst = false)
    (code : opcode c.inst = 0x67)
    (issued : t ∈ c.activeLanes cfg) :
    c.diverges cfg = false ∧ c.laneTarget cfg (c.firstLane cfg) = c.laneTarget cfg t := by
  obtain ⟨lane, present⟩ := Core.mem_activeLanes.mp issued
  have first : c.firstLane cfg ∈ c.activeLanes cfg := by
    unfold Core.firstLane
    cases found : (List.range cfg.numThreads).find? (hasLane c.im) with
    | none =>
        exact absurd present (List.find?_eq_none.mp found t (List.mem_range.mpr lane))
    | some first =>
        exact Core.mem_activeLanes.mpr
          ⟨List.mem_range.mp (List.mem_of_find?_eq_some found), List.find?_some found⟩
  refine ⟨?_, paired.laneTarget_eq straight legal code issued first⟩
  rw [Core.diverges, List.any_eq_false]
  intro other member
  rw [Bool.and_eq_true, bne_iff_ne]
  rintro ⟨also, differs⟩
  exact differs (paired.laneTarget_eq straight legal code first
    (Core.mem_activeLanes.mpr ⟨List.mem_range.mp member, also⟩))

/-- The thread of an issued lane runs the same arm. -/
theorem Paired.execute_lane
    (paired : Paired cfg cid c s threads)
    (straight : Straight cfg c s threads)
    (legal : badRegister c.inst = false)
    (noBranch : opcode c.inst ≠ 0x63)
    (issued : t ∈ c.activeLanes cfg) :
    Iss.execute cfg (s.cores (threads t)) s.pmem (s.laneDiverges (threads t)) =
      some (match Iss.threadResult (s.cores (threads t)) c.inst with
        | some value =>
            Iss.retire (s.cores (threads t)) s.pmem c.inst value
              (Iss.threadNext (s.cores (threads t)) c.inst) false
        | none => Iss.fault (s.cores (threads t)) s.pmem) := by
  rw [paired.execute_eq issued, legal, if_neg Bool.false_ne_true]
  apply Iss.dispatch_thread straight.noLoad straight.noStore noBranch straight.noEbreak
  intro code
  rw [← Bool.not_eq_true, Iss.laneDiverges_iff]
  exact straight.jalr code t issued

/-- A word that writes a register and has no result is a `SYSTEM` word. -/
theorem opcode_of_unsupported
    {inst : Word}
    (noLoad : opcode inst ≠ 0x03)
    (uses : usesRd (opcode inst) = true)
    (unsupported : Core.supported inst = false) :
    opcode inst = 0x73 := by
  unfold Core.supported at unsupported
  unfold usesRd at uses
  simp only [Bool.or_eq_false_iff, beq_eq_false_iff_ne] at unsupported
  simp only [Bool.or_eq_true, beq_iff_eq] at uses
  obtain ⟨⟨⟨⟨⟨⟨h0, h1⟩, h2⟩, h3⟩, h4⟩, h5⟩, _⟩ := unsupported
  rcases uses with ((((((u | u) | u) | u) | u) | u) | u) | u
  · exact absurd u h0
  · exact absurd u h1
  · exact absurd u h2
  · exact absurd u h3
  · exact absurd u noLoad
  · exact absurd u h4
  · exact absurd u h5
  · exact u

/-- An issued lane writes its own row. -/
theorem Core.lanesWritten_context
    (issued : t ∈ c.activeLanes cfg)
    (result : Nat → Word) :
    c.lanesWritten cfg result (c.context cfg t) =
      writtenRow (Core.writes c.inst) (rd c.inst).toNat (result t)
        (c.gpr (c.context cfg t)) := by
  obtain ⟨lane, present⟩ := Core.mem_activeLanes.mp issued
  have own : laneOf (c.iw * cfg.numThreads) cfg.numThreads (c.context cfg t) = some t :=
    laneOf_eq_some_iff.mpr ⟨lane, rfl⟩
  rw [lanesWritten, own]
  exact if_pos present

/-- The other contexts keep theirs. -/
theorem Core.lanesWritten_of_idle
    {x : Nat}
    (idle : ∀ t ∈ c.activeLanes cfg, x ≠ c.context cfg t)
    (result : Nat → Word) :
    c.lanesWritten cfg result x = c.gpr x := by
  unfold lanesWritten
  cases owner : laneOf (c.iw * cfg.numThreads) cfg.numThreads x with
  | none => rfl
  | some t =>
      obtain ⟨lane, here⟩ := laneOf_eq_some_iff.mp owner
      refine if_neg fun present => ?_
      exact idle t (Core.mem_activeLanes.mpr ⟨lane, present⟩) here

/-- What an issued lane sees of the lane loop. -/
theorem Core.execLanes_context
    (executing : c.Executing)
    (issued : t ∈ c.activeLanes cfg) :
    (c.execLanes cfg cid).gpr (c.context cfg t) =
        writtenRow (Core.writes c.inst) (rd c.inst).toNat ((c.issuedResult cfg cid t).getD 0)
          (c.gpr (c.context cfg t)) ∧
      (c.execLanes cfg cid).pc c.iw = (if c.fine cfg then c.follow cfg else c.ip) ∧
      (c.execLanes cfg cid).fault = !c.fine cfg := by
  rw [Core.execLanes_eq cid ⟨t, Core.mem_activeLanes.mp issued⟩, Core.lanesDone]
  cases c.fine cfg with
  | true =>
      exact ⟨Core.lanesWritten_context issued _, Function.update_self .., executing.noFault⟩
  | false => exact ⟨Core.lanesWritten_context issued _, executing.pc, rfl⟩

/-- A lane whose word has a result agrees with its thread unless their shifts differ. -/
theorem Paired.agreesOn_supported
    (paired : Paired cfg cid c s threads)
    (executing : c.Executing)
    (straight : Straight cfg c s threads)
    (legal : badRegister c.inst = false)
    (noBranch : opcode c.inst ≠ 0x63)
    (supported : Core.supported c.inst = true)
    (issued : t ∈ c.activeLanes cfg) :
    AgreesOn cfg c (c.execLanes cfg cid) s (threads t) t ↔ ¬Disagrees cfg c t := by
  have same := paired.same t issued
  obtain ⟨value, computed⟩ := Option.isSome_iff_exists.mp (same.threadResult_isSome.trans supported)
  obtain ⟨value', computed'⟩ : ∃ value', c.issuedResult cfg cid t = some value' :=
    Option.isSome_iff_exists.mp ((Core.laneResult_isSome t _ _).trans supported)
  have results : value = value' ↔
      ¬(MixedShift c.inst ∧ shamt c.inst ≠ 0 ∧
        (c.laneRegister cfg t (rs1 c.inst)).msb = true) := by
    rw [← same.threadResult_eq_iff legal, computed, computed', Option.some_inj]
  obtain ⟨row, pc, faulted⟩ := Core.execLanes_context executing issued
  have ran := paired.execute_lane straight legal noBranch issued
  rw [computed] at ran
  -- neither side faults, and both go on at the same address
  have outcome : c.fine cfg = true ∧
      Iss.threadNext (s.cores (threads t)) c.inst = c.follow cfg := by
    unfold Core.fine Core.follow Iss.threadNext
    rw [supported, Bool.true_and, same.pc]
    by_cases code : opcode c.inst = 0x67
    · obtain ⟨uniform, target⟩ := paired.uniform straight legal code issued
      rw [uniform, Bool.and_false, same.jalrTarget legal code, target]
      exact ⟨rfl, rfl⟩
    · rw [beq_eq_false_iff_ne.mpr code, if_neg code, if_neg code]
      exact ⟨rfl, rfl⟩
  rw [outcome.1, if_pos rfl] at pc
  rw [outcome.1] at faulted
  rw [agreesOn_iff paired.noFault ran, row, pc, faulted, computed', Option.getD_some]
  have goesOn : (Iss.retire (s.cores (threads t)) s.pmem c.inst value
      (Iss.threadNext (s.cores (threads t)) c.inst) false).core.pc = c.follow cfg ∧
        (Iss.retire (s.cores (threads t)) s.pmem c.inst value
          (Iss.threadNext (s.cores (threads t)) c.inst) false).faulted = !true :=
    ⟨outcome.2, rfl⟩
  rw [and_iff_left goesOn]
  refine (writtenRow_eq_iff (rd_of_writes legal) same.gpr value value').trans ?_
  rw [results, Disagrees, Core.writes, Bool.and_eq_true, bne_iff_ne]
  constructor
  · rintro equal ⟨register, mixed | ⟨_, unsupported, _⟩⟩
    · exact equal ⟨by rw [mixed.1.1]; rfl, register⟩ mixed
    · exact Bool.noConfusion (supported.symm.trans unsupported)
  · rintro agrees ⟨_, register⟩ mixed
    exact agrees ⟨register, Or.inl mixed⟩

/-- A lane whose word faults agrees with its thread unless the fault clears a
register. -/
theorem Paired.agreesOn_unsupported
    (paired : Paired cfg cid c s threads)
    (executing : c.Executing)
    (straight : Straight cfg c s threads)
    (legal : badRegister c.inst = false)
    (noBranch : opcode c.inst ≠ 0x63)
    (unsupported : Core.supported c.inst = false)
    (issued : t ∈ c.activeLanes cfg) :
    AgreesOn cfg c (c.execLanes cfg cid) s (threads t) t ↔ ¬Disagrees cfg c t := by
  have same := paired.same t issued
  have computed : Iss.threadResult (s.cores (threads t)) c.inst = none :=
    Option.isNone_iff_eq_none.mp
      (Option.isSome_eq_false_iff.mp (same.threadResult_isSome.trans unsupported))
  have computed' : c.issuedResult cfg cid t = none :=
    Option.isNone_iff_eq_none.mp
      (Option.isSome_eq_false_iff.mp ((Core.laneResult_isSome t _ _).trans unsupported))
  obtain ⟨row, pc, faulted⟩ := Core.execLanes_context executing issued
  have ran := paired.execute_lane straight legal noBranch issued
  rw [computed] at ran
  have faults : c.fine cfg = false := by
    rw [Core.fine, unsupported, Bool.false_and]
  rw [faults, if_neg Bool.false_ne_true] at pc
  rw [faults] at faulted
  rw [agreesOn_iff paired.noFault ran, row, pc, faulted, computed', Option.getD_none]
  have stays : (Iss.fault (s.cores (threads t)) s.pmem).core.pc = c.ip ∧
      (Iss.fault (s.cores (threads t)) s.pmem).faulted = !false := ⟨same.pc, rfl⟩
  rw [and_iff_left stays]
  refine (eq_writtenRow_iff (rd_of_writes legal) same.gpr (executing.zero _)).trans ?_
  have register (write : Core.writes c.inst = true) :
      c.laneRegister cfg t (rd c.inst) = c.gpr (c.context cfg t) (rd c.inst).toNat := by
    have small := (rd_of_writes legal write).1
    rw [← same.gpr _ small, ← same.laneRegister (BitVec.lt_def.mpr small)]
  constructor
  · rintro cleared ⟨nonzero, ⟨mixed, _⟩ | ⟨system, _, kept⟩⟩
    · have result : Core.supported c.inst = true := by
        unfold Core.supported
        rw [mixed.1]
        rfl
      exact Bool.noConfusion (result.symm.trans unsupported)
    · have write : Core.writes c.inst = true := by
        rw [Core.writes, Bool.and_eq_true, bne_iff_ne]
        exact ⟨by rw [system]; rfl, nonzero⟩
      exact kept ((register write).trans (cleared write))
  · intro agrees write
    by_contra kept
    obtain ⟨uses, nonzero⟩ := Bool.and_eq_true_iff.mp write
    refine agrees ⟨bne_iff_ne.mp nonzero, Or.inr
      ⟨opcode_of_unsupported straight.noLoad uses unsupported, unsupported, ?_⟩⟩
    rw [register write]
    exact kept

/-- The branch condition of the simulator. -/
theorem branchTake_eq
    (inst a b : Word) :
    Iss.branchTake inst a b =
      if Core.branchGood (funct3 inst) then some (Core.takeBranch (funct3 inst) a b) else none := by
  unfold Iss.branchTake Core.branchGood Core.takeBranch
  rcases Core.funct3_cases inst with f3 | f3 | f3 | f3 | f3 | f3 | f3 | f3 <;> rw [f3] <;> rfl

/-- Every lane agrees with its thread on a branch that does not diverge. -/
theorem Paired.agreesOn_branch
    (paired : Paired cfg cid c s threads)
    (executing : c.Executing)
    (straight : Straight cfg c s threads)
    (legal : badRegister c.inst = false)
    (code : opcode c.inst = 0x63)
    (issued : t ∈ c.activeLanes cfg) :
    AgreesOn cfg c (c.execBranch cfg) s (threads t) t := by
  have same := paired.same t issued
  obtain ⟨lane, present⟩ := Core.mem_activeLanes.mp issued
  have small := lt_of_hasLane present
  have ran := paired.execute_eq issued
  rw [legal, if_neg Bool.false_ne_true, Iss.dispatch_branch code, branchTake_eq,
    same.rs1 legal (by rw [code]; rfl), same.rs2 legal (by rw [code]; rfl)] at ran
  -- a branch writes no register, and register zero is zero already
  have row : ∀ next r, r < 16 →
      (Iss.retire (s.cores (threads t)) s.pmem c.inst 0 next false).core.gpr r =
        c.gpr (c.context cfg t) r := by
    intro next r inRow
    have noWrite : Core.writes c.inst = false := by
      rw [Core.writes, code]
      rfl
    have written : (Iss.retire (s.cores (threads t)) s.pmem c.inst 0 next false).core.gpr =
        writtenRow (Core.writes c.inst) (rd c.inst).toNat 0 (s.cores (threads t)).gpr := rfl
    rw [written, noWrite]
    rcases eq_or_ne r 0 with rfl | positive
    · rw [writtenRow_zero, executing.zero]
    · rw [writtenRow_of_ne_zero _ _ _ _ positive, if_neg fun both => Bool.false_ne_true both.1]
      exact same.gpr r inRow
  rcases Core.execBranch_cases cfg c with
    ⟨result, reserved | ⟨taken, fall, _⟩⟩ | ⟨_, _, taken, fall, _⟩ | ⟨result, good, fall⟩ |
      ⟨result, good, taken⟩
  · rw [reserved, if_neg Bool.false_ne_true] at ran
    refine (agreesOn_iff paired.noFault ran).mpr ⟨fun r inRow => ?_, ?_, ?_⟩ <;> rw [result]
    · exact same.gpr r inRow
    · exact same.pc.trans executing.pc.symm
    · rfl
  · exact (straight.branch code).elim (absurd · taken) (absurd · fall)
  · exact (straight.branch code).elim (absurd · taken) (absurd · fall)
  · have takes : c.laneTakes cfg t = true := by
      have out := eq_zero_iff_hasLane.mp fall t
      rw [Core.fallMask, hasLane_collectLanes, decide_eq_true small, decide_eq_true lane,
        present] at out
      simpa using out
    rw [good, if_pos rfl, show Core.takeBranch _ _ _ = true from takes] at ran
    refine (agreesOn_iff paired.noFault ran).mpr ⟨fun r inRow => ?_, ?_, ?_⟩ <;> rw [result]
    · exact row _ r inRow
    · show (s.cores (threads t)).pc + immB c.inst = Function.update c.pc c.iw _ c.iw
      rw [Function.update_self, same.pc]
    · exact executing.noFault.symm
  · have falls : c.laneTakes cfg t = false := by
      have out := eq_zero_iff_hasLane.mp taken t
      rw [Core.takenMask, hasLane_collectLanes, decide_eq_true small, decide_eq_true lane,
        present] at out
      simpa using out
    rw [good, if_pos rfl, show Core.takeBranch _ _ _ = false from falls] at ran
    refine (agreesOn_iff paired.noFault ran).mpr ⟨fun r inRow => ?_, ?_, ?_⟩ <;> rw [result]
    · exact row _ r inRow
    · show (s.cores (threads t)).pc + 4 = Function.update c.pc c.iw _ c.iw
      rw [Function.update_self, same.pc]
    · exact executing.noFault.symm

/-- A word that fails the register check faults on both sides. -/
theorem Paired.agreesOn_illegal
    (paired : Paired cfg cid c s threads)
    (executing : c.Executing)
    (illegal : badRegister c.inst = true)
    (issued : t ∈ c.activeLanes cfg) :
    AgreesOn cfg c (c.execute cfg cid) s (threads t) t := by
  have same := paired.same t issued
  have ran := paired.execute_eq issued
  rw [illegal, if_pos rfl] at ran
  refine (agreesOn_iff paired.noFault ran).mpr ⟨fun r inRow => ?_, ?_, ?_⟩ <;>
    rw [Core.execute, illegal, if_pos rfl]
  · exact same.gpr r inRow
  · exact same.pc.trans executing.pc.symm
  · rfl

/-- A lane agrees with its thread unless the decoders disagree on it. -/
theorem Paired.agreesOn_iff_not_disagrees
    (paired : Paired cfg cid c s threads)
    (executing : c.Executing)
    (straight : Straight cfg c s threads)
    (legal : badRegister c.inst = false)
    (issued : t ∈ c.activeLanes cfg) :
    AgreesOn cfg c (c.execute cfg cid) s (threads t) t ↔ ¬Disagrees cfg c t := by
  rw [Core.execute, legal, if_neg Bool.false_ne_true,
    if_neg fun memory => memory.elim straight.noLoad straight.noStore,
    if_neg straight.noEbreak]
  by_cases branch : opcode c.inst = 0x63
  · rw [if_pos branch]
    refine iff_of_true (paired.agreesOn_branch executing straight legal branch issued) ?_
    rintro ⟨_, ⟨mixed, _⟩ | ⟨system, _⟩⟩
    · exact absurd (branch.symm.trans mixed.1) (by decide)
    · exact absurd (branch.symm.trans system) (by decide)
  · rw [if_neg branch]
    cases supported : Core.supported c.inst with
    | true => exact paired.agreesOn_supported executing straight legal branch supported issued
    | false => exact paired.agreesOn_unsupported executing straight legal branch supported issued

/-- Lanes that are not issued keep their registers. -/
theorem Core.execute_gpr_of_idle
    {x : Nat}
    (idle : ∀ t ∈ c.activeLanes cfg, x ≠ c.context cfg t) :
    (c.execute cfg cid).gpr x = c.gpr x := by
  unfold execute
  split_ifs
  · rfl
  · rfl
  · unfold execEbreak
    split_ifs <;> rfl
  · rcases execBranch_cases cfg c with ⟨result, _⟩ | ⟨result, _⟩ | ⟨result, _⟩ | ⟨result, _⟩ <;>
      rw [result] <;> rfl
  · rcases execLanes_cases cfg cid c with ⟨result, _⟩ | ⟨result, _⟩ <;> rw [result]
    · exact (congrFun laneLoop_gpr x).trans (lanesWritten_of_idle idle _)
    · exact (congrFun laneLoop_gpr x).trans (lanesWritten_of_idle idle _)

/-- An executing core does what `EXEC` does. -/
theorem Core.Executing.stepCore_eq
    (executing : c.Executing)
    (mem : ShadowMemory)
    (launch : LaunchRegisters) :
    c.stepCore cfg mem launch cid false = c.execute cfg cid := by
  rw [Core.stepCore, if_neg Bool.false_ne_true, executing.active, if_neg (by decide),
    executing.exec]

/-- When the step of an executing core is defined by the language. -/
theorem Core.Executing.stepDefined_iff
    (executing : c.Executing)
    (straight : Straight cfg c s threads)
    (launch : LaunchRegisters) :
    c.stepDefined cfg launch false = true ↔
      badRegister c.inst = true ∨ cfg.numThreads ≤ 32 := by
  rw [Core.stepDefined_exec_iff launch executing.exec straight.noLoad straight.noStore,
    Core.LaneShiftsFit, executing.active, or_comm, or_assoc]
  simp [straight.noEbreak]

/-- Lanes that agree with their threads are no lanes on which the decoders disagree. -/
theorem ExecAgrees.not_disagrees
    {mem : ShadowMemory}
    {launch : LaunchRegisters}
    (agrees : ExecAgrees cfg cid mem launch c s threads)
    (executing : c.Executing)
    (paired : Paired cfg cid c s threads)
    (straight : Straight cfg c s threads)
    (legal : badRegister c.inst = false)
    (issued : t ∈ c.activeLanes cfg) :
    ¬Disagrees cfg c t := by
  have lane := agrees.lanes t issued
  rw [executing.stepCore_eq] at lane
  exact (paired.agreesOn_iff_not_disagrees executing straight legal issued).mp lane

end Step

/-! ## Agreement -/


/-- `EXEC` and `step_core` agree on a word exactly when it fails the register check, or
when a warp has at most 32 lanes and the decoders disagree on no issued one. -/
theorem execAgrees_iff
    {cfg : Config}
    {cid : Nat}
    {c : Core}
    {s : Iss}
    {threads : Nat → Nat}
    (executing : c.Executing)
    (paired : Paired cfg cid c s threads)
    (straight : Straight cfg c s threads)
    (mem : ShadowMemory)
    (launch : LaunchRegisters) :
    ExecAgrees cfg cid mem launch c s threads ↔
      badRegister c.inst = true ∨
        cfg.numThreads ≤ 32 ∧ ∀ t ∈ c.activeLanes cfg, ¬Disagrees cfg c t := by
  have idle : ∀ x, (∀ t ∈ c.activeLanes cfg, x ≠ c.context cfg t) →
      (c.stepCore cfg mem launch cid false).gpr x = c.gpr x := by
    intro x none
    rw [executing.stepCore_eq]
    exact Core.execute_gpr_of_idle none
  constructor
  · intro agrees
    rcases (executing.stepDefined_iff straight launch).mp agrees.defined with illegal | lanes
    · exact Or.inl illegal
    cases legal : badRegister c.inst with
    | true => exact Or.inl rfl
    | false =>
        exact Or.inr ⟨lanes, fun t issued =>
          agrees.not_disagrees executing paired straight legal issued⟩
  · intro condition
    refine ⟨(executing.stepDefined_iff straight launch).mpr (condition.imp_right And.left),
      fun t issued => ?_, idle⟩
    rw [executing.stepCore_eq]
    cases legal : badRegister c.inst with
    | true => exact paired.agreesOn_illegal executing legal issued
    | false =>
        refine (paired.agreesOn_iff_not_disagrees executing straight legal issued).mpr ?_
        exact (condition.resolve_left (by rw [legal]; exact Bool.false_ne_true)).2 t issued


/-- One lane that is about to execute a word, with a value in register 1. -/
def Core.atWord (inst value : Word) : Core :=
  { Core.fresh with
    ctaActive := true
    state := .exec
    im := 1
    ip := 0x80000000
    pc := fun _ => 0x80000000
    inst := inst
    gpr := fun _ => Function.update (fun _ => 0) 1 value }

/-- Its thread, with the word in memory. -/
def Iss.atWord (inst value : Word) : Iss :=
  { Iss.fresh fun addr => wordByte inst (addr - 0x80000000).toNat with
    ncores := 1
    cores := (Core.atWord inst value).thread Config.oneLane 0 }

theorem executing_atWord
    (inst value : Word) :
    (Core.atWord inst value).Executing :=
  ⟨rfl, rfl, rfl, rfl, fun _ => rfl⟩

theorem paired_atWord
    {inst : Word}
    (value : Word)
    (fetch : paddrRead Config.oneLane (Iss.atWord inst value).pmem 0x80000000 4 = some inst) :
    Paired Config.oneLane 0 (Core.atWord inst value) (Iss.atWord inst value) id where
  noFault := rfl
  inRange _ issued := (Core.mem_activeLanes.mp issued).1
  same _ _ := ⟨fun _ _ => rfl, rfl⟩
  fetch := fetch

/-- A word that is neither a memory access nor a jump by register is straight for one
lane. -/
theorem straight_atWord
    {inst : Word}
    (value : Word)
    (plain : opcode inst ≠ 0x03 ∧ opcode inst ≠ 0x23 ∧ opcode inst ≠ 0x63 ∧ opcode inst ≠ 0x67)
    (noEbreak : inst ≠ ebreak) :
    Straight Config.oneLane (Core.atWord inst value) (Iss.atWord inst value) id where
  noLoad := plain.1
  noStore := plain.2.1
  noEbreak := noEbreak
  branch code := absurd code plain.2.2.1
  jalr code := absurd code plain.2.2.2

/-- `ADDI`. -/
theorem execAgrees_iff_addi :
    ExecAgrees Config.oneLane 0 ⟨fun _ => 0, 0⟩ LaunchRegisters.oneBlock
      (Core.atWord 0x00108093 7) (Iss.atWord 0x00108093 7) id := by
  refine (execAgrees_iff (executing_atWord _ _) (paired_atWord 7 (by decide))
    (straight_atWord 7 (by decide) (by decide)) _ _).mpr (Or.inr ⟨by decide, fun t _ => ?_⟩)
  rintro ⟨_, ⟨mixed, _⟩ | ⟨system, _⟩⟩
  · exact absurd mixed (by decide)
  · exact absurd system (by decide)

/-- A right shift with bit 30 set and the top seven bits of no shift, and a write of a
CSR, which is no instruction of the ISA: the core and its thread start alike and do not
agree. -/
theorem not_execAgrees_words :
    (Paired Config.oneLane 0 (Core.atWord 0x4210d093 0x80000000)
        (Iss.atWord 0x4210d093 0x80000000) id ∧
      ¬ExecAgrees Config.oneLane 0 ⟨fun _ => 0, 0⟩ LaunchRegisters.oneBlock
        (Core.atWord 0x4210d093 0x80000000) (Iss.atWord 0x4210d093 0x80000000) id) ∧
    (Paired Config.oneLane 0 (Core.atWord 0xcc6010f3 0x80000000)
        (Iss.atWord 0xcc6010f3 0x80000000) id ∧
      ¬ExecAgrees Config.oneLane 0 ⟨fun _ => 0, 0⟩ LaunchRegisters.oneBlock
        (Core.atWord 0xcc6010f3 0x80000000) (Iss.atWord 0xcc6010f3 0x80000000) id) := by
  have issued : ∀ inst, 0 ∈ (Core.atWord inst 0x80000000).activeLanes Config.oneLane := fun _ =>
    Core.mem_activeLanes.mpr ⟨Nat.zero_lt_one, show hasLane (1 : Word) 0 = true by decide⟩
  constructor
  · have paired := @paired_atWord 0x4210d093 0x80000000 (by decide)
    refine ⟨paired, fun agrees => ?_⟩
    apply agrees.not_disagrees (executing_atWord _ _) paired
      (straight_atWord _ (by decide) (by decide)) (by decide) (issued _)
    exact ⟨by decide, Or.inl ⟨by decide, by decide, by decide⟩⟩
  · have paired := @paired_atWord 0xcc6010f3 0x80000000 (by decide)
    refine ⟨paired, fun agrees => ?_⟩
    apply agrees.not_disagrees (executing_atWord _ _) paired
      (straight_atWord _ (by decide) (by decide)) (by decide) (issued _)
    exact ⟨by decide, Or.inr ⟨by decide, by decide, by decide⟩⟩

end OpenGPU
