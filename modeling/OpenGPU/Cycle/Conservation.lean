import OpenGPU.Cycle.Model
import OpenGPU.Platform.Launch

/-!
# Lane conservation

The path stack of a warp splits and resumes active masks. A ledger beside each
core records the block size it accepted last, the lanes each warp has retired
and how often every lane has executed `EBREAK`. Along every run the current and
deferred masks of a valid warp partition, together with the retired lanes, the
mask the warp started with.
-/

namespace OpenGPU

/-- Masks of the lowest `depth` stack entries, newest first. -/
def deferredMasks (stack : Nat → Word) : Nat → List Word
  | 0 => []
  | depth + 1 => stack depth :: deferredMasks stack depth

/-- Writing an entry that is not below the stack pointer changes no deferred
mask. -/
theorem deferredMasks_update
    (stack : Nat → Word)
    (entry : Nat)
    (value : Word)
    (depth : Nat)
    (above : depth ≤ entry) :
    deferredMasks (Function.update stack entry value) depth =
      deferredMasks stack depth := by
  induction depth with
  | zero => rfl
  | succ depth inductionHypothesis =>
      have different : depth ≠ entry := by omega
      rw [deferredMasks, deferredMasks, inductionHypothesis (by omega),
        Function.update_of_ne different]

/-- History of the block that a core accepted last. -/
structure LaneLedger where
  blockSize : Word
  retired : Nat → Word
  ebreaks : Nat → Nat → Nat

namespace LaneLedger

/-- Before any block. -/
def empty : LaneLedger := ⟨0, fun _ => 0, fun _ _ => 0⟩

/-- A new block starts with no lane retired. -/
def accept (blockSize : Word) : LaneLedger := ⟨blockSize, fun _ => 0, fun _ _ => 0⟩

/-- Lanes `lanes` of warp `w` execute `EBREAK`. -/
def retire (ledger : LaneLedger) (w : Nat) (lanes : Word) : LaneLedger :=
  { ledger with
    retired := Function.update ledger.retired w (ledger.retired w ||| lanes)
    ebreaks := fun warp lane =>
      ledger.ebreaks warp lane + (decide (warp = w) && hasLane lanes lane).toNat }

@[simp] theorem retire_retired
    (ledger : LaneLedger)
    (w : Nat)
    (lanes : Word) :
    (ledger.retire w lanes).retired =
      Function.update ledger.retired w (ledger.retired w ||| lanes) := rfl

@[simp] theorem retire_ebreaks
    (ledger : LaneLedger)
    (w : Nat)
    (lanes : Word)
    (warp lane : Nat) :
    (ledger.retire w lanes).ebreaks warp lane =
      ledger.ebreaks warp lane + (decide (warp = w) && hasLane lanes lane).toNat := rfl

@[simp] theorem retire_blockSize
    (ledger : LaneLedger)
    (w : Nat)
    (lanes : Word) :
    (ledger.retire w lanes).blockSize = ledger.blockSize := rfl

end LaneLedger

namespace Core

open Instruction

/-- Masks of the current and the deferred paths of a warp, current first; an
invalid warp has none. -/
def pathMasks (c : Core) (w : Nat) : List Word :=
  if c.valid w then c.mask w :: deferredMasks (c.stackMask w) (c.sp w) else []

theorem pathMasks_of_valid
    {c : Core}
    {w : Nat}
    (valid : c.valid w = true) :
    c.pathMasks w = c.mask w :: deferredMasks (c.stackMask w) (c.sp w) := by
  simp [pathMasks, valid]

theorem pathMasks_of_not_valid
    {c : Core}
    {w : Nat}
    (invalid : c.valid w = false) :
    c.pathMasks w = [] := by
  simp [pathMasks, invalid]

/-- The lanes that the next step of an active core retires. -/
def retiring (c : Core) : Word :=
  if c.ctaActive ∧ c.state = .exec ∧ c.inst = ebreak then c.im else 0

/-- The ledger after a step. -/
def recordStep (c : Core) (launch : LaunchRegisters) (fire : Bool)
    (ledger : LaneLedger) : LaneLedger :=
  if fire then LaneLedger.accept launch.blockSize
  else ledger.retire c.iw c.retiring

/-- The paths of every warp account for all of its lanes, and the issue
registers copy a valid warp. -/
structure WarpsConserved (cfg : Config) (c : Core) (ledger : LaneLedger) : Prop where
  partition : ∀ w, w < cfg.numWarps →
    LanePartition (initialMask cfg ledger.blockSize w) (ledger.retired w) (c.pathMasks w)
  counted : ∀ w t,
    ledger.ebreaks w t = (hasLane (ledger.retired w) t).toNat
  issued : c.state ≠ .sched →
    c.iw < cfg.numWarps ∧ c.valid c.iw = true ∧ c.im = c.mask c.iw

/-- The initial mask of a warp holds the lanes inside the block. -/
theorem hasLane_initialMask
    (cfg : Config)
    (blockSize : Word)
    (w t : Nat) :
    hasLane (initialMask cfg blockSize w) t = true ↔
      t < 32 ∧ t < cfg.numThreads ∧
        BitVec.ofNat 32 (w * cfg.numThreads + t) < blockSize := by
  simp [initialMask, and_assoc]

/-- Retiring no lane changes nothing. -/
theorem retire_zero
    (ledger : LaneLedger)
    (w : Nat) :
    ledger.retire w 0 = ledger := by
  cases ledger
  simp [LaneLedger.retire]

/-- A step that does not retire lanes and keeps the path stacks keeps the
ledger balanced. -/
theorem WarpsConserved.of_same_paths
    {cfg : Config}
    {c stepped : Core}
    {ledger : LaneLedger}
    (conserved : WarpsConserved cfg c ledger)
    (paths : ∀ w, stepped.pathMasks w = c.pathMasks w)
    (issued : stepped.state ≠ .sched →
      stepped.iw < cfg.numWarps ∧ stepped.valid stepped.iw = true ∧
        stepped.im = stepped.mask stepped.iw) :
    WarpsConserved cfg stepped ledger where
  partition w inRange := by
    rw [paths]
    exact conserved.partition w inRange
  counted := conserved.counted
  issued := issued

/-- Admission gives every warp inside the block its whole initial mask. -/
theorem acceptCta_conserved
    (cfg : Config)
    (launch : LaunchRegisters)
    (c : Core) :
    WarpsConserved cfg (acceptCta cfg launch c)
      (LaneLedger.accept launch.blockSize) where
  partition w inRange := by
    by_cases valid : BitVec.ofNat 32 (w * cfg.numThreads) < launch.blockSize
    · have paths : (acceptCta cfg launch c).pathMasks w =
          [initialMask cfg launch.blockSize w] := by
        simp [pathMasks, acceptCta, valid, deferredMasks]
      rw [paths]
      apply LanePartition.start
      rw [ne_zero_iff_hasLane]
      exact ⟨0, (hasLane_initialMask cfg _ w 0).mpr
        ⟨by omega, cfg.numThreads_pos, valid⟩⟩
    · have paths : (acceptCta cfg launch c).pathMasks w = [] := by
        simp [pathMasks, acceptCta, valid]
      have empty : initialMask cfg launch.blockSize w = 0 := by
        rw [eq_zero_iff_hasLane]
        intro t
        rw [Bool.eq_false_iff]
        intro present
        obtain ⟨_, inWarp, inBlock⟩ := (hasLane_initialMask cfg _ w t).mp present
        apply valid
        have bound := cfg.context_lt inRange inWarp
        have fits := cfg.contexts_lt
        rw [BitVec.lt_def, BitVec.toNat_ofNat, Nat.mod_eq_of_lt (by omega)] at inBlock ⊢
        omega
      rw [paths]
      show LanePartition (initialMask cfg launch.blockSize w) 0 []
      rw [empty]
      exact LanePartition.start_empty
  counted w t := by simp [LaneLedger.accept]
  issued moved := absurd rfl moved

/-- Lanes of the issued mask exist. -/
theorem WarpsConserved.issued_lane_lt
    {cfg : Config}
    {c : Core}
    {ledger : LaneLedger}
    (conserved : WarpsConserved cfg c ledger)
    (issued : c.state ≠ .sched)
    {t : Nat}
    (present : hasLane c.im t = true) :
    t < 32 ∧ t < cfg.numThreads := by
  obtain ⟨inRange, valid, copy⟩ := conserved.issued issued
  have partition := conserved.partition c.iw inRange
  rw [pathMasks_of_valid valid] at partition
  have inInitial := (partition.mem_iff t).mpr
    (Or.inr ⟨c.mask c.iw, List.mem_cons_self, copy ▸ present⟩)
  obtain ⟨small, inWarp, _⟩ := (hasLane_initialMask cfg _ _ t).mp inInitial
  exact ⟨small, inWarp⟩

/-- Taken and fall-through lanes are disjoint. -/
theorem takenMask_and_fallMask
    (cfg : Config)
    (c : Core) :
    c.fallMask cfg &&& c.takenMask cfg = 0 := by
  rw [and_eq_zero_iff]
  intro t
  simp only [fallMask, takenMask, hasLane_collectLanes]
  cases c.laneTakes cfg t <;> simp

/-- Together they are the issued lanes. -/
theorem WarpsConserved.fallMask_or_takenMask
    {cfg : Config}
    {c : Core}
    {ledger : LaneLedger}
    (conserved : WarpsConserved cfg c ledger)
    (issued : c.state ≠ .sched) :
    c.fallMask cfg ||| c.takenMask cfg = c.im := by
  apply eq_of_hasLane
  intro t
  simp only [hasLane_or, fallMask, takenMask, hasLane_collectLanes]
  cases present : hasLane c.im t with
  | false => simp
  | true =>
      obtain ⟨small, inWarp⟩ := conserved.issued_lane_lt issued present
      cases c.laneTakes cfg t <;> simp [small, inWarp]

/-- `EBREAK` moves the issued lanes from the current path to the retired
lanes. -/
theorem execEbreak_conserved
    {cfg : Config}
    {c : Core}
    {ledger : LaneLedger}
    (conserved : WarpsConserved cfg c ledger)
    (issued : c.state ≠ .sched) :
    WarpsConserved cfg (execEbreak cfg c) (ledger.retire c.iw c.im) := by
  obtain ⟨inRange, valid, copy⟩ := conserved.issued issued
  have current := conserved.partition c.iw inRange
  rw [pathMasks_of_valid valid] at current
  refine ⟨?_, ?_, fun moved => absurd rfl moved⟩
  · intro w wInRange
    by_cases same : w = c.iw
    · subst same
      have popped : (execEbreak cfg c).pathMasks c.iw =
          deferredMasks (c.stackMask c.iw) (c.sp c.iw) := by
        cases depth : c.sp c.iw with
        | zero => simp [execEbreak, nextWarp, pathMasks, depth, deferredMasks]
        | succ s => simp [execEbreak, nextWarp, popPath, setPath, pathMasks, depth, deferredMasks, valid]
      rw [popped]
      simpa [copy] using current.retire
    · have kept : (execEbreak cfg c).pathMasks w = c.pathMasks w := by
        by_cases empty : c.sp c.iw = 0 <;>
          simp [execEbreak, nextWarp, popPath, setPath, pathMasks, empty,
            Function.update_of_ne same]
      rw [kept]
      simpa [Function.update_of_ne same] using
        conserved.partition w wInRange
  · intro w t
    rw [LaneLedger.retire_ebreaks, LaneLedger.retire_retired, conserved.counted w t]
    by_cases same : w = c.iw
    · subst same
      rw [Function.update_self]
      have fresh := and_eq_zero_iff.mp
        (current.retired_disjoint (c.mask c.iw) List.mem_cons_self) t
      rw [← copy] at fresh
      cases present : hasLane c.im t with
      | false => simp [present]
      | true => simp [present, fresh present]
    · simp [same]

/-- What a branch does: fault, split the current path, or rewrite it whole. -/
theorem execBranch_cases
    (cfg : Config)
    (c : Core) :
    (execBranch cfg c = nextWarp cfg c.raise ∧
      (branchGood (funct3 c.inst) = false ∨
        (c.takenMask cfg ≠ 0 ∧ c.fallMask cfg ≠ 0 ∧ stackDepth ≤ c.sp c.iw))) ∨
    (execBranch cfg c = nextWarp cfg
        ((c.pushPath (c.ip + immB c.inst) (c.takenMask cfg)).setPath
          (c.ip + 4) (c.fallMask cfg)) ∧
      branchGood (funct3 c.inst) = true ∧
      c.takenMask cfg ≠ 0 ∧ c.fallMask cfg ≠ 0 ∧ c.sp c.iw < stackDepth) ∨
    (execBranch cfg c =
        nextWarp cfg (c.setPath (c.ip + immB c.inst) (c.takenMask cfg)) ∧
      branchGood (funct3 c.inst) = true ∧ c.fallMask cfg = 0) ∨
    (execBranch cfg c = nextWarp cfg (c.setPath (c.ip + 4) (c.fallMask cfg)) ∧
      branchGood (funct3 c.inst) = true ∧ c.takenMask cfg = 0) := by
  unfold execBranch
  by_cases good : branchGood (funct3 c.inst) = true
  · by_cases taken : c.takenMask cfg = 0#32
    · simp [good, taken]
    · by_cases fall : c.fallMask cfg = 0#32
      · simp [good, taken, fall]
      · by_cases full : stackDepth ≤ c.sp c.iw
        · simp [good, taken, fall, full]
        · simp [good, taken, fall, full, Nat.lt_of_not_le full]
  · simp [good]

/-- A branch keeps the lanes of its warp: it splits the current path in two,
or rewrites it with the same mask. -/
theorem execBranch_conserved
    {cfg : Config}
    {c : Core}
    {ledger : LaneLedger}
    (conserved : WarpsConserved cfg c ledger)
    (issued : c.state ≠ .sched)
    (survives : (execBranch cfg c).ctaActive = true) :
    WarpsConserved cfg (execBranch cfg c) ledger := by
  obtain ⟨inRange, valid, copy⟩ := conserved.issued issued
  have current := conserved.partition c.iw inRange
  rw [pathMasks_of_valid valid] at current
  have whole := conserved.fallMask_or_takenMask issued
  rcases execBranch_cases cfg c with
    ⟨result, _⟩ | ⟨result, _, taken, fall, _⟩ | ⟨result, _, fall⟩ | ⟨result, _, taken⟩
  · rw [result] at survives
    exact absurd survives Bool.false_ne_true
  · rw [result]
    refine ⟨fun w wInRange => ?_, conserved.counted, fun moved => absurd rfl moved⟩
    by_cases same : w = c.iw
    · subst same
      have paths : (nextWarp cfg
          ((c.pushPath (c.ip + immB c.inst) (c.takenMask cfg)).setPath
            (c.ip + 4) (c.fallMask cfg))).pathMasks c.iw =
          c.fallMask cfg :: c.takenMask cfg ::
            deferredMasks (c.stackMask c.iw) (c.sp c.iw) := by
        simp [nextWarp, pushPath, setPath, pathMasks, valid, deferredMasks,
          deferredMasks_update]
      rw [paths]
      exact current.split (by rw [whole, copy]) (takenMask_and_fallMask cfg c) fall taken
    · simpa [nextWarp, pushPath, setPath, pathMasks, Function.update_of_ne same] using
        conserved.partition w wInRange
  · rw [result]
    have rewritten : c.takenMask cfg = c.mask c.iw := by
      rw [← copy, ← whole, fall]
      exact BitVec.zero_or.symm
    apply conserved.of_same_paths _ fun moved => absurd rfl moved
    intro w
    simp [nextWarp, setPath, pathMasks, rewritten]
  · rw [result]
    have rewritten : c.fallMask cfg = c.mask c.iw := by
      rw [← copy, ← whole, taken]
      exact BitVec.or_zero.symm
    apply conserved.of_same_paths _ fun moved => absurd rfl moved
    intro w
    simp [nextWarp, setPath, pathMasks, rewritten]

/-- The word of `EBREAK` reaches its arm of `EXEC`. -/
theorem execute_ebreak
    (cfg : Config)
    (cid : Nat)
    (c : Core)
    (word : c.inst = ebreak) :
    execute cfg cid c = execEbreak cfg c := by
  have registers : badRegister ebreak = false := by decide
  have memory : ¬(opcode ebreak = 0x03 ∨ opcode ebreak = 0x23) := by decide
  simp only [execute, word, registers, memory, Bool.false_eq_true, if_false, if_true]

/-- What the lane loop ends in: a fault, or the shared next program counter. -/
theorem execLanes_cases
    (cfg : Config)
    (cid : Nat)
    (c : Core) :
    (execLanes cfg cid c =
        nextWarp cfg { c with gpr := (laneLoop cfg cid c).gpr }.raise ∧
      ((laneLoop cfg cid c).good = false ∨ (laneLoop cfg cid c).div = true)) ∨
    (execLanes cfg cid c =
        nextWarp cfg { c with
          gpr := (laneLoop cfg cid c).gpr
          pc := Function.update c.pc c.iw (laneLoop cfg cid c).next } ∧
      (laneLoop cfg cid c).good = true ∧ (laneLoop cfg cid c).div = false) := by
  simp only [execLanes]
  cases good : (laneLoop cfg cid c).good <;>
    cases div : (laneLoop cfg cid c).div <;>
    simp

/-- The lane loop changes registers only. -/
theorem execLanes_conserved
    {cfg : Config}
    {cid : Nat}
    {c : Core}
    {ledger : LaneLedger}
    (conserved : WarpsConserved cfg c ledger) :
    WarpsConserved cfg (execLanes cfg cid c) ledger := by
  apply conserved.of_same_paths
  · intro w
    rcases execLanes_cases cfg cid c with ⟨result, _⟩ | ⟨result, _⟩ <;>
      rw [result] <;>
      rfl
  · intro moved
    rcases execLanes_cases cfg cid c with ⟨result, _⟩ | ⟨result, _⟩ <;>
      exact absurd (congrArg Core.state result) moved

/-- `EXEC` keeps the ledger balanced unless it drops the block. -/
theorem execute_conserved
    {cfg : Config}
    {cid : Nat}
    {c : Core}
    {ledger : LaneLedger}
    (conserved : WarpsConserved cfg c ledger)
    (exec : c.state = .exec)
    (survives : (execute cfg cid c).ctaActive = true) :
    WarpsConserved cfg (execute cfg cid c)
      (if c.inst = ebreak then ledger.retire c.iw c.im else ledger) := by
  have issued : c.state ≠ .sched := by simp [exec]
  by_cases word : c.inst = ebreak
  · rw [if_pos word, execute_ebreak cfg cid c word]
    exact execEbreak_conserved conserved issued
  rw [if_neg word]
  unfold execute at survives ⊢
  by_cases registers : badRegister c.inst = true
  · rw [if_pos registers] at survives
    exact absurd survives Bool.false_ne_true
  rw [if_neg registers] at survives ⊢
  by_cases memory : opcode c.inst = 0x03 ∨ opcode c.inst = 0x23
  · rw [if_pos memory]
    exact conserved.of_same_paths (fun _ => rfl) fun _ => conserved.issued issued
  rw [if_neg memory, if_neg word] at survives ⊢
  by_cases branch : opcode c.inst = 0x63
  · rw [if_pos branch] at survives ⊢
    exact execBranch_conserved conserved issued survives
  · rw [if_neg branch]
    exact execLanes_conserved conserved

/-- Issuing a warp copies its current path. -/
theorem schedule_conserved
    {cfg : Config}
    {c : Core}
    {ledger : LaneLedger}
    (conserved : WarpsConserved cfg c ledger)
    (survives : (schedule cfg c).ctaActive = true) :
    WarpsConserved cfg (schedule cfg c) ledger := by
  unfold schedule at survives ⊢
  cases found : circularFirst cfg.numWarps c.rr c.valid with
  | none =>
      rw [found] at survives
      exact absurd survives Bool.false_ne_true
  | some sel =>
      exact conserved.of_same_paths (fun _ => rfl) fun _ =>
        ⟨circularFirst_lt found, circularFirst_ready found, rfl⟩

/-- The memory states do not touch the path stacks. -/
theorem memoryRequest_conserved
    {cfg : Config}
    {c : Core}
    {ledger : LaneLedger}
    (conserved : WarpsConserved cfg c ledger)
    (issued : c.state ≠ .sched) :
    WarpsConserved cfg (memoryRequest cfg c) ledger := by
  unfold memoryRequest
  split_ifs
  · exact conserved.of_same_paths (fun _ => rfl) fun _ => conserved.issued issued
  · exact conserved.of_same_paths (fun _ => rfl) fun moved => absurd rfl moved
  · exact conserved.of_same_paths (fun _ => rfl) fun _ => conserved.issued issued

theorem memoryResponse_conserved
    {cfg : Config}
    {mem : ShadowMemory}
    {c : Core}
    {ledger : LaneLedger}
    (conserved : WarpsConserved cfg c ledger)
    (issued : c.state ≠ .sched) :
    WarpsConserved cfg (memoryResponse cfg mem c) ledger := by
  unfold memoryResponse
  by_cases last : c.mt = cfg.numThreads - 1
  · simp only [last, if_true]
    exact conserved.of_same_paths (fun _ => rfl) fun moved => absurd rfl moved
  · simp only [last, if_false]
    exact conserved.of_same_paths (fun _ => rfl) fun _ => conserved.issued issued

/-- One step of a core keeps the ledger balanced while a block is active. -/
theorem stepCore_conserved
    {cfg : Config}
    {mem : ShadowMemory}
    {launch : LaunchRegisters}
    {cid : Nat}
    {fire : Bool}
    {c : Core}
    {ledger : LaneLedger}
    (conserved : c.ctaActive = true → WarpsConserved cfg c ledger)
    (survives : (stepCore cfg mem launch cid fire c).ctaActive = true) :
    WarpsConserved cfg (stepCore cfg mem launch cid fire c)
      (c.recordStep launch fire ledger) := by
  unfold stepCore at survives ⊢
  unfold recordStep
  cases fire with
  | true => exact acceptCta_conserved cfg launch c
  | false =>
      cases active : c.ctaActive with
      | false => simp [active] at survives
      | true =>
          have conserved := conserved active
          simp only [active, Bool.not_true, Bool.false_eq_true, if_false] at survives ⊢
          cases state : c.state with
          | sched =>
              rw [state] at survives
              have kept : c.retiring = 0 := by simp [retiring, state]
              rw [kept, retire_zero]
              exact schedule_conserved conserved survives
          | fetch =>
              have kept : c.retiring = 0 := by simp [retiring, state]
              rw [kept, retire_zero]
              exact conserved.of_same_paths (fun _ => rfl) fun _ =>
                conserved.issued (by simp [state])
          | exec =>
              rw [state] at survives
              have balanced := execute_conserved conserved state survives
              by_cases word : c.inst = ebreak
              · have lanes : c.retiring = c.im := by simp [retiring, active, state, word]
                rw [lanes]
                rwa [if_pos word] at balanced
              · have kept : c.retiring = 0 := by simp [retiring, word]
                rw [kept, retire_zero]
                rwa [if_neg word] at balanced
          | memReq =>
              have kept : c.retiring = 0 := by simp [retiring, state]
              rw [kept, retire_zero]
              exact memoryRequest_conserved conserved (by simp [state])
          | memResp =>
              have kept : c.retiring = 0 := by simp [retiring, state]
              rw [kept, retire_zero]
              exact memoryResponse_conserved conserved (by simp [state])

/-- A block that ends without a fault has ended in `SCHED` with no valid
warp. -/
theorem stepCore_completes
    {cfg : Config}
    {mem : ShadowMemory}
    {launch : LaunchRegisters}
    {cid : Nat}
    {fire : Bool}
    {c : Core}
    (active : c.ctaActive = true)
    (ended : (stepCore cfg mem launch cid fire c).ctaActive = false)
    (faultFree : (stepCore cfg mem launch cid fire c).fault = false) :
    fire = false ∧ c.state = .sched ∧
      ∀ w, w < cfg.numWarps → c.valid w = false := by
  unfold stepCore at ended faultFree
  cases fire with
  | true => exact Bool.noConfusion ended
  | false =>
      simp only [active, Bool.not_true, Bool.false_eq_true, if_false] at ended faultFree
      cases state : c.state with
      | sched =>
          rw [state] at ended
          cases found : circularFirst cfg.numWarps c.rr c.valid with
          | none => exact ⟨rfl, rfl, circularFirst_eq_none_iff.mp found⟩
          | some sel => simp [schedule, found, active] at ended
      | fetch => simp [state] at ended
      | exec =>
          rw [state] at ended faultFree
          unfold execute at ended faultFree
          split_ifs at ended faultFree with registers memory word branch
          · exact Bool.noConfusion faultFree
          · simp [active] at ended
          · unfold execEbreak at ended
            split_ifs at ended <;> simp [nextWarp, popPath, setPath, active] at ended
          · rcases execBranch_cases cfg c with
              ⟨result, _⟩ | ⟨result, _⟩ | ⟨result, _⟩ | ⟨result, _⟩ <;>
              rw [result] at ended faultFree <;>
              simp [nextWarp, pushPath, setPath, raise, active] at ended faultFree
          · rcases execLanes_cases cfg cid c with ⟨result, _⟩ | ⟨result, _⟩ <;>
              rw [result] at ended faultFree <;>
              simp [nextWarp, raise, active] at ended faultFree
      | memReq =>
          rw [state] at ended
          unfold memoryRequest at ended
          split_ifs at ended <;> simp [finishMemory, nextWarp, active] at ended
      | memResp =>
          rw [state] at ended
          unfold memoryResponse at ended
          by_cases last : c.mt = cfg.numThreads - 1 <;>
            simp [last, finishMemory, nextWarp, active] at ended

end Core

namespace Model

/-- `pack` fills in the packed words only. -/
theorem pack_eq_some
    {cfg : Config}
    {m packed : Model}
    (defined : pack cfg m = some packed) :
    packed = { m with packed := packed.packed } ∧ m.packDefined cfg = true := by
  unfold pack at defined
  split_ifs at defined with shifts
  obtain rfl := Option.some.inj defined
  exact ⟨rfl, shifts⟩

/-- A defined tick is a reset or a clock step, up to the packed words. -/
theorem tick_eq_some
    {cfg : Config}
    {inputs : Inputs}
    {m next : Model}
    (defined : m.tick cfg inputs = some next) :
    (inputs.reset = true ∧
      next = { fresh with mem := m.mem, active := m.active, packed := next.packed }) ∨
    (inputs.reset = false ∧
      next = { (cycleDiffSetInputs inputs m).clock cfg with packed := next.packed } ∧
      (cycleDiffSetInputs inputs m).clockDefined cfg = true) := by
  unfold tick cycleDiffStep at defined
  cases reset : inputs.reset with
  | true =>
      rw [if_pos (by exact reset)] at defined
      exact Or.inl ⟨rfl, (pack_eq_some defined).1⟩
  | false =>
      rw [if_neg (by simp [cycleDiffSetInputs, reset])] at defined
      split_ifs at defined with shifts
      exact Or.inr ⟨rfl, (pack_eq_some defined).1, shifts⟩

/-- Outside reset every core takes one step of its own. -/
theorem tick_cores
    {cfg : Config}
    {inputs : Inputs}
    {m next : Model}
    (defined : m.tick cfg inputs = some next)
    (running : inputs.reset = false)
    {core : Nat}
    (inRange : core < cfg.numCores) :
    next.cores core =
      (m.cores core).stepCore cfg m.mem m.launchRegisters core
        (m.firing cfg == some core) := by
  rcases tick_eq_some defined with ⟨reset, _⟩ | ⟨_, result, _⟩
  · simp [running] at reset
  · rw [result]
    exact if_pos inRange

/-- The ledgers after a tick. -/
def recordTick (cfg : Config) (inputs : Inputs) (m : Model)
    (ledgers : Nat → LaneLedger) : Nat → LaneLedger := fun core =>
  if inputs.reset then LaneLedger.empty
  else
    (m.cores core).recordStep m.launchRegisters (m.firing cfg == some core)
      (ledgers core)

/-- The states that any history of resets, loads and ticks can reach, with the
ledgers of that history. -/
inductive Reachable (cfg : Config) : Model → (Nat → LaneLedger) → Prop
  | init {m : Model} (started : cycleDiffInit cfg = some m) :
      Reachable cfg m fun _ => LaneLedger.empty
  | load {m : Model} {ledgers : Nat → LaneLedger} (pmem : Pmem)
      (reachable : Reachable cfg m ledgers) :
      Reachable cfg (cycleDiffBegin cfg pmem m) ledgers
  | tick {m next : Model} {ledgers : Nat → LaneLedger} (inputs : Inputs)
      (reachable : Reachable cfg m ledgers)
      (defined : m.tick cfg inputs = some next) :
      Reachable cfg next (recordTick cfg inputs m ledgers)

/-- Ticks that assert nothing. -/
def idleTicks (cfg : Config) : Nat → Model → Option Model
  | 0, m => some m
  | count + 1, m => (idleTicks cfg count m).bind (tick cfg .idle)

/-- The pulse and the first `time` ticks after it. -/
def launchTicks (cfg : Config) (m : Model) (time : Nat) : Option Model :=
  (m.tick cfg .launchPulse).bind (idleTicks cfg time)

/-- Ticks extend a history. -/
theorem Reachable.idleTicks
    {cfg : Config}
    {m next : Model}
    {ledgers : Nat → LaneLedger}
    (reachable : Reachable cfg m ledgers)
    {count : Nat}
    (ticked : m.idleTicks cfg count = some next) :
    ∃ ledgers, Reachable cfg next ledgers := by
  induction count generalizing next with
  | zero =>
      cases ticked
      exact ⟨ledgers, reachable⟩
  | succ count inductionHypothesis =>
      obtain ⟨previous, before, last⟩ := Option.bind_eq_some_iff.mp ticked
      obtain ⟨_, reached⟩ := inductionHypothesis before
      exact ⟨_, reached.tick _ last⟩

/-- What holds of a core after reset and is kept by its steps holds along every run. -/
theorem Reachable.core_induction
    {cfg : Config}
    {m : Model}
    {ledgers : Nat → LaneLedger}
    (reachable : Reachable cfg m ledgers)
    (P : Core → Prop)
    (fresh : P Core.fresh)
    (step : ∀ c, P c → ∀ mem launch cid fire, P (c.stepCore cfg mem launch cid fire))
    {core : Nat}
    (inRange : core < cfg.numCores) :
    P (m.cores core) := by
  induction reachable with
  | init started =>
      rw [(pack_eq_some started).1]
      exact fresh
  | load pmem _ inductionHypothesis => exact inductionHypothesis
  | @tick m next ledgers inputs _ defined inductionHypothesis =>
      cases reset : inputs.reset with
      | true =>
          rcases tick_eq_some defined with ⟨_, result⟩ | ⟨noReset, _⟩
          · rw [result]
            exact fresh
          · exact absurd (reset.symm.trans noReset) Bool.noConfusion
      | false =>
          rw [tick_cores defined reset inRange]
          exact step _ inductionHypothesis _ _ _ _

/-- Along every run, every core that runs a block keeps its lanes. -/
theorem Reachable.conserved
    {cfg : Config}
    {m : Model}
    {ledgers : Nat → LaneLedger}
    (reachable : Reachable cfg m ledgers)
    {core : Nat}
    (inRange : core < cfg.numCores)
    (active : (m.cores core).ctaActive = true) :
    (m.cores core).WarpsConserved cfg (ledgers core) := by
  induction reachable with
  | init started =>
      rw [(pack_eq_some started).1] at active
      exact absurd active Bool.false_ne_true
  | load pmem _ inductionHypothesis => exact inductionHypothesis active
  | @tick m next ledgers inputs _ defined inductionHypothesis =>
      cases reset : inputs.reset with
      | true =>
          rcases tick_eq_some defined with ⟨_, result⟩ | ⟨noReset, _⟩
          · rw [result] at active
            exact absurd active Bool.false_ne_true
          · simp [reset] at noReset
      | false =>
          rw [tick_cores defined reset inRange] at active ⊢
          rw [recordTick, if_neg (by simp [reset])]
          exact Core.stepCore_conserved inductionHypothesis active

/-- The lanes that a block of the given size gives to warp `w`. -/
def inBlock (cfg : Config) (blockSize : Word) (w t : Nat) : Prop :=
  t < cfg.numThreads ∧ w * cfg.numThreads + t < blockSize.toNat

/-- With at most 32 lanes per warp the initial mask is exactly the lanes inside
the block. -/
theorem hasLane_initialMask_iff
    {cfg : Config}
    (threads : cfg.numThreads ≤ 32)
    (blockSize : Word)
    {w : Nat}
    (warp : w < cfg.numWarps)
    (t : Nat) :
    hasLane (Core.initialMask cfg blockSize w) t = true ↔ inBlock cfg blockSize w t := by
  rw [Core.hasLane_initialMask, inBlock]
  have fits := cfg.contexts_lt
  constructor
  · rintro ⟨_, lane, inside⟩
    have bound := cfg.context_lt warp lane
    rw [BitVec.lt_def, BitVec.toNat_ofNat, Nat.mod_eq_of_lt (by omega)] at inside
    exact ⟨lane, inside⟩
  · rintro ⟨lane, inside⟩
    have bound := cfg.context_lt warp lane
    refine ⟨by omega, lane, ?_⟩
    rwa [BitVec.lt_def, BitVec.toNat_ofNat, Nat.mod_eq_of_lt (by omega)]

/-- In every reachable state of a core with an active block, the current mask
of a valid warp and the masks of its stack entries are nonempty, pairwise
disjoint and make up the initial mask together with the retired lanes; an
invalid warp has retired them all, and every lane has executed `EBREAK` once if
it is retired and never otherwise. A block that ends without a fault has had
each of its lanes execute `EBREAK` exactly once. -/
theorem lanes_conserved
    {cfg : Config}
    (threads : cfg.numThreads ≤ 32)
    {m : Model}
    {ledgers : Nat → LaneLedger}
    (reachable : Reachable cfg m ledgers)
    {core : Nat}
    (inRange : core < cfg.numCores)
    (active : (m.cores core).ctaActive = true) :
    (∀ w, w < cfg.numWarps → ∃ initial : Word,
      (∀ t, hasLane initial t = true ↔ inBlock cfg (ledgers core).blockSize w t) ∧
      ((m.cores core).valid w = true →
        LanePartition initial ((ledgers core).retired w)
          ((m.cores core).mask w ::
            deferredMasks ((m.cores core).stackMask w) ((m.cores core).sp w))) ∧
      ((m.cores core).valid w = false → (ledgers core).retired w = initial) ∧
      ∀ t, (ledgers core).ebreaks w t =
        (hasLane ((ledgers core).retired w) t).toNat) ∧
    ∀ inputs next, m.tick cfg inputs = some next → inputs.reset = false →
      (next.cores core).ctaActive = false → (next.cores core).fault = false →
      ∀ w, w < cfg.numWarps → ∀ t,
        (inBlock cfg (ledgers core).blockSize w t →
          (recordTick cfg inputs m ledgers core).ebreaks w t = 1) ∧
        (¬inBlock cfg (ledgers core).blockSize w t →
          (recordTick cfg inputs m ledgers core).ebreaks w t = 0) := by
  have conserved := reachable.conserved inRange active
  constructor
  · intro w warp
    refine ⟨Core.initialMask cfg (ledgers core).blockSize w,
      hasLane_initialMask_iff threads _ warp, ?_, ?_, conserved.counted w⟩
    · intro valid
      rw [← Core.pathMasks_of_valid valid]
      exact conserved.partition w warp
    · intro invalid
      have partition := conserved.partition w warp
      rw [Core.pathMasks_of_not_valid invalid] at partition
      exact partition.retired_eq
  · intro inputs next defined running ended faultFree w warp t
    rw [tick_cores defined running inRange] at ended faultFree
    obtain ⟨noFire, sched, invalid⟩ := Core.stepCore_completes active ended faultFree
    have partition := conserved.partition w warp
    rw [Core.pathMasks_of_not_valid (invalid w warp)] at partition
    have kept : (m.cores core).retiring = 0 := by simp [Core.retiring, sched]
    rw [recordTick, if_neg (by simp [running]), Core.recordStep, noFire,
      if_neg Bool.false_ne_true, kept, Core.retire_zero, conserved.counted,
      partition.retired_eq, ← hasLane_initialMask_iff threads _ warp]
    cases hasLane (Core.initialMask cfg (ledgers core).blockSize w) t <;> simp

/-- A block of two threads of `partingKernel` ten ticks after its launch, when the first warp
has executed the branch. -/
def parted : Option Model :=
  (cycleDiffInit Config.onePair).bind fun m0 =>
    ((cycleDiffBegin Config.onePair partingImage m0).tick Config.onePair (.dcrWrite 0x13 2)).bind
      fun m1 => (m1.tick Config.onePair (.dcrWrite 0x19 2)).bind fun m2 =>
        m2.launchTicks Config.onePair 10

theorem reachable_of_parted
    {m : Model}
    (reached : parted = some m) :
    ∃ ledgers, Reachable Config.onePair m ledgers := by
  simp only [parted, launchTicks, Option.bind_eq_some_iff] at reached
  obtain ⟨m0, started, m1, block, m2, size, m3, launched, ticked⟩ := reached
  exact ((((((Reachable.init started).load partingImage).tick _ block).tick _ size).tick _
    launched).idleTicks ticked)

/-- The lanes of that warp have parted. -/
theorem lanes_conserved_parted :
    ∃ m ledgers,
      Reachable Config.onePair m ledgers ∧ (m.cores 0).valid 0 = true ∧
      ∃ initial, LanePartition initial ((ledgers 0).retired 0) [2, 1] := by
  have observed : parted.map (fun m => ((m.cores 0).ctaActive, (m.cores 0).valid 0,
      (m.cores 0).mask 0, (m.cores 0).sp 0, (m.cores 0).stackMask 0 0)) =
        some (true, true, 2, 1, 1) := by decide +kernel
  simp only [Option.map_eq_some_iff, Prod.mk.injEq] at observed
  obtain ⟨m, reached, active, valid, mask, depth, deferred⟩ := observed
  obtain ⟨ledgers, reachable⟩ := reachable_of_parted reached
  obtain ⟨initial, -, partition, -⟩ :=
    (lanes_conserved (by decide) reachable
      (show 0 < Config.onePair.numCores by decide) active).1 0 (by decide)
  have partition := partition valid
  rw [mask, depth, deferredMasks, deferred] at partition
  exact ⟨m, ledgers, reachable, valid, initial, partition⟩

end Model

end OpenGPU
