import OpenGPU.Cycle.Conservation

/-!
# The shifts of `pack`

`pack` shifts by the numbers of the cores, of the valid warps and of the lanes in the memory
loop. What it finds after a step is decided by the state before it.
-/

namespace OpenGPU

namespace Core

open Instruction

/-- The core works on a memory instruction. -/
def InLoop (c : Core) : Prop := c.state = .memReq ∨ c.state = .memResp

/-- The issued warp executes its last `EBREAK`. -/
def finishes (c : Core) : Bool :=
  c.ctaActive && c.state == .exec && c.inst == ebreak && c.sp c.iw == 0

/-- The warps that a step leaves valid: those of the block that it takes, else those that
were valid but for one that finishes. -/
def validNext (cfg : Config) (launch : LaunchRegisters) (fire : Bool) (c : Core) (w : Nat) :
    Bool :=
  if fire then BitVec.ofNat 32 (w * cfg.numThreads) < launch.blockSize
  else c.valid w && !(c.finishes && w == c.iw)

/-- The lane of the memory loop. -/
def loopLane (c : Core) : Option Nat :=
  if c.state = .memReq ∨ c.state = .memResp then some c.mt else none

/-- The lane at which a step leaves the memory loop. -/
def laneNext (cfg : Config) (fire : Bool) (c : Core) : Option Nat :=
  if fire then none
  else if !c.ctaActive then c.loopLane
  else
    match c.state with
    | .exec =>
        if badRegister c.inst = false ∧ (opcode c.inst = 0x03 ∨ opcode c.inst = 0x23) then some 0
        else none
    | .memReq =>
        if hasLane c.im c.mt then some c.mt
        else if c.mt = cfg.numThreads - 1 then none
        else some (c.mt + 1)
    | .memResp => if c.mt = cfg.numThreads - 1 then none else some (c.mt + 1)
    | _ => none

section Packed

variable {cfg : Config} {c : Core}

/-- Only `EXEC` of an `EBREAK` finishes a warp. -/
theorem validNext_of_not_finishes
    (launch : LaunchRegisters)
    (goesOn : c.finishes = false) :
    c.validNext cfg launch false = c.valid := by
  funext w
  simp [validNext, goesOn]

theorem valid_execute
    (launch : LaunchRegisters)
    (cid : Nat)
    (active : c.ctaActive = true)
    (exec : c.state = .exec) :
    (execute cfg cid c).valid = c.validNext cfg launch false := by
  by_cases word : c.inst = ebreak
  · rw [execute, if_neg (by rw [word]; decide), if_neg (by rw [word]; decide), if_pos word]
    unfold execEbreak
    split_ifs with deferred
    · rw [validNext_of_not_finishes launch (by simp [finishes, deferred])]
      rfl
    · funext w
      have last : c.finishes = true := by
        simpa [finishes, active, exec, word] using deferred
      by_cases same : w = c.iw <;> simp [validNext, last, nextWarp, same]
  · rw [validNext_of_not_finishes launch (by simp [finishes, word])]
    unfold execute
    split_ifs
    · rfl
    · rfl
    · unfold execBranch
      extract_lets
      split_ifs <;> rfl
    · unfold execLanes
      extract_lets
      split_ifs <;> rfl

/-- The warps after a step. -/
theorem valid_stepCore
    (mem : ShadowMemory)
    (launch : LaunchRegisters)
    (cid : Nat)
    (fire : Bool) :
    (stepCore cfg mem launch cid fire c).valid = c.validNext cfg launch fire := by
  cases fire with
  | true => rfl
  | false =>
    cases active : c.ctaActive with
    | false =>
        rw [validNext_of_not_finishes launch (by simp [finishes, active])]
        simp [stepCore, active]
    | true =>
        rw [stepCore, if_neg Bool.false_ne_true, if_neg (by simp [active])]
        cases state : c.state
        case exec => exact valid_execute launch cid active state
        all_goals
          rw [validNext_of_not_finishes launch (by simp [finishes, state])]
        case sched =>
          dsimp only
          unfold schedule
          cases circularFirst cfg.numWarps c.rr c.valid <;> rfl
        case memReq =>
          dsimp only
          unfold memoryRequest
          split_ifs <;> rfl
        case memResp =>
          dsimp only
          unfold memoryResponse
          extract_lets
          split_ifs <;> rfl

theorem loopLane_execute
    (cid : Nat) :
    (execute cfg cid c).loopLane =
      if badRegister c.inst = false ∧ (opcode c.inst = 0x03 ∨ opcode c.inst = 0x23) then some 0
      else none := by
  unfold execute
  by_cases bad : badRegister c.inst = true
  · simp [bad, loopLane]
  · rw [if_neg bad]
    by_cases access : opcode c.inst = 0x03 ∨ opcode c.inst = 0x23
    · rw [if_pos access, if_pos ⟨Bool.eq_false_of_not_eq_true bad, access⟩]
      rfl
    · rw [if_neg access, if_neg (show ¬(badRegister c.inst = false ∧ _) from
        fun both => access both.2)]
      split_ifs <;> rfl

/-- The lane after a step. -/
theorem loopLane_stepCore
    (mem : ShadowMemory)
    (launch : LaunchRegisters)
    (cid : Nat)
    (fire : Bool) :
    (stepCore cfg mem launch cid fire c).loopLane = c.laneNext cfg fire := by
  cases fire with
  | true => rfl
  | false =>
    cases active : c.ctaActive with
    | false => simp [stepCore, laneNext, active]
    | true =>
        rw [stepCore, laneNext, if_neg Bool.false_ne_true, if_neg (by simp [active]),
          if_neg Bool.false_ne_true, if_neg (by simp [active])]
        cases state : c.state with
        | exec => exact loopLane_execute cid
        | sched =>
            dsimp only
            unfold schedule
            cases circularFirst cfg.numWarps c.rr c.valid <;> simp [loopLane, state]
        | fetch => rfl
        | memReq =>
            dsimp only
            unfold memoryRequest
            split_ifs
            · rfl
            · rfl
            · simp [loopLane, state]
        | memResp =>
            dsimp only
            unfold memoryResponse
            extract_lets
            split_ifs <;> rfl

end Packed

end Core

namespace Model

/-- `pack` is defined on one core. -/
structure Packs (cfg : Config) (c : Core) : Prop where
  warps : ∀ w, w < cfg.numWarps → c.valid w = true → w < 32
  lane : c.InLoop → c.mt < 32

theorem packDefined_iff
    {cfg : Config}
    {m : Model} :
    m.packDefined cfg = true ↔
      cfg.numCores ≤ 32 ∧ ∀ core, core < cfg.numCores → Packs cfg (m.cores core) := by
  rw [packDefined, Bool.and_eq_true, decide_eq_true_eq, List.all_eq_true]
  refine and_congr_right fun _ => forall_congr' fun core => ?_
  rw [List.mem_range]
  refine imp_congr_right fun _ => ?_
  rw [Bool.and_eq_true, List.all_eq_true]
  have warps : (∀ w ∈ List.range cfg.numWarps,
      (!(m.cores core).valid w || decide (w < 32)) = true) ↔
        ∀ w, w < cfg.numWarps → (m.cores core).valid w = true → w < 32 := by
    refine forall_congr' fun w => ?_
    rw [List.mem_range]
    refine imp_congr_right fun _ => ?_
    cases (m.cores core).valid w <;> simp
  have lane : (!((m.cores core).state == .memReq || (m.cores core).state == .memResp) ||
      decide ((m.cores core).mt < 32)) = true ↔
        ((m.cores core).InLoop → (m.cores core).mt < 32) := by
    unfold Core.InLoop
    cases (m.cores core).state <;> simp
  rw [warps, lane]
  exact ⟨fun both => ⟨both.1, both.2⟩, fun packs => ⟨packs.warps, packs.lane⟩⟩

/-- In a state after a tick everything can be packed. -/
theorem packDefined_of_tick
    {cfg : Config}
    {m next : Model}
    {inputs : Inputs}
    (ticked : m.tick cfg inputs = some next) :
    next.packDefined cfg = true := by
  unfold tick cycleDiffStep at ticked
  split_ifs at ticked
  · rw [(pack_eq_some ticked).1]
    exact (pack_eq_some ticked).2
  · rw [(pack_eq_some ticked).1]
    exact (pack_eq_some ticked).2

/-- What `pack` asks of a core is decided before its step. -/
theorem packs_stepCore_iff
    {cfg : Config}
    {mem : ShadowMemory}
    {launch : LaunchRegisters}
    {cid : Nat}
    {fire : Bool}
    {c : Core} :
    Packs cfg (c.stepCore cfg mem launch cid fire) ↔
      (∀ w, w < cfg.numWarps → c.validNext cfg launch fire w = true → w < 32) ∧
        ∀ t ∈ c.laneNext cfg fire, t < 32 := by
  rw [← Core.valid_stepCore mem launch cid fire, ← Core.loopLane_stepCore mem launch cid fire]
  constructor
  · intro packs
    refine ⟨packs.warps, fun t member => ?_⟩
    rw [Core.loopLane, Option.mem_def] at member
    split_ifs at member with inLoop
    cases member
    exact packs.lane inLoop
  · rintro ⟨warps, lane⟩
    refine ⟨warps, fun inLoop => lane _ ?_⟩
    exact Option.mem_def.mpr (if_pos inLoop)

end Model

end OpenGPU
