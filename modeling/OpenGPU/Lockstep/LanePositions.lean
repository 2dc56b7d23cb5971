import OpenGPU.Dispatch.Coordinates
import OpenGPU.Lockstep.LaneThread

/-!
# Where the lanes of a block stand

Every thread of a block has a run of its own. While a core works on the block, each of
its lanes stands somewhere in that run: the lanes of one path after equally many
instructions and at the program counter of the path, the lanes of a load or store that is
under way before or after it, and a lane on no path at the end.
-/

namespace OpenGPU

open Instruction

/-- What the threads of block `b` do on their own, each of them until it halts. -/
structure LaneRuns (cfg : Config) (info : LaunchInfo) (blockSize : Word) (b : Nat) where
  core : Nat → Nat → IssCore
  mem : Nat → Nat → Pmem
  ends : Nat → Nat
  start : ∀ x, x < blockSize.toNat → core x 0 = Iss.thread cfg info blockSize b x
  identity : ∀ x k, x < blockSize.toNat →
    (Iss.thread cfg info blockSize b x).SameThread (core x k)
  moves : ∀ x k, x < blockSize.toNat → k < ends x →
    Iss.cleanStep cfg (core x k) (mem x k) = some (core x (k + 1), mem x (k + 1))
  awake : ∀ x k, x < blockSize.toNat → k < ends x → (core x k).halted = false
  halted : ∀ x, x < blockSize.toNat → (core x (ends x)).halted = true
  plain : ∀ x k, x < blockSize.toNat → k < ends x →
    Iss.Plain (core x k) (Iss.wordAt (mem x k) (core x k).pc)
  sameTarget : ∀ x y, x < blockSize.toNat → y < blockSize.toNat →
    x / cfg.numThreads = y / cfg.numThreads → ∀ k, k < ends x → k < ends y →
    ∀ inst, opcode inst = 0x67 → (core x k).pc = (core y k).pc →
      Iss.wordAt (mem x k) (core x k).pc = inst → Iss.wordAt (mem y k) (core y k).pc = inst →
      (core x k).jalrTarget inst = (core y k).jalrTarget inst

namespace LaneRuns

variable {cfg : Config} {info : LaunchInfo} {blockSize : Word} {b x k : Nat}

/-- The word that thread `x` executes after `k` instructions. -/
def word (runs : LaneRuns cfg info blockSize b) (x k : Nat) : Word :=
  Iss.wordAt (runs.mem x k) (runs.core x k).pc

/-- What it touches then. -/
def touches (runs : LaneRuns cfg info blockSize b) (x k : Nat) : Footprint Word :=
  Iss.footprint (runs.core x k) (runs.mem x k)

/-- A thread that is awake is not at its end. -/
theorem lt_ends
    (runs : LaneRuns cfg info blockSize b)
    (inBlock : x < blockSize.toNat)
    (early : k < runs.ends x)
    (awake : (runs.core x (k + 1)).halted = false) :
    k + 1 < runs.ends x := by
  by_contra late
  have last : k + 1 = runs.ends x := by omega
  rw [last, runs.halted x inBlock] at awake
  exact Bool.noConfusion awake

/-- A thread that has halted is at its end. -/
theorem eq_ends
    (runs : LaneRuns cfg info blockSize b)
    (inBlock : x < blockSize.toNat)
    (early : k < runs.ends x)
    (stopped : (runs.core x (k + 1)).halted = true) :
    k + 1 = runs.ends x := by
  by_contra other
  have awake := runs.awake x (k + 1) inBlock (by omega)
  exact Bool.noConfusion (awake.symm.trans stopped)

end LaneRuns

/-! ## Paths of a warp -/

/-- The lowest `depth` stack entries, newest first. -/
def deferredPaths (pcs masks : Nat → Word) : Nat → List (Word × Word)
  | 0 => []
  | depth + 1 => (pcs depth, masks depth) :: deferredPaths pcs masks depth

/-- Writing an entry that is not below the stack pointer changes no deferred path. -/
theorem deferredPaths_update
    (pcs masks : Nat → Word)
    (entry : Nat)
    (pc mask : Word)
    (depth : Nat)
    (above : depth ≤ entry) :
    deferredPaths (Function.update pcs entry pc) (Function.update masks entry mask) depth =
      deferredPaths pcs masks depth := by
  induction depth with
  | zero => rfl
  | succ depth inductionHypothesis =>
      have different : depth ≠ entry := by omega
      rw [deferredPaths, deferredPaths, inductionHypothesis (by omega),
        Function.update_of_ne different, Function.update_of_ne different]

theorem map_deferredPaths
    (pcs masks : Nat → Word)
    (depth : Nat) :
    (deferredPaths pcs masks depth).map Prod.snd = deferredMasks masks depth := by
  induction depth with
  | zero => rfl
  | succ depth inductionHypothesis =>
      rw [deferredPaths, deferredMasks, List.map_cons, inductionHypothesis]

namespace Core

/-- The deferred paths of a warp. -/
def deferred (c : Core) (w : Nat) : List (Word × Word) :=
  deferredPaths (c.stackPc w) (c.stackMask w) (c.sp w)

/-- The current and the deferred paths of a warp, current first. -/
def paths (c : Core) (w : Nat) : List (Word × Word) :=
  if c.valid w then (c.pc w, c.mask w) :: c.deferred w else []

theorem map_paths
    (c : Core)
    (w : Nat) :
    (c.paths w).map Prod.snd = c.pathMasks w := by
  unfold paths pathMasks
  split_ifs
  · rw [List.map_cons, deferred, map_deferredPaths]
  · rfl

/-- The states of a load or store. -/
def InMemory (c : Core) : Prop := c.state = .memReq ∨ c.state = .memResp

/-- Lane `t` has been through the load or store that is under way. -/
def Served (c : Core) (t : Nat) : Prop :=
  c.InMemory ∧ (t < c.mt ∨ (t = c.mt ∧ c.state = .memResp ∧ opcode c.inst = 0x23))

end Core

/-! ## Positions -/

section Positions

variable {cfg : Config} {info : LaunchInfo} {blockSize : Word} {b : Nat}

/-- Thread `x` stands before its instruction `count`, at `pc` and with the registers of
its context. -/
structure Stands (runs : LaneRuns cfg info blockSize b) (q : Nat → Nat) (c : Core)
    (x count : Nat) (pc : Word) : Prop where
  inBlock : x < blockSize.toNat
  executed : q x = count
  awake : count < runs.ends x
  address : (runs.core x count).pc = pc
  gpr : ∀ r, r < 16 → (runs.core x count).gpr r = c.gpr x r

/-- The lanes of a path stand at its program counter, after equally many instructions. -/
def OnPath (runs : LaneRuns cfg info blockSize b) (q : Nat → Nat) (c : Core) (w : Nat)
    (path : Word × Word) : Prop :=
  ∃ count, ∀ t, hasLane path.2 t = true →
    t < cfg.numThreads ∧ Stands runs q c (w * cfg.numThreads + t) count path.1

/-- The issued lanes stand at the issued address, or behind it once they are served, and
have the word before them that has been fetched. -/
def OnIssue (runs : LaneRuns cfg info blockSize b) (q : Nat → Nat) (c : Core) : Prop :=
  ∃ count, ∀ t, hasLane c.im t = true →
    t < cfg.numThreads ∧
      (c.Served t → Stands runs q c (c.context cfg t) (count + 1) (c.ip + 4)) ∧
      (¬c.Served t → Stands runs q c (c.context cfg t) count c.ip ∧
        (c.state ≠ .fetch → runs.word (c.context cfg t) count = c.inst))

/-- Where all lanes of a core stand that works on the block. -/
structure Positions (runs : LaneRuns cfg info blockSize b) (q : Nat → Nat) (c : Core) :
    Prop where
  cta : c.cta = (Model.LaunchRun.blockRegisters (info.registers blockSize) b).cta
  waiting : ∀ w, w < cfg.numWarps → (c.state ≠ .sched → w ≠ c.iw) → ∀ path ∈ c.paths w,
    OnPath runs q c w path
  deferred : c.state ≠ .sched → ∀ path ∈ c.deferred c.iw, OnPath runs q c c.iw path
  issued : c.state ≠ .sched → OnIssue runs q c
  memory : c.InMemory → opcode c.inst = 0x03 ∨ opcode c.inst = 0x23
  responding : c.state = .memResp → hasLane c.im c.mt = true
  ended : ∀ w t, w < cfg.numWarps → Model.inBlock cfg blockSize w t →
    (∀ path ∈ c.paths w, hasLane path.2 t = false) →
    q (w * cfg.numThreads + t) = runs.ends (w * cfg.numThreads + t)

variable {runs : LaneRuns cfg info blockSize b} {q q' : Nat → Nat} {c c' : Core} {x w t count : Nat}
  {pc : Word} {path : Word × Word}

/-- A lane that does nothing stays where it stands. -/
theorem Stands.frame
    (stands : Stands runs q c x count pc)
    (registers : c'.gpr x = c.gpr x)
    (same : q' x = q x) :
    Stands runs q' c' x count pc where
  inBlock := stands.inBlock
  executed := same.trans stands.executed
  awake := stands.awake
  address := stands.address
  gpr r small := by
    rw [registers]
    exact stands.gpr r small

/-- A thread that executes an instruction and goes on stands behind it. -/
theorem Stands.step
    (stands : Stands runs q c x count pc)
    (same : q' x = q x + 1)
    (awake : (runs.core x (count + 1)).halted = false)
    {next : Word}
    (address : (runs.core x (count + 1)).pc = next)
    (registers : ∀ r, r < 16 → (runs.core x (count + 1)).gpr r = c'.gpr x r) :
    Stands runs q' c' x (count + 1) next where
  inBlock := stands.inBlock
  executed := by rw [same, stands.executed]
  awake := runs.lt_ends stands.inBlock stands.awake awake
  address := address
  gpr := registers

/-- Two lanes have one context only if they are one lane. -/
theorem lane_inj
    {w' t' : Nat}
    (lane : t < cfg.numThreads)
    (lane' : t' < cfg.numThreads)
    (same : w * cfg.numThreads + t = w' * cfg.numThreads + t') :
    w = w' ∧ t = t' := by
  have warp : w = w' := by
    have left : (w * cfg.numThreads + t) / cfg.numThreads = w := by
      rw [Nat.mul_comm, Nat.mul_add_div cfg.numThreads_pos, Nat.div_eq_of_lt lane, Nat.add_zero]
    have right : (w' * cfg.numThreads + t') / cfg.numThreads = w' := by
      rw [Nat.mul_comm, Nat.mul_add_div cfg.numThreads_pos, Nat.div_eq_of_lt lane', Nat.add_zero]
    rw [← left, same, right]
  subst warp
  exact ⟨rfl, Nat.add_left_cancel same⟩

/-- Only issued lanes do anything. -/
def OthersKept (cfg : Config) (c c' : Core) (q q' : Nat → Nat) : Prop :=
  ∀ x, (∀ t, t < cfg.numThreads → hasLane c.im t = true → x ≠ c.context cfg t) →
    c'.gpr x = c.gpr x ∧ q' x = q x

/-- A path without issued lanes stays where it is. -/
theorem OnPath.frame
    (onPath : OnPath runs q c w path)
    (kept : OthersKept cfg c c' q q')
    (apart : w = c.iw → path.2 &&& c.im = 0) :
    OnPath runs q' c' w path := by
  obtain ⟨count, all⟩ := onPath
  refine ⟨count, fun t member => ?_⟩
  obtain ⟨lane, stands⟩ := all t member
  obtain ⟨registers, same⟩ := kept (w * cfg.numThreads + t) fun t' lane' issued here => by
    obtain ⟨warp, rfl⟩ := lane_inj lane lane' here
    have free := and_eq_zero_iff.mp (apart warp) t member
    exact Bool.noConfusion (issued.symm.trans free)
  exact ⟨lane, stands.frame registers same⟩

section Issued

variable {ledger : LaneLedger}

/-- The paths of the issued warp, and that the issued lanes are on the first one only. -/
theorem Core.WarpsConserved.paths_issued
    (conserved : c.WarpsConserved cfg ledger)
    (kept : c.IssueKept)
    (issued : c.state ≠ .sched) :
    c.paths c.iw = (c.ip, c.im) :: c.deferred c.iw ∧ c.im ≠ 0 ∧
      ∀ path ∈ c.deferred c.iw, path.2 &&& c.im = 0 := by
  obtain ⟨inRange, valid, copy⟩ := conserved.issued issued
  have whole : c.paths c.iw = (c.ip, c.im) :: c.deferred c.iw := by
    rw [Core.paths, if_pos valid, kept.pc issued, copy]
  have partition := conserved.partition c.iw inRange
  rw [← Core.map_paths, whole, List.map_cons] at partition
  refine ⟨whole, partition.nonempty _ List.mem_cons_self, fun path member => ?_⟩
  have disjoint := (List.pairwise_cons.mp partition.disjoint).1 path.2
    (List.mem_map_of_mem member)
  rw [BitVec.and_comm]
  exact disjoint

/-- A step inside an instruction keeps everything but the position of the issued lanes. -/
theorem Positions.within
    (positions : Positions runs q c)
    (conserved : c.WarpsConserved cfg ledger)
    (keptIssue : c.IssueKept)
    (issued : c.state ≠ .sched)
    (kept : OthersKept cfg c c' q q')
    (cta : c'.cta = c.cta)
    (state : c'.state ≠ .sched)
    (warp : c'.iw = c.iw)
    (paths : c'.paths = c.paths)
    (stack : c'.deferred = c.deferred)
    (onIssue : OnIssue runs q' c')
    (memory : c'.InMemory → opcode c'.inst = 0x03 ∨ opcode c'.inst = 0x23)
    (responding : c'.state = .memResp → hasLane c'.im c'.mt = true) :
    Positions runs q' c' where
  cta := cta.trans positions.cta
  waiting w inRange other path member := by
    have apart : w ≠ c.iw := warp ▸ other state
    rw [paths] at member
    exact (positions.waiting w inRange (fun _ => apart) path member).frame kept
      fun same => absurd same apart
  deferred _ path member := by
    rw [stack, warp] at member
    rw [warp]
    exact (positions.deferred issued path member).frame kept fun _ =>
      (conserved.paths_issued keptIssue issued).2.2 path member
  issued _ := onIssue
  memory := memory
  responding := responding
  ended w t inRange inBlock free := by
    rw [paths] at free
    rw [← positions.ended w t inRange inBlock free]
    refine (kept _ fun t' lane' also here => ?_).2
    obtain ⟨rfl, rfl⟩ := lane_inj inBlock.1 lane' here
    have first := free (c.ip, c.im) (by
      rw [(conserved.paths_issued keptIssue issued).1]
      exact List.mem_cons_self)
    exact Bool.noConfusion (also.symm.trans first)

/-- The end of an instruction: the issued lanes go on along some paths or halt, and
everything else stays. -/
theorem Positions.regroup
    (positions : Positions runs q c)
    (conserved : c.WarpsConserved cfg ledger)
    (keptIssue : c.IssueKept)
    (issued : c.state ≠ .sched)
    (kept : OthersKept cfg c c' q q')
    (cta : c'.cta = c.cta)
    (state : c'.state = .sched)
    (others : ∀ w, w ≠ c.iw → c'.paths w = c.paths w)
    (heads : List (Word × Word))
    (own : c'.paths c.iw = heads ++ c.deferred c.iw)
    (onPath : ∀ path ∈ heads, OnPath runs q' c' c.iw path)
    (halted : ∀ t, t < cfg.numThreads → hasLane c.im t = true →
      (∀ path ∈ heads, hasLane path.2 t = false) →
      q' (c.context cfg t) = runs.ends (c.context cfg t)) :
    Positions runs q' c' where
  cta := cta.trans positions.cta
  waiting w inRange _ path member := by
    rcases eq_or_ne w c.iw with rfl | other
    · rw [own] at member
      rcases List.mem_append.mp member with head | stacked
      · exact onPath path head
      · exact (positions.deferred issued path stacked).frame kept fun _ =>
          (conserved.paths_issued keptIssue issued).2.2 path stacked
    · rw [others w other] at member
      exact (positions.waiting w inRange (fun _ => other) path member).frame kept
        fun same => absurd same other
  deferred moved := absurd state moved
  issued moved := absurd state moved
  memory moved := by
    rcases moved with moved | moved <;> exact CoreState.noConfusion (state.symm.trans moved)
  responding moved := CoreState.noConfusion (state.symm.trans moved)
  ended w t inRange inBlock free := by
    have whole := (conserved.paths_issued keptIssue issued).1
    rcases eq_or_ne w c.iw with rfl | other
    · rw [own] at free
      by_cases also : hasLane c.im t = true
      · exact halted t inBlock.1 also fun path head => free path (List.mem_append_left _ head)
      · have before := positions.ended c.iw t inRange inBlock fun path member => by
          rw [whole] at member
          rcases List.mem_cons.mp member with rfl | stacked
          · exact Bool.eq_false_of_not_eq_true also
          · exact free path (List.mem_append_right _ stacked)
        rw [← before]
        refine (kept _ fun t' lane' also' here => ?_).2
        obtain ⟨_, rfl⟩ := lane_inj inBlock.1 lane' here
        exact also also'
    · rw [others w other] at free
      rw [← positions.ended w t inRange inBlock free]
      refine (kept _ fun t' lane' _ here => ?_).2
      exact other (lane_inj inBlock.1 lane' here).1

/-- The end of an instruction after which all issued lanes go on along one path. -/
theorem Positions.goOn
    (positions : Positions runs q c)
    (conserved : c.WarpsConserved cfg ledger)
    (keptIssue : c.IssueKept)
    (issued : c.state ≠ .sched)
    (kept : OthersKept cfg c c' q q')
    (cta : c'.cta = c.cta)
    (state : c'.state = .sched)
    (others : ∀ w, w ≠ c.iw → c'.paths w = c.paths w)
    (path : Word × Word)
    (own : c'.paths c.iw = [path] ++ c.deferred c.iw)
    (onPath : OnPath runs q' c' c.iw path)
    (covers : ∀ t, hasLane c.im t = true → hasLane path.2 t = true) :
    Positions runs q' c' := by
  refine positions.regroup conserved keptIssue issued kept cta state others [path] own ?_ ?_
  · intro other member
    rw [List.mem_singleton.mp member]
    exact onPath
  · intro t _ present free
    have missing := free path List.mem_cons_self
    rw [covers t present] at missing
    exact Bool.noConfusion missing

end Issued

/-- A lane that stands at the issued address is its context. -/
theorem Stands.laneIs
    (inGrid : b < info.gridDim.count)
    (cid : Nat)
    (cta : c.cta = (Model.LaunchRun.blockRegisters (info.registers blockSize) b).cta)
    (lane : t < cfg.numThreads)
    (stands : Stands runs q c (c.context cfg t) count c.ip) :
    LaneIs cfg cid c t (runs.core (c.context cfg t) count) := by
  have coordinates := @Core.coordinates_acceptCta cfg info blockSize b inGrid c c.iw t lane
  rw [Core.coordinates, IssCore.coordinates, ThreadCoordinates.mk.injEq] at coordinates
  obtain ⟨globalId, -, -, warpId, laneId⟩ := coordinates
  have awake := runs.awake _ _ stands.inBlock stands.awake
  rw [Core.cta, LaunchRegisters.cta, CtaRegisters.mk.injEq] at cta
  obtain ⟨block, dim, grid, args, tx, ty, tz, gid⟩ := cta
  refine ⟨stands.gpr, ?_⟩
  have identity := runs.identity (c.context cfg t) count stands.inBlock
  rw [IssCore.SameThread, awake, stands.address] at identity
  rw [show (Iss.thread cfg info blockSize b (c.context cfg t)).hartid = c.gid (c.context cfg t) by
      rw [gid]; exact globalId.symm,
    show (Iss.thread cfg info blockSize b (c.context cfg t)).warpId = BitVec.ofNat 32 c.iw from
      warpId.symm,
    show (Iss.thread cfg info blockSize b (c.context cfg t)).laneId = BitVec.ofNat 32 t from
      laneId.symm] at identity
  rw [IssCore.placedAt, identity, Core.thread, block, dim, grid, args, tx, ty, tz]
  rfl

/-- Only the counts of the block's own threads matter. -/
theorem Stands.congr
    (stands : Stands runs q c x count pc)
    (same : ∀ x, x < blockSize.toNat → q' x = q x) :
    Stands runs q' c x count pc :=
  stands.frame rfl (same x stands.inBlock)

theorem Positions.congr
    (positions : Positions runs q c)
    (same : ∀ x, x < blockSize.toNat → q' x = q x) :
    Positions runs q' c := by
  have onPath : ∀ {w path}, OnPath runs q c w path → OnPath runs q' c w path := by
    rintro w path ⟨count, all⟩
    exact ⟨count, fun t member => ⟨(all t member).1, (all t member).2.congr same⟩⟩
  refine ⟨positions.cta, fun w inRange other path member =>
      onPath (positions.waiting w inRange other path member),
    fun issued path member => onPath (positions.deferred issued path member), fun issued => ?_,
    positions.memory, positions.responding, fun w t inRange inBlock free => ?_⟩
  · obtain ⟨count, all⟩ := positions.issued issued
    refine ⟨count, fun t present => ?_⟩
    obtain ⟨lane, served, pending⟩ := all t present
    exact ⟨lane, fun before => (served before).congr same, fun after =>
      ⟨(pending after).1.congr same, (pending after).2⟩⟩
  · rw [same _ inBlock.2]
    exact positions.ended w t inRange inBlock free

/-- A core that takes the block has all lanes at their starts. -/
theorem positions_acceptCta
    (threads : cfg.numThreads ≤ 32)
    (untouched : ∀ x, x < blockSize.toNat → q x = 0)
    (c : Core) :
    Positions runs q
      (Core.acceptCta cfg (Model.LaunchRun.blockRegisters (info.registers blockSize) b) c) where
  cta := rfl
  waiting w inRange _ path member := by
    unfold Core.paths at member
    split_ifs at member
    · obtain rfl : path = (info.entry, Core.initialMask cfg blockSize w) :=
        List.mem_singleton.mp member
      refine ⟨0, fun t present => ?_⟩
      obtain ⟨lane, inBlock⟩ :=
        (Model.hasLane_initialMask_iff threads blockSize inRange t).mp present
      have start := runs.start _ inBlock
      refine ⟨lane, inBlock, untouched _ inBlock, Nat.pos_of_ne_zero fun none => ?_, ?_, ?_⟩
      · have halted := runs.halted _ inBlock
        rw [none, start] at halted
        exact Bool.noConfusion halted
      · rw [start]
        rfl
      · intro r _
        rw [start]
        rfl
    · exact absurd member List.not_mem_nil
  deferred moved := absurd rfl moved
  issued moved := absurd rfl moved
  memory moved := by rcases moved with moved | moved <;> exact CoreState.noConfusion moved
  responding moved := CoreState.noConfusion moved
  ended w t inRange inBlock free := by
    have valid : BitVec.ofNat 32 (w * cfg.numThreads) < blockSize := by
      have fits := cfg.contexts_lt
      have bound := cfg.context_lt inRange cfg.numThreads_pos
      have inside := inBlock.2
      rw [BitVec.lt_def, BitVec.toNat_ofNat, Nat.mod_eq_of_lt (by omega)]
      omega
    have whole : (Core.acceptCta cfg
        (Model.LaunchRun.blockRegisters (info.registers blockSize) b) c).paths w =
          [(info.entry, Core.initialMask cfg blockSize w)] :=
      if_pos (decide_eq_true valid)
    have missing := free (info.entry, Core.initialMask cfg blockSize w) (by
      rw [whole]
      exact List.mem_cons_self)
    have present := (Model.hasLane_initialMask_iff threads blockSize inRange t).mpr inBlock
    exact Bool.noConfusion (missing.symm.trans present)

end Positions

end OpenGPU
