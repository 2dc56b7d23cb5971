import OpenGPU.Cycle.ShiftAmounts
import OpenGPU.Iss.OwnRuns
import OpenGPU.Lockstep.CoreAtWork

/-!
# A launch and its threads

The threads of a launch that finishes in the instruction-set simulator, block by block,
and how far the cycle model has brought each of them. Every core moves lanes of the block
that it holds, so the memory of the cycle model shows every thread what it sees on its
own.
-/

namespace OpenGPU

open Instruction

/-- An accepted launch that finishes in the instruction-set simulator, and what its
contexts do on their own. -/
structure LaunchRuns (cfg : Config) (info : LaunchInfo) (blockSize : Word) where
  start : Iss
  pmem : Pmem
  ends : Nat → Nat
  final : Pmem
  accepted : info.Accepted cfg blockSize
  launched : Iss.Launched cfg info blockSize pmem start
  own : Iss.OwnRuns cfg start ends final

namespace LaunchRuns

variable {cfg : Config} {info : LaunchInfo} {blockSize : Word}
  (runs : LaunchRuns cfg info blockSize) {b x k : Nat}

/-- The number of a thread of the launch. -/
theorem number_lt
    (inGrid : b < info.gridDim.count)
    (inBlock : x < blockSize.toNat) :
    b * blockSize.toNat + x < runs.start.ncores := by
  rw [runs.launched.ncores]
  exact Iss.thread_lt inGrid inBlock

/-- One instruction of a context on its own leaves its identity alone. -/
theorem identity
    (i k : Nat) :
    (runs.start.cores i).SameThread (Iss.own cfg runs.start i k).1 := by
  induction k with
  | zero => exact IssCore.SameThread.refl _
  | succ k inductionHypothesis =>
      show (runs.start.cores i).SameThread ((Iss.cleanStep cfg (Iss.own cfg runs.start i k).1
        (Iss.own cfg runs.start i k).2).getD (Iss.own cfg runs.start i k)).1
      cases moved : Iss.cleanStep cfg (Iss.own cfg runs.start i k).1
          (Iss.own cfg runs.start i k).2 with
      | none => exact inductionHypothesis
      | some next =>
          have ran := Iss.cleanStep_eq_some_iff.mp moved
          exact inductionHypothesis.trans (Iss.execute_sameThread ran)

/-- The threads of one block. -/
def block (b : Nat) (inGrid : b < info.gridDim.count) : LaneRuns cfg info blockSize b where
  core x k := (Iss.own cfg runs.start (b * blockSize.toNat + x) k).1
  mem x k := (Iss.own cfg runs.start (b * blockSize.toNat + x) k).2
  ends x := runs.ends (b * blockSize.toNat + x)
  start x inBlock := runs.launched.thread b x inGrid inBlock
  identity x k inBlock := by
    rw [← runs.launched.thread b x inGrid inBlock]
    exact runs.identity _ k
  moves x k _ early := (runs.own.follows.makes _).step k early
  awake x k inBlock early := by
    have awake := (runs.own.follows.makes _).awake k early
    by_contra halted
    exact awake fun _ => Bool.eq_true_of_not_eq_false halted
  halted x inBlock := runs.own.halted _ (runs.number_lt inGrid inBlock)
  plain x k _ early := runs.own.plain _ k early
  sameTarget x y left right sameWarp k first second inst code address leftWord rightWord := by
    have together : (runs.start.cores (b * blockSize.toNat + x)).sameWarp
        (runs.start.cores (b * blockSize.toNat + y)) = true := by
      rw [runs.launched.thread b x inGrid left, runs.launched.thread b y inGrid right]
      simp [IssCore.sameWarp, Iss.thread, sameWarp]
    have same := runs.own.sameTarget _ _ together k first second address
      (leftWord.trans rightWord.symm) (by rw [Iss.ownWord, rightWord]; exact code)
    rw [show Iss.ownWord cfg runs.start (b * blockSize.toNat + x) k = inst from leftWord,
      show Iss.ownWord cfg runs.start (b * blockSize.toNat + y) k = inst from rightWord] at same
    exact same

/-- Nobody runs beyond the threads of the grid. -/
theorem ends_eq_zero
    {i : Nat}
    (beyond : runs.start.ncores ≤ i) :
    runs.ends i = 0 := by
  by_contra positive
  refine (runs.own.follows.makes i).awake 0 (Nat.pos_of_ne_zero positive) fun inRange => ?_
  omega

end LaunchRuns

end OpenGPU
