import OpenGPU.Chisel.Kmu
import OpenGPU.Cycle.Launch
import OpenGPU.Spinal.Kmu

/-!
# Core arbitration in the four dispatchers

The next block goes to the first ready core in circular order from the
round-robin pointer. The SystemVerilog dispatcher and the cycle model count
modulo the number of cores. The Scala dispatchers count in the width of the
pointer register, which is the same thing only for a power of two; for other
core counts they go wrong when the scan passes the last core.
-/

namespace OpenGPU

open Verilog

/-- What a dispatcher decides on one edge. The selected core matters only when
some core is ready. -/
structure Arbitration where
  selected : Nat
  fires : Bool
  deriving DecidableEq

/-- The decision for the first ready core in circular order from the pointer;
a running dispatcher fires exactly when some core is ready. -/
structure Arbitration.Correct (count pointer : Nat) (running : Bool)
    (ready : Nat → Bool) (decision : Arbitration) : Prop where
  selects : ∀ core, circularFirst count pointer ready = some core →
    decision.selected = core
  fires : decision.fires = (running && (circularFirst count pointer ready).isSome)

/-- Selecting the first ready core and firing when it is ready is correct. -/
theorem Arbitration.correct_of_selects
    {count pointer : Nat}
    {running fires : Bool}
    {ready : Nat → Bool}
    {selected : Nat}
    (selects : ∀ core, circularFirst count pointer ready = some core → selected = core)
    (found : ∀ core, circularFirst count pointer ready = some core → fires = running)
    (idle : circularFirst count pointer ready = none → fires = false) :
    Arbitration.Correct count pointer running ready ⟨selected, fires⟩ := by
  refine ⟨selects, ?_⟩
  cases first : circularFirst count pointer ready with
  | none => simpa using idle first
  | some core => simpa using found core first

/-- A doubled vector shifted by the pointer shows the candidates in circular
order. -/
theorem getLsbD_doubled
    {count pointer : Nat}
    {ready : BitVec count}
    (inRange : pointer < count)
    {offset : Nat}
    (bound : offset < count) :
    (((ready ++ ready) >>> pointer).extractLsb' 0 count).getLsbD offset =
      ready.getLsbD ((pointer + offset) % count) := by
  rw [BitVec.getLsbD_extractLsb', decide_eq_true bound, Bool.true_and, Nat.zero_add,
    BitVec.getLsbD_ushiftRight, BitVec.getLsbD_append]
  split_ifs with before
  · rw [Nat.mod_eq_of_lt before]
  · rw [Nat.mod_eq_sub_mod (by omega), Nat.mod_eq_of_lt (by omega)]

/-- The last of a row of conditional assignments to apply wins. -/
theorem foldl_reverse_select
    {α β : Type}
    (test : α → Bool)
    (value : α → β)
    (start : β)
    (candidates : List α) :
    candidates.reverse.foldl
        (fun selected candidate => if test candidate then value candidate else selected)
        start =
      ((candidates.find? test).map value).getD start := by
  rw [List.foldl_reverse]
  induction candidates with
  | nil => rfl
  | cons candidate rest inductionHypothesis =>
      rw [List.foldr_cons, inductionHypothesis, List.find?_cons]
      cases test candidate <;> rfl

section Dispatchers

variable {numCores : Nat} {kmu : GPUKmu numCores} {coreReady : BitVec numCores}

/-- Some core is ready exactly when the ready vector is not zero. -/
theorem ready_ne_zero_iff
    (pointer : Nat)
    (ready : BitVec numCores) :
    ready ≠ 0 ↔ (circularFirst numCores pointer ready.getLsbD).isSome = true := by
  rw [ne_zero_iff_hasLane, Option.isSome_iff_ne_none, Ne, circularFirst_eq_none_iff]
  simp only [hasLane_eq_getLsbD]
  constructor
  · rintro ⟨core, isReady⟩ nobody
    rw [nobody core (BitVec.lt_of_getLsbD isReady)] at isReady
    exact Bool.noConfusion isReady
  · intro somebody
    by_contra nobody
    refine somebody fun core _ => ?_
    exact Bool.eq_false_iff.mpr fun isReady => nobody ⟨core, isReady⟩

/-- The decision of the SystemVerilog dispatcher. -/
def Verilog.GPUKmu.arbitration (coreReady : BitVec numCores) (kmu : GPUKmu numCores) :
    Arbitration where
  selected := (kmu.selectedCore coreReady.getLsbD).toNat
  fires := kmu.ctaFire coreReady.getLsbD

/-- The decision of the Chisel dispatcher. -/
def Chisel.Kmu.arbitration (coreReady : BitVec numCores) (kmu : GPUKmu numCores) :
    Arbitration where
  selected := (Chisel.Kmu.selected coreReady kmu).toNat
  fires := Chisel.Kmu.fire coreReady kmu

/-- The decision of the SpinalHDL dispatcher. -/
def Spinal.Kmu.arbitration (coreReady : BitVec numCores) (kmu : GPUKmu numCores) :
    Arbitration where
  selected := (Spinal.Kmu.selected coreReady kmu).toNat
  fires := Spinal.Kmu.fire coreReady kmu

/-- The decision is the one that the dispatcher's registers call for. -/
def Arbitration.CorrectFor (kmu : GPUKmu numCores) (coreReady : BitVec numCores)
    (decision : Arbitration) : Prop :=
  decision.Correct numCores kmu.rrCore.toNat kmu.running coreReady.getLsbD

/-- The SystemVerilog dispatcher decides correctly. -/
theorem verilog_correct
    (kmu : GPUKmu numCores)
    (coreReady : BitVec numCores) :
    (kmu.arbitration coreReady).CorrectFor kmu coreReady :=
  ⟨fun _ first => GPUKmu.selectedCore_eq first, GPUKmu.ctaFire_eq _ kmu⟩

/-- The register counts modulo a power of two that is at least the number of
cores. -/
theorem toNat_candidate
    (kmu : GPUKmu numCores)
    (offset : Nat) :
    (kmu.rrCore + BitVec.ofNat _ offset).toNat =
      (kmu.rrCore.toNat + offset) % 2 ^ indexBits numCores := by
  rw [BitVec.toNat_add, BitVec.toNat_ofNat, Nat.add_mod_mod]

/-- The Chisel encoder finds the offset of the first ready core. -/
theorem chisel_selected_eq
    (inRange : kmu.rrCore.toNat < numCores)
    {offset core : Nat}
    (bound : offset < numCores)
    (place : (kmu.rrCore.toNat + offset) % numCores = core)
    (isReady : coreReady.getLsbD core = true)
    (earlier : ∀ before, before < offset →
      coreReady.getLsbD ((kmu.rrCore.toNat + before) % numCores) = false) :
    (Chisel.Kmu.selected coreReady kmu).toNat =
      (kmu.rrCore.toNat + offset) % 2 ^ indexBits numCores := by
  have found : (List.range numCores).find?
      (fun i => (Chisel.Kmu.rotated coreReady kmu).getLsbD i) = some offset := by
    rw [List.find?_range_eq_some, List.mem_range]
    refine ⟨?_, bound, fun before early => ?_⟩
    · rw [Chisel.Kmu.rotated, getLsbD_doubled inRange bound, place]
      exact isReady
    · rw [Chisel.Kmu.rotated, getLsbD_doubled inRange (by omega), earlier before early]
      rfl
  rw [Chisel.Kmu.selected, priorityEncoder, found, Option.getD_some, toNat_candidate]

/-- The doubled vector is empty exactly when nobody is ready. -/
theorem chisel_anyReady_eq
    (inRange : kmu.rrCore.toNat < numCores) :
    Chisel.Kmu.anyReady coreReady kmu =
      (circularFirst numCores kmu.rrCore.toNat coreReady.getLsbD).isSome := by
  rw [Bool.eq_iff_iff, Chisel.Kmu.anyReady, bne_iff_ne, ne_zero_iff_hasLane,
    Option.isSome_iff_exists]
  simp only [hasLane_eq_getLsbD]
  constructor
  · rintro ⟨offset, shown⟩
    have bound := BitVec.lt_of_getLsbD shown
    rw [Chisel.Kmu.rotated, getLsbD_doubled inRange bound] at shown
    have somebody := (ready_ne_zero_iff kmu.rrCore.toNat coreReady).mp (by
      rw [ne_zero_iff_hasLane]
      exact ⟨_, (hasLane_eq_getLsbD _ _).trans shown⟩)
    exact Option.isSome_iff_exists.mp somebody
  · rintro ⟨core, first⟩
    obtain ⟨offset, bound, place, isReady, _⟩ := circularFirst_eq_some_iff.mp first
    refine ⟨offset, ?_⟩
    rw [Chisel.Kmu.rotated, getLsbD_doubled inRange bound, place]
    exact isReady

/-- The Chisel dispatcher decides correctly exactly when the scan does not pass
the last core, or the number of cores fills the pointer register. -/
theorem chisel_correct_iff
    (inRange : kmu.rrCore.toNat < numCores) :
    (Chisel.Kmu.arbitration coreReady kmu).CorrectFor kmu coreReady ↔
      ∀ core, circularFirst numCores kmu.rrCore.toNat coreReady.getLsbD = some core →
        kmu.rrCore.toNat ≤ core ∨ numCores = 2 ^ indexBits numCores := by
  have fits := le_two_pow_indexBits numCores
  constructor
  · rintro ⟨selects, _⟩ core first
    obtain ⟨offset, bound, place, isReady, earlier⟩ := circularFirst_eq_some_iff.mp first
    have chosen := chisel_selected_eq inRange bound place isReady earlier
    have same : (kmu.rrCore.toNat + offset) % 2 ^ indexBits numCores = core :=
      chosen ▸ selects core first
    by_contra wrong
    push Not at wrong
    -- the scan has wrapped: the register and the core count wrap at different places
    have wraps : numCores ≤ kmu.rrCore.toNat + offset := by
      by_contra straight
      rw [Nat.mod_eq_of_lt (by omega)] at place
      omega
    rw [Nat.mod_eq_sub_mod wraps, Nat.mod_eq_of_lt (by omega)] at place
    rcases Nat.lt_or_ge (kmu.rrCore.toNat + offset) (2 ^ indexBits numCores) with small | large
    · rw [Nat.mod_eq_of_lt small] at same
      omega
    · rw [Nat.mod_eq_sub_mod large, Nat.mod_eq_of_lt (by omega)] at same
      omega
  · intro straight
    have selects : ∀ core,
        circularFirst numCores kmu.rrCore.toNat coreReady.getLsbD = some core →
          (Chisel.Kmu.selected coreReady kmu).toNat = core := by
      intro core first
      obtain ⟨offset, bound, place, isReady, earlier⟩ := circularFirst_eq_some_iff.mp first
      rw [chisel_selected_eq inRange bound place isReady earlier]
      rcases straight core first with ahead | full
      · have noWrap : kmu.rrCore.toNat + offset < numCores := by
          by_contra wraps
          rw [Nat.mod_eq_sub_mod (by omega), Nat.mod_eq_of_lt (by omega)] at place
          omega
        rw [Nat.mod_eq_of_lt noWrap] at place
        rw [Nat.mod_eq_of_lt (by omega), place]
      · rw [← full, place]
    refine Arbitration.correct_of_selects selects (fun core first => ?_) fun nobody => ?_
    · rw [Chisel.Kmu.fire, chisel_anyReady_eq inRange, first, selects core first,
        circularFirst_ready first]
      simp
    · rw [Chisel.Kmu.fire, chisel_anyReady_eq inRange, nobody]
      simp

/-- The SpinalHDL scan takes the first offset whose register value names a ready
core. -/
theorem spinal_selected_eq
    (coreReady : BitVec numCores)
    (kmu : GPUKmu numCores) :
    Spinal.Kmu.selected coreReady kmu =
      (((List.range numCores).find? fun o =>
          coreReady.getLsbD (Spinal.Kmu.candidate kmu o).toNat).map
        (Spinal.Kmu.candidate kmu)).getD kmu.rrCore :=
  foldl_reverse_select _ _ _ _

/-- When the scan does not pass the last core, or the register wraps around to
the core before the offsets are used up, it finds that core. -/
theorem spinal_selected_of_reaches
    (inRange : kmu.rrCore.toNat < numCores)
    {core : Nat}
    (first : circularFirst numCores kmu.rrCore.toNat coreReady.getLsbD = some core)
    (reaches : kmu.rrCore.toNat ≤ core ∨
      core + (2 ^ indexBits numCores - numCores) < kmu.rrCore.toNat) :
    (Spinal.Kmu.selected coreReady kmu).toNat = core := by
  have fits := le_two_pow_indexBits numCores
  obtain ⟨offset, bound, place, isReady, earlier⟩ := circularFirst_eq_some_iff.mp first
  have inCores := circularFirst_lt first
  -- the offset at which the register value reaches the core
  obtain ⟨reached, below, names⟩ : ∃ reached, reached < numCores ∧
      kmu.rrCore.toNat + reached =
        core + if kmu.rrCore.toNat ≤ core then 0 else 2 ^ indexBits numCores := by
    split_ifs with ahead
    · exact ⟨core - kmu.rrCore.toNat, by omega, by omega⟩
    · exact ⟨core + 2 ^ indexBits numCores - kmu.rrCore.toNat, by omega, by omega⟩
  have names' : (kmu.rrCore.toNat + reached) % 2 ^ indexBits numCores = core := by
    rw [names]
    split_ifs
    · exact Nat.mod_eq_of_lt (by omega)
    · rw [Nat.add_mod_right]
      exact Nat.mod_eq_of_lt (by omega)
  have found : (List.range numCores).find?
      (fun o => coreReady.getLsbD (Spinal.Kmu.candidate kmu o).toNat) = some reached := by
    rw [List.find?_range_eq_some, List.mem_range]
    refine ⟨?_, below, fun before early => ?_⟩
    · rw [Spinal.Kmu.candidate, toNat_candidate, names']
      exact isReady
    · rw [Spinal.Kmu.candidate, toNat_candidate, Bool.not_eq_true']
      by_contra named
      rw [Bool.not_eq_false] at named
      have inside := BitVec.lt_of_getLsbD named
      -- a ready core that the register reaches earlier precedes `core` in circular order
      have passed : ∀ sooner, sooner < offset →
          (kmu.rrCore.toNat + sooner) % numCores ≠
            (kmu.rrCore.toNat + before) % 2 ^ indexBits numCores := by
        intro sooner isSooner same
        rw [← same, earlier sooner isSooner] at named
        exact Bool.noConfusion named
      rcases Nat.lt_or_ge (kmu.rrCore.toNat + before) (2 ^ indexBits numCores) with
        small | large
      · rw [Nat.mod_eq_of_lt small] at inside passed
        refine passed before ?_ (Nat.mod_eq_of_lt inside)
        rcases Nat.lt_or_ge (kmu.rrCore.toNat + offset) numCores with straight | wraps
        · rw [Nat.mod_eq_of_lt straight] at place
          rw [if_pos (by omega)] at names
          omega
        · omega
      · rw [Nat.mod_eq_sub_mod large, Nat.mod_eq_of_lt (by omega)] at inside passed
        have behind : ¬kmu.rrCore.toNat ≤ core := by
          intro ahead
          rw [if_pos ahead] at names
          omega
        rw [if_neg behind] at names
        have wraps : numCores ≤ kmu.rrCore.toNat + offset := by
          by_contra straight
          rw [Nat.mod_eq_of_lt (by omega)] at place
          omega
        rw [Nat.mod_eq_sub_mod wraps, Nat.mod_eq_of_lt (by omega)] at place
        refine passed
          (numCores + (kmu.rrCore.toNat + before - 2 ^ indexBits numCores) -
            kmu.rrCore.toNat) (by omega) ?_
        have sum : kmu.rrCore.toNat +
            (numCores + (kmu.rrCore.toNat + before - 2 ^ indexBits numCores) -
              kmu.rrCore.toNat) =
            (kmu.rrCore.toNat + before - 2 ^ indexBits numCores) + numCores := by omega
        rw [sum, Nat.add_mod_right, Nat.mod_eq_of_lt inside]
  rw [spinal_selected_eq, found, Option.map_some, Option.getD_some, Spinal.Kmu.candidate,
    toNat_candidate, names']

/-- A scan that would have to count past the register misses the core. -/
theorem spinal_selected_of_misses
    {core : Nat}
    (behind : core < kmu.rrCore.toNat)
    (misses : kmu.rrCore.toNat ≤ core + (2 ^ indexBits numCores - numCores)) :
    (Spinal.Kmu.selected coreReady kmu).toNat ≠ core := by
  have fits := le_two_pow_indexBits numCores
  rw [spinal_selected_eq]
  cases found : (List.range numCores).find?
      fun o => coreReady.getLsbD (Spinal.Kmu.candidate kmu o).toNat with
  | none =>
      rw [Option.map_none, Option.getD_none]
      omega
  | some offset =>
      have bound := (List.find?_range_eq_some.mp found).2.1
      rw [List.mem_range] at bound
      rw [Option.map_some, Option.getD_some, Spinal.Kmu.candidate, toNat_candidate]
      rcases Nat.lt_or_ge (kmu.rrCore.toNat + offset) (2 ^ indexBits numCores) with
        small | large
      · rw [Nat.mod_eq_of_lt small]
        omega
      · rw [Nat.mod_eq_sub_mod large, Nat.mod_eq_of_lt (by omega)]
        omega

/-- The SpinalHDL dispatcher decides correctly exactly when the scan does not
pass the last core, or the core lies more than the gap between the number of
cores and the register's range before the pointer. -/
theorem spinal_correct_iff
    (inRange : kmu.rrCore.toNat < numCores) :
    (Spinal.Kmu.arbitration coreReady kmu).CorrectFor kmu coreReady ↔
      ∀ core, circularFirst numCores kmu.rrCore.toNat coreReady.getLsbD = some core →
        kmu.rrCore.toNat ≤ core ∨
          core + (2 ^ indexBits numCores - numCores) < kmu.rrCore.toNat := by
  constructor
  · rintro ⟨selects, _⟩ core first
    by_contra wrong
    push Not at wrong
    exact spinal_selected_of_misses wrong.1 wrong.2 (selects core first)
  · intro reaches
    have selects := fun core first =>
      spinal_selected_of_reaches inRange first (reaches core first)
    have any := ready_ne_zero_iff kmu.rrCore.toNat coreReady
    refine Arbitration.correct_of_selects selects (fun core first => ?_) fun nobody => ?_
    · have ready : Spinal.Kmu.selectedReady coreReady kmu = true := by
        unfold Spinal.Kmu.selectedReady
        split_ifs with single
        · have isReady := circularFirst_ready first
          have zero : core = 0 := by
            have := circularFirst_lt first
            omega
          exact zero ▸ isReady
        · rw [selects core first]
          exact circularFirst_ready first
      have some : Spinal.Kmu.anyReady coreReady = true := by
        rw [Spinal.Kmu.anyReady, bne_iff_ne, any, first]
        rfl
      rw [Spinal.Kmu.fire, ready, some, Bool.and_true, Bool.and_true]
    · have none : Spinal.Kmu.anyReady coreReady = false := by
        rw [Spinal.Kmu.anyReady, Bool.eq_false_iff, Ne, bne_iff_ne, any, nobody]
        exact Bool.false_ne_true
      rw [Spinal.Kmu.fire, none, Bool.and_false, Bool.false_and]

end Dispatchers

/-- The decision of `cycle_diff_step`; `none` when its loops over the cores shift
by 32 or more. -/
def Model.arbitration (cfg : Config) (m : Model) : Option Arbitration :=
  if cfg.numCores ≤ 32 then
    some ⟨(m.selected cfg).getD 0, (m.firing cfg).isSome⟩
  else none

section Models

variable {cfg : Config} {kmu : GPUKmu cfg.numCores} {coreReady : BitVec cfg.numCores}
  {m : Model}

/-- The cycle model decides correctly whenever its shifts are defined. -/
theorem cycle_correct_iff
    (pointer : m.walk.rr = kmu.rrCore.toNat)
    (running : m.walk.running = kmu.running)
    (ready : ∀ core, core < cfg.numCores → m.coreReady core = coreReady.getLsbD core) :
    (∃ decision, m.arbitration cfg = some decision ∧ decision.CorrectFor kmu coreReady) ↔
      cfg.numCores ≤ 32 := by
  unfold Model.arbitration
  split_ifs with cores
  · have selected : m.selected cfg =
        circularFirst cfg.numCores kmu.rrCore.toNat coreReady.getLsbD := by
      rw [Model.selected, pointer]
      apply circularFirst_congr
      intro core inRange
      rw [Model.hasLane_readyMask cores inRange, ready core inRange]
    refine iff_of_true ⟨_, rfl, ?_⟩ cores
    refine Arbitration.correct_of_selects (fun core first => ?_) (fun core first => ?_)
      fun nobody => ?_
    · rw [selected, first, Option.getD_some]
    · rw [Model.firing, running, selected, first]
      cases kmu.running <;> rfl
    · rw [Model.firing, selected, nobody]
      cases m.walk.running <;> rfl
  · refine iff_of_false ?_ cores
    rintro ⟨_, absurdity, _⟩
    exact absurdity.elim

/-- For every number of cores, every pointer that names one and every ready set:
the four dispatchers all select the first ready core in circular order, and fire
exactly when one is ready, if and only if there are at most 32 cores and the
scan does not pass the last core unless their number fills the pointer
register. -/
theorem arbitrations_correct_iff
    (inRange : kmu.rrCore.toNat < cfg.numCores)
    (pointer : m.walk.rr = kmu.rrCore.toNat)
    (running : m.walk.running = kmu.running)
    (ready : ∀ core, core < cfg.numCores → m.coreReady core = coreReady.getLsbD core) :
    ((kmu.arbitration coreReady).CorrectFor kmu coreReady ∧
        (∃ decision, m.arbitration cfg = some decision ∧
          decision.CorrectFor kmu coreReady) ∧
        (Chisel.Kmu.arbitration coreReady kmu).CorrectFor kmu coreReady ∧
        (Spinal.Kmu.arbitration coreReady kmu).CorrectFor kmu coreReady) ↔
      cfg.numCores ≤ 32 ∧
        ∀ core, circularFirst cfg.numCores kmu.rrCore.toNat coreReady.getLsbD = some core →
          kmu.rrCore.toNat ≤ core ∨ cfg.numCores = 2 ^ indexBits cfg.numCores := by
  rw [cycle_correct_iff pointer running ready, chisel_correct_iff inRange,
    spinal_correct_iff inRange]
  constructor
  · rintro ⟨_, cores, straight, _⟩
    exact ⟨cores, straight⟩
  · rintro ⟨cores, straight⟩
    refine ⟨verilog_correct kmu coreReady, cores, straight, fun core first => ?_⟩
    -- a full register leaves no gap for the SpinalHDL scan to get stuck in
    rcases straight core first with ahead | full
    · exact Or.inl ahead
    · rcases Nat.lt_or_ge core kmu.rrCore.toNat with behind | ahead
      · exact Or.inr (by omega)
      · exact Or.inl ahead

end Models

/-- A dispatcher with blocks left and the given pointer. -/
def runningAt (numCores pointer : Nat) : GPUKmu numCores :=
  { (GPUKmu.fresh : GPUKmu numCores) with running := true, rrCore := BitVec.ofNat _ pointer }

/-- Two cores, the pointer at the second one, both ready. -/
theorem arbitrations_correct_twoCores :
    (Chisel.Kmu.arbitration (0b11 : BitVec Config.twoCores.numCores)
      (runningAt Config.twoCores.numCores 1)).CorrectFor
        (runningAt Config.twoCores.numCores 1) 0b11 := by
  have both : ∀ core, core < Config.twoCores.numCores →
      ({ Model.fresh with walk := ⟨Dim3.zero, true, 1⟩ } : Model).coreReady core =
        (0b11 : BitVec Config.twoCores.numCores).getLsbD core := by
    decide
  have pointer : (1 : Nat) = (runningAt Config.twoCores.numCores 1).rrCore.toNat := by decide
  exact ((arbitrations_correct_iff (by decide) pointer rfl both).mpr
    ⟨by decide, fun _ _ => Or.inr (by decide)⟩).2.2.1

/-- With three cores, the pointer at the last one and only core 1 ready, the
Scala dispatchers neither select core 1 nor fire. -/
theorem not_arbitrations_correct_threeCores :
    (runningAt 3 2).arbitration 0b010 = ⟨1, true⟩ ∧
      Chisel.Kmu.arbitration 0b010 (runningAt 3 2) = ⟨0, false⟩ ∧
      Spinal.Kmu.arbitration 0b010 (runningAt 3 2) = ⟨2, false⟩ ∧
      ¬(Chisel.Kmu.arbitration 0b010 (runningAt 3 2)).CorrectFor (runningAt 3 2) 0b010 ∧
      ¬(Spinal.Kmu.arbitration 0b010 (runningAt 3 2)).CorrectFor (runningAt 3 2) 0b010 := by
  refine ⟨by decide, by decide, by decide, fun correct => ?_, fun correct => ?_⟩
  · exact absurd (correct.selects 1 (by decide)) (by decide)
  · exact absurd (correct.selects 1 (by decide)) (by decide)

end OpenGPU
