import OpenGPU.Cycle.Launch

/-!
# The depth of the path stack, and array bounds

Every path of a warp keeps at least one lane that no other path has, so the stack of a
valid warp is shallower than the number of its lanes that have not retired. Every array
element that `step_core` and `pack` access in a reachable state exists; the registers
that a load writes have been checked two states earlier.
-/

namespace OpenGPU

/-! ## Array elements -/

/-- An element of the arrays of `Core`. -/
inductive CoreElement
  /-- `pc`, `mask`, `valid` and `sp`. -/
  | warp (w : Nat)
  /-- `stack_pc` and `stack_mask`. -/
  | stack (w s : Nat)
  /-- `gpr`. -/
  | gpr (x r : Nat)
  /-- `tx`, `ty`, `tz` and `gid`. -/
  | lane (x : Nat)

/-- The declared bounds of the arrays. -/
def CoreElement.InRange (cfg : Config) : CoreElement → Prop
  | warp w => w < cfg.numWarps
  | stack w s => w < cfg.numWarps ∧ s < stackDepth
  | gpr x r => x < cfg.contexts ∧ r < 16
  | lane x => x < cfg.contexts

namespace Core

open Instruction

/-- `lane_register`. -/
def registerAccess (cfg : Config) (c : Core) (lane : Nat) (register : Word) : CoreElement :=
  .gpr (c.context cfg lane) (register &&& 15).toNat

/-- The arrays of all lanes. -/
def laneElements (cfg : Config) : List CoreElement :=
  (List.range cfg.contexts).flatMap fun x => .lane x :: (List.range 16).map (CoreElement.gpr x)

/-- `accept_cta`. -/
def acceptAccesses (cfg : Config) : List CoreElement :=
  (List.range cfg.numWarps).map CoreElement.warp ++ laneElements cfg

/-- The scan of `SCHED`, and the warp that it issues. -/
def scheduleAccesses (cfg : Config) (c : Core) : List CoreElement :=
  (List.range cfg.numWarps).map (fun i => .warp ((c.rr + i) % cfg.numWarps)) ++
    ((circularFirst cfg.numWarps c.rr c.valid).map CoreElement.warp).toList

/-- `EBREAK`. -/
def ebreakAccesses (c : Core) : List CoreElement :=
  .warp c.iw :: if c.sp c.iw ≠ 0 then [.stack c.iw (c.sp c.iw - 1)] else []

/-- The lanes of the issue mask, as the lane loops visit them. -/
def issuedLanes (cfg : Config) (c : Core) : List Nat :=
  (List.range cfg.numThreads).filter fun t => hasLane c.im t

/-- The conditional branches. -/
def branchAccesses (cfg : Config) (c : Core) : List CoreElement :=
  (c.issuedLanes cfg).flatMap (fun t =>
      [c.registerAccess cfg t (rs1 c.inst), c.registerAccess cfg t (rs2 c.inst)]) ++
    .warp c.iw :: if c.sp c.iw < stackDepth then [.stack c.iw (c.sp c.iw)] else []

/-- The write-back of a lane. -/
def writeAccesses (c : Core) (x : Nat) : List CoreElement :=
  (if usesRd (opcode c.inst) && rd c.inst != 0 then [.gpr x (rd c.inst).toNat] else []) ++
    [.gpr x 0]

/-- The remaining opcodes. -/
def lanesAccesses (cfg : Config) (c : Core) : List CoreElement :=
  (c.issuedLanes cfg).flatMap (fun t =>
      [c.registerAccess cfg t (rs1 c.inst), c.registerAccess cfg t (rs2 c.inst),
        .lane (c.context cfg t)] ++ c.writeAccesses (c.context cfg t)) ++
    [.warp c.iw]

/-- `EXEC`. -/
def executeAccesses (cfg : Config) (c : Core) : List CoreElement :=
  if badRegister c.inst then []
  else if opcode c.inst = 0x03 ∨ opcode c.inst = 0x23 then []
  else if c.inst = ebreak then c.ebreakAccesses
  else if opcode c.inst = 0x63 then c.branchAccesses cfg
  else c.lanesAccesses cfg

/-- The registers of a load or store of lane `mt`. -/
def memoryAccesses (cfg : Config) (c : Core) : List CoreElement :=
  [c.registerAccess cfg c.mt (rs1 c.inst), c.registerAccess cfg c.mt (rs2 c.inst)]

/-- `MEM_RESP`. -/
def responseAccesses (cfg : Config) (c : Core) : List CoreElement :=
  c.memoryAccesses cfg ++
    (if opcode c.inst = 0x03 ∧ rd c.inst ≠ 0 then
      [.gpr (c.context cfg c.mt) (rd c.inst).toNat] else []) ++
    [.gpr (c.context cfg c.mt) 0, .warp c.iw]

/-- `step_core`. -/
def stepAccesses (cfg : Config) (fire : Bool) (c : Core) : List CoreElement :=
  if fire then acceptAccesses cfg
  else if !c.ctaActive then []
  else
    match c.state with
    | .sched => c.scheduleAccesses cfg
    | .fetch => []
    | .exec => c.executeAccesses cfg
    | .memReq => [.warp c.iw]
    | .memResp => c.responseAccesses cfg

/-- The store that `cycle_diff_step` captures, and `pack`. -/
def packAccesses (cfg : Config) (c : Core) : List CoreElement :=
  (if c.state = .memReq ∨ c.state = .memResp then c.memoryAccesses cfg else []) ++
    (List.range cfg.numWarps).flatMap (fun w =>
      .warp w :: (List.range 8).map (CoreElement.stack w)) ++
    laneElements cfg

/-! ## Bounds of one core -/

/-- The indices that a core keeps are in range, and a register that a memory
instruction names has been checked. -/
structure InBounds (cfg : Config) (c : Core) : Prop where
  rr : c.rr < cfg.numWarps
  iw : c.iw < cfg.numWarps
  mt : c.mt < cfg.numThreads
  sp : ∀ w, c.sp w ≤ stackDepth
  legal : c.state = .memReq ∨ c.state = .memResp → badRegister c.inst = false

theorem inBounds_fresh (cfg : Config) : InBounds cfg fresh where
  rr := cfg.numWarps_pos
  iw := cfg.numWarps_pos
  mt := cfg.numThreads_pos
  sp _ := Nat.zero_le _
  legal moved := by rcases moved with moved | moved <;> exact CoreState.noConfusion moved

namespace InBounds

variable {cfg : Config} {c stepped : Core}

/-- A core that stays out of the memory states needs no check of registers. -/
theorem of_state
    (bounds : InBounds cfg c)
    (rr : stepped.rr < cfg.numWarps)
    (iw : stepped.iw = c.iw)
    (mt : stepped.mt = c.mt)
    (sp : ∀ w, stepped.sp w ≤ stackDepth)
    (state : stepped.state ≠ .memReq ∧ stepped.state ≠ .memResp) :
    InBounds cfg stepped where
  rr := rr
  iw := iw ▸ bounds.iw
  mt := mt ▸ bounds.mt
  sp := sp
  legal moved := absurd moved (not_or.mpr state)

/-- Leaving the warp is leaving the memory states. -/
theorem nextWarp
    (bounds : InBounds cfg c)
    (iw : stepped.iw = c.iw)
    (mt : stepped.mt = c.mt)
    (sp : ∀ w, stepped.sp w ≤ stackDepth) :
    InBounds cfg (nextWarp cfg stepped) := by
  refine bounds.of_state ?_ iw mt sp
    ⟨fun moved => CoreState.noConfusion moved, fun moved => CoreState.noConfusion moved⟩
  have warp := bounds.iw
  show (if stepped.iw = cfg.numWarps - 1 then 0 else stepped.iw + 1) < cfg.numWarps
  rw [iw]
  split_ifs <;> omega

theorem schedule
    (bounds : InBounds cfg c) :
    InBounds cfg (schedule cfg c) := by
  unfold Core.schedule
  cases found : circularFirst cfg.numWarps c.rr c.valid with
  | none => exact ⟨bounds.rr, bounds.iw, bounds.mt, bounds.sp, bounds.legal⟩
  | some sel =>
      refine ⟨bounds.rr, circularFirst_lt found, bounds.mt, bounds.sp, fun moved => ?_⟩
      rcases moved with moved | moved <;> exact CoreState.noConfusion moved

/-- `EBREAK` only lowers the stack pointer. -/
theorem execEbreak
    (bounds : InBounds cfg c) :
    InBounds cfg (execEbreak cfg c) := by
  unfold Core.execEbreak
  split_ifs with deferred
  · refine bounds.nextWarp rfl rfl fun w => ?_
    show Function.update c.sp c.iw (c.sp c.iw - 1) w ≤ stackDepth
    rcases eq_or_ne w c.iw with rfl | other
    · rw [Function.update_self]
      exact Nat.le_trans (Nat.sub_le _ _) (bounds.sp c.iw)
    · rw [Function.update_of_ne other]
      exact bounds.sp w
  · exact bounds.nextWarp rfl rfl bounds.sp

/-- A branch raises the stack pointer only below the depth of the stack. -/
theorem execBranch
    (bounds : InBounds cfg c) :
    InBounds cfg (execBranch cfg c) := by
  rcases execBranch_cases cfg c with
    ⟨result, _⟩ | ⟨result, _, _, _, room⟩ | ⟨result, _⟩ | ⟨result, _⟩ <;> rw [result]
  · exact bounds.nextWarp rfl rfl bounds.sp
  · refine bounds.nextWarp rfl rfl fun w => ?_
    show Function.update c.sp c.iw (c.sp c.iw + 1) w ≤ stackDepth
    rcases eq_or_ne w c.iw with rfl | other
    · rw [Function.update_self]
      exact room
    · rw [Function.update_of_ne other]
      exact bounds.sp w
  · exact bounds.nextWarp rfl rfl bounds.sp
  · exact bounds.nextWarp rfl rfl bounds.sp

theorem execute
    (bounds : InBounds cfg c)
    (cid : Nat) :
    InBounds cfg (execute cfg cid c) := by
  unfold Core.execute
  split_ifs with registers
  · exact bounds.of_state bounds.rr rfl rfl bounds.sp
      ⟨fun moved => CoreState.noConfusion moved, fun moved => CoreState.noConfusion moved⟩
  · -- the only way into the memory states is past the check of the registers
    exact ⟨bounds.rr, bounds.iw, cfg.numThreads_pos, bounds.sp, fun _ => Bool.eq_false_iff.mpr registers⟩
  · exact bounds.execEbreak
  · exact bounds.execBranch
  · rcases execLanes_cases cfg cid c with ⟨result, _⟩ | ⟨result, _⟩ <;> rw [result] <;>
      exact bounds.nextWarp rfl rfl bounds.sp

theorem memoryRequest
    (bounds : InBounds cfg c)
    (state : c.state = .memReq) :
    InBounds cfg (memoryRequest cfg c) := by
  have legal := bounds.legal (Or.inl state)
  have lane := bounds.mt
  unfold Core.memoryRequest
  split_ifs with issued last
  · exact ⟨bounds.rr, bounds.iw, bounds.mt, bounds.sp, fun _ => legal⟩
  · exact bounds.nextWarp rfl rfl bounds.sp
  · refine ⟨bounds.rr, bounds.iw, ?_, bounds.sp, fun _ => legal⟩
    show c.mt + 1 < cfg.numThreads
    omega

theorem memoryResponse
    (bounds : InBounds cfg c)
    (mem : ShadowMemory)
    (state : c.state = .memResp) :
    InBounds cfg (memoryResponse cfg mem c) := by
  have legal := bounds.legal (Or.inr state)
  have lane := bounds.mt
  unfold Core.memoryResponse
  extract_lets x row written
  split_ifs with last
  · exact bounds.nextWarp rfl rfl bounds.sp
  · refine ⟨bounds.rr, bounds.iw, ?_, bounds.sp, fun _ => legal⟩
    have notLast : c.mt ≠ cfg.numThreads - 1 := last
    show c.mt + 1 < cfg.numThreads
    omega

/-- Every step keeps the indices in range. -/
theorem stepCore
    (bounds : InBounds cfg c)
    (mem : ShadowMemory)
    (launch : LaunchRegisters)
    (cid : Nat)
    (fire : Bool) :
    InBounds cfg (stepCore cfg mem launch cid fire c) := by
  unfold Core.stepCore
  split_ifs with fires inactive
  · exact bounds.of_state cfg.numWarps_pos rfl rfl (fun _ => Nat.zero_le _)
      ⟨fun moved => CoreState.noConfusion moved, fun moved => CoreState.noConfusion moved⟩
  · exact bounds
  · cases state : c.state with
    | sched => exact bounds.schedule
    | fetch =>
        exact bounds.of_state bounds.rr rfl rfl bounds.sp
          ⟨fun moved => CoreState.noConfusion moved, fun moved => CoreState.noConfusion moved⟩
    | exec => exact bounds.execute cid
    | memReq => exact bounds.memoryRequest state
    | memResp => exact bounds.memoryResponse mem state

end InBounds

/-! ## Accesses of one core -/

section Accesses

variable {cfg : Config} {c : Core}

/-- Source registers are masked to four bits. -/
theorem inRange_registerAccess
    (bounds : InBounds cfg c)
    {t : Nat}
    (lane : t < cfg.numThreads)
    (register : Word) :
    (c.registerAccess cfg t register).InRange cfg := by
  refine ⟨cfg.context_lt bounds.iw lane, ?_⟩
  rw [BitVec.toNat_and]
  exact Nat.lt_of_le_of_lt Nat.and_le_right (by decide)

/-- The destination register of a checked word is one of the sixteen. -/
theorem rd_lt
    {inst : Word}
    (legal : badRegister inst = false)
    (uses : usesRd (opcode inst) = true) :
    (rd inst).toNat < 16 := by
  unfold badRegister at legal
  rw [uses] at legal
  simp only [Bool.true_and, Bool.or_eq_false_iff, decide_eq_false_iff_not, BitVec.not_le,
    BitVec.lt_def] at legal
  exact legal.1.1

theorem inRange_laneElements
    {access : CoreElement}
    (member : access ∈ laneElements cfg) :
    access.InRange cfg := by
  simp only [laneElements, List.mem_flatMap, List.mem_range, List.mem_cons, List.mem_map] at member
  obtain ⟨x, context, rfl | ⟨r, register, rfl⟩⟩ := member
  · exact context
  · exact ⟨context, register⟩

theorem inRange_acceptAccesses
    {access : CoreElement}
    (member : access ∈ acceptAccesses cfg) :
    access.InRange cfg := by
  rcases List.mem_append.mp member with warps | lanes
  · obtain ⟨w, warp, rfl⟩ := List.mem_map.mp warps
    exact List.mem_range.mp warp
  · exact inRange_laneElements lanes

theorem inRange_scheduleAccesses
    {access : CoreElement}
    (member : access ∈ c.scheduleAccesses cfg) :
    access.InRange cfg := by
  rcases List.mem_append.mp member with scanned | issued
  · obtain ⟨i, _, rfl⟩ := List.mem_map.mp scanned
    exact Nat.mod_lt _ cfg.numWarps_pos
  · rw [Option.mem_toList, Option.map_eq_some_iff] at issued
    obtain ⟨sel, found, rfl⟩ := issued
    exact circularFirst_lt found

theorem inRange_ebreakAccesses
    (bounds : InBounds cfg c)
    {access : CoreElement}
    (member : access ∈ c.ebreakAccesses) :
    access.InRange cfg := by
  rcases List.mem_cons.mp member with rfl | popped
  · exact bounds.iw
  · have depth := bounds.sp c.iw
    split_ifs at popped with deferred
    · rw [List.mem_singleton.mp popped]
      refine ⟨bounds.iw, ?_⟩
      show c.sp c.iw - 1 < stackDepth
      omega
    · exact absurd popped List.not_mem_nil

theorem inRange_branchAccesses
    (bounds : InBounds cfg c)
    {access : CoreElement}
    (member : access ∈ c.branchAccesses cfg) :
    access.InRange cfg := by
  rcases List.mem_append.mp member with lanes | path
  · obtain ⟨t, issued, compared⟩ := List.mem_flatMap.mp lanes
    have lane := List.mem_range.mp (List.mem_filter.mp issued).1
    simp only [List.mem_cons, List.not_mem_nil, or_false] at compared
    rcases compared with rfl | rfl <;> exact inRange_registerAccess bounds lane _
  · rcases List.mem_cons.mp path with rfl | pushed
    · exact bounds.iw
    · split_ifs at pushed with room
      · rw [List.mem_singleton.mp pushed]
        exact ⟨bounds.iw, room⟩
      · exact absurd pushed List.not_mem_nil

theorem inRange_writeAccesses
    (legal : badRegister c.inst = false)
    {x : Nat}
    (context : x < cfg.contexts)
    {access : CoreElement}
    (member : access ∈ c.writeAccesses x) :
    access.InRange cfg := by
  rcases List.mem_append.mp member with written | zero
  · split_ifs at written with uses
    · rw [List.mem_singleton.mp written]
      exact ⟨context, rd_lt legal (Bool.and_eq_true_iff.mp uses).1⟩
    · exact absurd written List.not_mem_nil
  · rw [List.mem_singleton.mp zero]
    exact ⟨context, by decide⟩

theorem inRange_lanesAccesses
    (bounds : InBounds cfg c)
    (legal : badRegister c.inst = false)
    {access : CoreElement}
    (member : access ∈ c.lanesAccesses cfg) :
    access.InRange cfg := by
  rcases List.mem_append.mp member with lanes | path
  · obtain ⟨t, issued, used⟩ := List.mem_flatMap.mp lanes
    have lane := List.mem_range.mp (List.mem_filter.mp issued).1
    have context := cfg.context_lt bounds.iw lane
    rcases List.mem_append.mp used with read | written
    · simp only [List.mem_cons, List.not_mem_nil, or_false] at read
      rcases read with rfl | rfl | rfl
      · exact inRange_registerAccess bounds lane _
      · exact inRange_registerAccess bounds lane _
      · exact context
    · exact inRange_writeAccesses legal context written
  · rw [List.mem_singleton.mp path]
    exact bounds.iw

theorem inRange_executeAccesses
    (bounds : InBounds cfg c)
    {access : CoreElement}
    (member : access ∈ c.executeAccesses cfg) :
    access.InRange cfg := by
  unfold executeAccesses at member
  split_ifs at member with registers
  · exact absurd member List.not_mem_nil
  · exact absurd member List.not_mem_nil
  · exact inRange_ebreakAccesses bounds member
  · exact inRange_branchAccesses bounds member
  · exact inRange_lanesAccesses bounds (Bool.eq_false_iff.mpr registers) member

theorem inRange_memoryAccesses
    (bounds : InBounds cfg c)
    {access : CoreElement}
    (member : access ∈ c.memoryAccesses cfg) :
    access.InRange cfg := by
  simp only [memoryAccesses, List.mem_cons, List.not_mem_nil, or_false] at member
  rcases member with rfl | rfl <;> exact inRange_registerAccess bounds bounds.mt _

/-- The register that a load writes was checked in `EXEC`. -/
theorem inRange_responseAccesses
    (bounds : InBounds cfg c)
    (state : c.state = .memResp)
    {access : CoreElement}
    (member : access ∈ c.responseAccesses cfg) :
    access.InRange cfg := by
  have context := cfg.context_lt bounds.iw bounds.mt
  rcases List.mem_append.mp member with loaded | rest
  · rcases List.mem_append.mp loaded with address | written
    · exact inRange_memoryAccesses bounds address
    · split_ifs at written with load
      · rw [List.mem_singleton.mp written]
        refine ⟨context, rd_lt (bounds.legal (Or.inr state)) ?_⟩
        rw [load.1]
        rfl
      · exact absurd written List.not_mem_nil
  · simp only [List.mem_cons, List.not_mem_nil, or_false] at rest
    rcases rest with rfl | rfl
    · exact ⟨context, by decide⟩
    · exact bounds.iw

/-- Every element that `step_core` accesses exists. -/
theorem InBounds.step_inRange
    (bounds : InBounds cfg c)
    (fire : Bool)
    {access : CoreElement}
    (member : access ∈ c.stepAccesses cfg fire) :
    access.InRange cfg := by
  unfold stepAccesses at member
  split_ifs at member
  · exact inRange_acceptAccesses member
  · exact absurd member List.not_mem_nil
  · cases state : c.state <;> rw [state] at member
    · exact inRange_scheduleAccesses member
    · exact absurd member List.not_mem_nil
    · exact inRange_executeAccesses bounds member
    · rw [List.mem_singleton.mp member]
      exact bounds.iw
    · exact inRange_responseAccesses bounds state member

/-- Every element that `pack` and the capture of stores access exists. -/
theorem InBounds.pack_inRange
    (bounds : InBounds cfg c)
    {access : CoreElement}
    (member : access ∈ c.packAccesses cfg) :
    access.InRange cfg := by
  rcases List.mem_append.mp member with early | lanes
  · rcases List.mem_append.mp early with memory | warps
    · split_ifs at memory
      · exact inRange_memoryAccesses bounds memory
      · exact absurd memory List.not_mem_nil
    · simp only [List.mem_flatMap, List.mem_range, List.mem_cons, List.mem_map] at warps
      obtain ⟨w, warp, rfl | ⟨entry, inStack, rfl⟩⟩ := warps
      · exact warp
      · exact ⟨warp, inStack⟩
  · exact inRange_laneElements lanes

/-- An element that a step has changed. -/
def Changed (c stepped : Core) : CoreElement → Prop
  | .warp w => stepped.pc w ≠ c.pc w ∨ stepped.mask w ≠ c.mask w ∨
      stepped.valid w ≠ c.valid w ∨ stepped.sp w ≠ c.sp w
  | .stack w s => stepped.stackPc w s ≠ c.stackPc w s ∨ stepped.stackMask w s ≠ c.stackMask w s
  | .gpr x r => stepped.gpr x r ≠ c.gpr x r
  | .lane x => stepped.tx x ≠ c.tx x ∨ stepped.ty x ≠ c.ty x ∨ stepped.tz x ≠ c.tz x ∨
      stepped.gid x ≠ c.gid x

/-- The write-back of a lane changes what it accesses. -/
theorem laneWrite_changes
    {x r : Nat}
    {res : Word}
    {row : Nat → Word}
    (changed : laneWrite c.inst res row r ≠ row r) :
    CoreElement.gpr x r ∈ c.writeAccesses x := by
  unfold laneWrite at changed
  unfold writeAccesses
  rcases eq_or_ne r 0 with rfl | positive
  · exact List.mem_append_right _ List.mem_cons_self
  · rw [Function.update_of_ne positive] at changed
    split_ifs at changed ⊢ with uses
    · rcases eq_or_ne r (rd c.inst).toNat with rfl | other
      · exact List.mem_append_left _ List.mem_cons_self
      · exact absurd (Function.update_of_ne other _ _) changed
    · exact absurd rfl changed

/-- The lane loop changes registers of the issued lanes. -/
theorem laneLoop_changes
    {cid x r : Nat}
    (changed : (laneLoop cfg cid c).gpr x r ≠ c.gpr x r) :
    CoreElement.gpr x r ∈ c.lanesAccesses cfg := by
  unfold laneLoop at changed
  have within : ∀ t ∈ List.range cfg.numThreads, t < cfg.numThreads :=
    fun t member => List.mem_range.mp member
  generalize List.range cfg.numThreads = lanes at changed within
  induction lanes using List.reverseRecOn with
  | nil => exact absurd rfl changed
  | append_singleton lanes t inductionHypothesis =>
      rw [List.foldl_append, List.foldl_cons, List.foldl_nil] at changed
      generalize lanes.foldl (laneBody cfg cid c) _ = acc at changed inductionHypothesis
      by_cases early : acc.gpr x r = c.gpr x r
      · rw [← early] at changed
        have issued : hasLane c.im t = true := by
          by_contra quiet
          rw [laneBody, if_neg quiet] at changed
          exact changed rfl
        obtain ⟨res, row⟩ : ∃ res, (laneBody cfg cid c acc t).gpr =
            Function.update acc.gpr (c.context cfg t)
              (laneWrite c.inst res (acc.gpr (c.context cfg t))) := by
          rw [laneBody, if_pos issued]
          exact ⟨_, rfl⟩
        rw [row] at changed
        have own : x = c.context cfg t := by
          by_contra other
          exact changed (congrFun (Function.update_of_ne other _ _) r)
        subst own
        rw [Function.update_self] at changed
        have lane := within t (List.mem_append_right _ List.mem_cons_self)
        refine List.mem_append_left _ (List.mem_flatMap.mpr ⟨t, ?_, ?_⟩)
        · exact List.mem_filter.mpr ⟨List.mem_range.mpr lane, issued⟩
        · exact List.mem_append_right _ (laneWrite_changes changed)
      · exact inductionHypothesis early fun other member =>
          within other (List.mem_append_left _ member)

/-- Changes of the per-warp arrays that leave all other warps alone. -/
theorem warp_of_changed
    {stepped : Core}
    {w : Nat}
    (others : ∀ w, w ≠ c.iw → stepped.pc w = c.pc w ∧ stepped.mask w = c.mask w ∧
      stepped.valid w = c.valid w ∧ stepped.sp w = c.sp w)
    (changed : c.Changed stepped (.warp w)) :
    w = c.iw := by
  by_contra other
  obtain ⟨pc, mask, valid, sp⟩ := others w other
  rcases changed with changed | changed | changed | changed <;> contradiction

theorem execEbreak_changes
    {access : CoreElement}
    (changed : c.Changed (execEbreak cfg c) access) :
    access ∈ c.ebreakAccesses := by
  unfold execEbreak at changed
  cases access with
  | warp w =>
      refine List.mem_cons.mpr (Or.inl (congrArg _ (warp_of_changed ?_ changed)))
      intro w other
      split_ifs <;> simp [nextWarp, popPath, setPath, Function.update_of_ne other]
  | stack w s => split_ifs at changed <;> simp [Changed, nextWarp, popPath, setPath] at changed
  | gpr x r => split_ifs at changed <;> exact absurd rfl changed
  | lane x => split_ifs at changed <;> simp [Changed, nextWarp, popPath, setPath] at changed

theorem execBranch_changes
    {access : CoreElement}
    (changed : c.Changed (execBranch cfg c) access) :
    access ∈ c.branchAccesses cfg := by
  refine List.mem_append_right _ ?_
  rcases execBranch_cases cfg c with
    ⟨result, _⟩ | ⟨result, _, _, _, room⟩ | ⟨result, _⟩ | ⟨result, _⟩ <;> rw [result] at changed
  · cases access <;> simp [Changed, nextWarp, raise] at changed
  · rw [if_pos room]
    cases access with
    | warp w =>
        refine List.mem_cons.mpr (Or.inl (congrArg _ (warp_of_changed ?_ changed)))
        intro w other
        simp [nextWarp, pushPath, setPath, Function.update_of_ne other]
    | stack w s =>
        -- only the element that the stack pointer names is written
        have here : w = c.iw ∧ s = c.sp c.iw := by
          by_contra elsewhere
          rcases eq_or_ne w c.iw with rfl | otherWarp
          · have otherEntry : s ≠ c.sp c.iw := fun same => elsewhere ⟨rfl, same⟩
            simp [Changed, nextWarp, pushPath, setPath, Function.update_of_ne otherEntry] at changed
          · simp [Changed, nextWarp, pushPath, setPath, Function.update_of_ne otherWarp] at changed
        rw [here.1, here.2]
        exact List.mem_cons_of_mem _ List.mem_cons_self
    | gpr x r => exact absurd rfl changed
    | lane x => simp [Changed, nextWarp, pushPath, setPath] at changed
  all_goals
    cases access with
    | warp w =>
        refine List.mem_cons.mpr (Or.inl (congrArg _ (warp_of_changed ?_ changed)))
        intro w other
        simp [nextWarp, setPath, Function.update_of_ne other]
    | stack w s => simp [Changed, nextWarp, setPath] at changed
    | gpr x r => exact absurd rfl changed
    | lane x => simp [Changed, nextWarp, setPath] at changed

theorem execLanes_changes
    {cid : Nat}
    {access : CoreElement}
    (changed : c.Changed (execLanes cfg cid c) access) :
    access ∈ c.lanesAccesses cfg := by
  cases access with
  | warp w =>
      have here : w = c.iw := by
        refine warp_of_changed (fun w other => ?_) changed
        rcases execLanes_cases cfg cid c with ⟨result, _⟩ | ⟨result, _⟩ <;> rw [result] <;>
          simp [nextWarp, raise, Function.update_of_ne other]
      rw [here]
      exact List.mem_append_right _ List.mem_cons_self
  | stack w s =>
      rcases execLanes_cases cfg cid c with ⟨result, _⟩ | ⟨result, _⟩ <;> rw [result] at changed <;>
        simp [Changed, nextWarp, raise] at changed
  | gpr x r =>
      rcases execLanes_cases cfg cid c with ⟨result, _⟩ | ⟨result, _⟩ <;> rw [result] at changed <;>
        exact laneLoop_changes changed
  | lane x =>
      rcases execLanes_cases cfg cid c with ⟨result, _⟩ | ⟨result, _⟩ <;> rw [result] at changed <;>
        simp [Changed, nextWarp, raise] at changed

theorem memoryRequest_changes
    {access : CoreElement}
    (changed : c.Changed (memoryRequest cfg c) access) :
    access = .warp c.iw := by
  unfold memoryRequest at changed
  split_ifs at changed
  · cases access <;> simp [Changed] at changed
  · cases access with
    | warp w =>
        refine congrArg _ (warp_of_changed ?_ changed)
        intro w other
        simp [finishMemory, nextWarp, Function.update_of_ne other]
    | stack w s => simp [Changed, finishMemory, nextWarp] at changed
    | gpr x r => exact absurd rfl changed
    | lane x => simp [Changed, finishMemory, nextWarp] at changed
  · cases access <;> simp [Changed] at changed

/-- The row that `MEM_RESP` writes. -/
theorem memoryResponse_row
    {mem : ShadowMemory}
    {x r : Nat}
    (changed : (memoryResponse cfg mem c).gpr x r ≠ c.gpr x r) :
    x = c.context cfg c.mt ∧
      (r = 0 ∨ (opcode c.inst = 0x03 ∧ rd c.inst ≠ 0) ∧ r = (rd c.inst).toNat) := by
  have rows : (memoryResponse cfg mem c).gpr =
      Function.update c.gpr (c.context cfg c.mt) (Function.update
        (if opcode c.inst = 0x03 ∧ rd c.inst ≠ 0 then
          Function.update (c.gpr (c.context cfg c.mt)) (rd c.inst).toNat
            (loadValue cfg mem (c.memoryAddress cfg) (funct3 c.inst))
        else c.gpr (c.context cfg c.mt)) 0 0) := by
    unfold memoryResponse
    extract_lets x row written
    by_cases last : written.mt = cfg.numThreads - 1
    · exact congrArg Core.gpr (if_pos last)
    · exact congrArg Core.gpr (if_neg last)
  rw [rows] at changed
  have own : x = c.context cfg c.mt := by
    by_contra other
    exact changed (congrFun (Function.update_of_ne other _ _) r)
  refine ⟨own, ?_⟩
  subst own
  rw [Function.update_self] at changed
  rcases eq_or_ne r 0 with zero | positive
  · exact Or.inl zero
  · rw [Function.update_of_ne positive] at changed
    split_ifs at changed with load
    · refine Or.inr ⟨load, ?_⟩
      by_contra other
      exact changed (Function.update_of_ne other _ _)
    · exact absurd rfl changed

theorem memoryResponse_changes
    {mem : ShadowMemory}
    {access : CoreElement}
    (changed : c.Changed (memoryResponse cfg mem c) access) :
    access ∈ c.responseAccesses cfg := by
  have others : ∀ w, w ≠ c.iw → (memoryResponse cfg mem c).pc w = c.pc w ∧
      (memoryResponse cfg mem c).mask w = c.mask w ∧
      (memoryResponse cfg mem c).valid w = c.valid w ∧
      (memoryResponse cfg mem c).sp w = c.sp w := by
    intro w other
    unfold memoryResponse
    extract_lets x row written
    split_ifs
    · simp [finishMemory, nextWarp, written, Function.update_of_ne other]
    · exact ⟨rfl, rfl, rfl, rfl⟩
  have deferred : (memoryResponse cfg mem c).stackPc = c.stackPc ∧
      (memoryResponse cfg mem c).stackMask = c.stackMask := by
    unfold memoryResponse
    extract_lets x row written
    split_ifs <;> exact ⟨rfl, rfl⟩
  have cta := cta_memoryResponse cfg mem c
  simp only [Core.cta, CtaRegisters.mk.injEq] at cta
  obtain ⟨_, _, _, _, tx, ty, tz, gid⟩ := cta
  cases access with
  | warp w =>
      rw [warp_of_changed others changed]
      exact List.mem_append_right _ (List.mem_cons_of_mem _ List.mem_cons_self)
  | stack w s =>
      rw [Changed, deferred.1, deferred.2] at changed
      simp at changed
  | gpr x r =>
      obtain ⟨rfl, rfl | ⟨load, rfl⟩⟩ := memoryResponse_row changed
      · exact List.mem_append_right _ List.mem_cons_self
      · refine List.mem_append_left _ (List.mem_append_right _ ?_)
        rw [if_pos load]
        exact List.mem_cons_self
  | lane x =>
      rw [Changed, tx, ty, tz, gid] at changed
      simp at changed

/-- A step changes only what it accesses. -/
theorem stepCore_changes
    {mem : ShadowMemory}
    {launch : LaunchRegisters}
    {cid : Nat}
    {access : CoreElement}
    (changed : c.Changed (stepCore cfg mem launch cid false c) access) :
    access ∈ c.stepAccesses cfg false := by
  have unchanged : ¬c.Changed c access := by cases access <;> simp [Changed]
  unfold stepCore at changed
  unfold stepAccesses
  rw [if_neg Bool.false_ne_true] at changed ⊢
  split_ifs at changed ⊢ with inactive
  · exact absurd changed unchanged
  · cases state : c.state <;> rw [state] at changed
    · unfold schedule at changed
      cases found : circularFirst cfg.numWarps c.rr c.valid <;> rw [found] at changed <;>
        cases access <;> simp [Changed] at changed
    · cases access <;> simp [Changed] at changed
    · unfold execute at changed
      show access ∈ c.executeAccesses cfg
      unfold executeAccesses
      split_ifs at changed ⊢
      · cases access <;> simp [Changed, raise] at changed
      · cases access <;> simp [Changed] at changed
      · exact execEbreak_changes changed
      · exact execBranch_changes changed
      · exact execLanes_changes changed
    · exact List.mem_singleton.mpr (memoryRequest_changes changed)
    · exact memoryResponse_changes changed

end Accesses

/-! ## Depth of the stack -/

theorem length_deferredMasks
    (stack : Nat → Word)
    (depth : Nat) :
    (deferredMasks stack depth).length = depth := by
  induction depth with
  | zero => rfl
  | succ depth inductionHypothesis => rw [deferredMasks, List.length_cons, inductionHypothesis]

/-- The lanes that a block of the given size gives to warp `w`. -/
def warpLanes (cfg : Config) (blockSize : Word) (w : Nat) : Finset Nat :=
  (Finset.range cfg.numThreads).filter fun t => w * cfg.numThreads + t < blockSize.toNat

/-- The lanes of warp `w` that have not retired. -/
def remainingLanes (cfg : Config) (ledger : LaneLedger) (w : Nat) : Finset Nat :=
  (warpLanes cfg ledger.blockSize w).filter fun t => hasLane (ledger.retired w) t = false

/-- A warp has no more lanes than threads. -/
theorem card_warpLanes_le
    (cfg : Config)
    (blockSize : Word)
    (w : Nat) :
    (warpLanes cfg blockSize w).card ≤ cfg.numThreads :=
  (Finset.card_filter_le _ _).trans (Finset.card_range _).le

/-- The stack-overflow fault: the lanes of a branch diverge, and the stack of the warp is
full. -/
def Overflows (cfg : Config) (c : Core) : Prop :=
  c.ctaActive = true ∧ c.state = .exec ∧ badRegister c.inst = false ∧ opcode c.inst = 0x63 ∧
    branchGood (funct3 c.inst) = true ∧ c.takenMask cfg ≠ 0 ∧ c.fallMask cfg ≠ 0 ∧
    stackDepth ≤ c.sp c.iw

section Depth

variable {cfg : Config} {c : Core} {ledger : LaneLedger}

theorem laneFinset_initialMask
    (threads : cfg.numThreads ≤ 32)
    (blockSize : Word)
    {w : Nat}
    (warp : w < cfg.numWarps) :
    laneFinset (initialMask cfg blockSize w) = warpLanes cfg blockSize w := by
  ext t
  rw [mem_laneFinset, Model.hasLane_initialMask_iff threads blockSize warp, warpLanes,
    Finset.mem_filter, Finset.mem_range]
  rfl

/-- Every path of a valid warp has a lane of its own that has not retired. -/
theorem WarpsConserved.sp_lt
    (threads : cfg.numThreads ≤ 32)
    (conserved : WarpsConserved cfg c ledger)
    {w : Nat}
    (warp : w < cfg.numWarps)
    (valid : c.valid w = true) :
    c.sp w < (remainingLanes cfg ledger w).card := by
  have partition := conserved.partition w warp
  rw [pathMasks_of_valid valid] at partition
  have paths := partition.length_le_card
  rw [List.length_cons, length_deferredMasks, laneFinset_initialMask threads _ warp] at paths
  have retired : laneFinset (ledger.retired w) =
      (warpLanes cfg ledger.blockSize w).filter fun t => ¬hasLane (ledger.retired w) t = false := by
    ext t
    rw [mem_laneFinset, Finset.mem_filter, ← laneFinset_initialMask threads _ warp, mem_laneFinset,
      partition.mem_iff, Bool.not_eq_false]
    exact ⟨fun gone => ⟨Or.inl gone, gone⟩, And.right⟩
  have split : ((warpLanes cfg ledger.blockSize w).filter fun t =>
        hasLane (ledger.retired w) t = false).card +
      ((warpLanes cfg ledger.blockSize w).filter fun t =>
        ¬hasLane (ledger.retired w) t = false).card = (warpLanes cfg ledger.blockSize w).card :=
    Finset.card_filter_add_card_filter_not _
  rw [← retired] at split
  show c.sp w < ((warpLanes cfg ledger.blockSize w).filter _).card
  omega

/-- A warp with at most nine lanes cannot overflow its stack: the two halves of the
current path and the paths of a full stack would have ten. -/
theorem WarpsConserved.not_overflows
    (threads : cfg.numThreads ≤ 32)
    (conserved : WarpsConserved cfg c ledger)
    (few : (warpLanes cfg ledger.blockSize c.iw).card ≤ 9) :
    ¬c.Overflows cfg := by
  rintro ⟨_, exec, _, _, _, taken, fall, full⟩
  have issued : c.state ≠ .sched := by
    rw [exec]
    exact fun same => CoreState.noConfusion same
  obtain ⟨warp, valid, copy⟩ := conserved.issued issued
  have partition := conserved.partition c.iw warp
  rw [pathMasks_of_valid valid] at partition
  have halves := partition.split (by rw [conserved.fallMask_or_takenMask issued, copy])
    (takenMask_and_fallMask cfg c) fall taken
  have paths := halves.length_le_card
  rw [List.length_cons, List.length_cons, length_deferredMasks,
    laneFinset_initialMask threads _ warp] at paths
  have depth : stackDepth = 8 := rfl
  omega

end Depth

end Core

namespace Model

variable {cfg : Config} {m : Model} {ledgers : Nat → LaneLedger}

/-- Along every run the indices of every core stay in range. -/
theorem Reachable.inBounds
    (reachable : Reachable cfg m ledgers)
    {core : Nat}
    (inRange : core < cfg.numCores) :
    (m.cores core).InBounds cfg :=
  reachable.core_induction (Core.InBounds cfg) (Core.inBounds_fresh cfg)
    (fun _ bounds mem launch cid fire => bounds.stepCore mem launch cid fire) inRange

/-- In every reachable state the stack pointers are at most eight and, for a valid warp
of an active block, below the number of lanes that have not retired; a warp with at most
nine lanes does not overflow; every array element that the next step accesses exists; and
a step of a block changes no other one. -/
theorem pathStack_bounded
    (threads : cfg.numThreads ≤ 32)
    (reachable : Reachable cfg m ledgers)
    {core : Nat}
    (inRange : core < cfg.numCores) :
    (∀ w, (m.cores core).sp w ≤ 8) ∧
      ((m.cores core).ctaActive = true → ∀ w, w < cfg.numWarps →
        (m.cores core).valid w = true →
          (m.cores core).sp w < (Core.remainingLanes cfg (ledgers core) w).card) ∧
      ((Core.warpLanes cfg (ledgers core).blockSize (m.cores core).iw).card ≤ 9 →
        ¬(m.cores core).Overflows cfg) ∧
      (∀ fire, ∀ access ∈ (m.cores core).stepAccesses cfg fire ++ (m.cores core).packAccesses cfg,
        access.InRange cfg) ∧
      ∀ access, (m.cores core).Changed
          ((m.cores core).stepCore cfg m.mem m.launchRegisters core false) access →
        access ∈ (m.cores core).stepAccesses cfg false := by
  have bounds := reachable.inBounds inRange
  refine ⟨bounds.sp, fun active w warp valid => ?_, fun few overflows => ?_,
    fun fire access member => ?_, fun access changed => Core.stepCore_changes changed⟩
  · exact (reachable.conserved inRange active).sp_lt threads warp valid
  · exact (reachable.conserved inRange overflows.1).not_overflows threads few overflows
  · rcases List.mem_append.mp member with stepped | packed
    · exact bounds.step_inRange fire stepped
    · exact bounds.pack_inRange packed

/-- Two lanes that have parted leave one path on the stack. -/
theorem pathStack_bounded_parted :
    ∃ m ledgers, Reachable Config.onePair m ledgers ∧ (m.cores 0).ctaActive = true ∧
      (m.cores 0).sp 0 = 1 ∧ 1 < (Core.remainingLanes Config.onePair (ledgers 0) 0).card := by
  have observed : parted.map (fun m => ((m.cores 0).ctaActive, (m.cores 0).valid 0,
      (m.cores 0).sp 0)) = some (true, true, 1) := by decide +kernel
  simp only [Option.map_eq_some_iff, Prod.mk.injEq] at observed
  obtain ⟨m, reached, active, valid, depth⟩ := observed
  obtain ⟨ledgers, reachable⟩ := reachable_of_parted reached
  obtain ⟨_, below, _⟩ := pathStack_bounded (by decide) reachable
    (show 0 < Config.onePair.numCores by decide)
  have below := below active 0 (by decide) valid
  rw [depth] at below
  exact ⟨m, ledgers, reachable, active, depth, below⟩

end Model

end OpenGPU
