import OpenGPU.Lockstep.TopWords

/-!
# A rising edge of the SystemVerilog netlist

In DiffTest an evaluation at a rising edge moves all registers, lets every memory answer
its core and sends every word of the new state.
-/

namespace OpenGPU

open Verilog

/-! ## The snapshot -/

namespace DpiState

variable {cfg : Config} {start dpi : DpiState} {base : Nat} {words : List Word}

/-- Words that fit in the snapshot are sent to it. -/
theorem gpuDiffState_eq
    (fits : base + words.length ≤ diffStateWords cfg) :
    dpi.gpuDiffState cfg base words =
      let valid (k : Nat) := decide (base ≤ k ∧ k < base + words.length) || dpi.diffStateValid k
      { dpi with
        diffState := sendWords dpi.diffState base words
        diffStateValid := valid
        diffStateSeen := (List.range (diffStateWords cfg)).all valid } := by
  unfold gpuDiffState
  rw [if_neg (by simp only [Int.toNat_natCast]; omega), Int.toNat_natCast, if_neg (by omega)]
  dsimp only
  congr 1
  funext k
  rw [sendWords]
  by_cases behind : base ≤ k
  · by_cases below : k < base + words.length
    · rw [if_pos (decide_eq_true ⟨behind, below⟩), if_pos behind,
        List.getD_eq_getElem _ _ (by omega), List.getD_eq_getElem _ _ (by omega)]
    · rw [if_neg (by simp [below]), if_pos behind, List.getD_eq_default _ _ (by omega)]
  · rw [if_neg (by simp [behind]), if_neg behind]

/-- All words in front of a limit have been sent, without a mishap since the start. -/
structure SentTo (cfg : Config) (start : DpiState) (limit : Nat) (dpi : DpiState) : Prop where
  failed : dpi.diffFailed = start.diffFailed
  valid : ∀ k, k < limit → dpi.diffStateValid k = true
  seen : limit = diffStateWords cfg → dpi.diffStateSeen = true

theorem sentTo_zero : SentTo cfg start 0 start where
  failed := rfl
  valid _ below := absurd below (Nat.not_lt_zero _)
  seen whole := by
    unfold diffStateWords at whole
    omega

/-- The next words are sent, and what lies in front of them stays. -/
theorem SentTo.send
    (sent : SentTo cfg start base dpi)
    (fits : base + words.length ≤ diffStateWords cfg) :
    SentTo cfg start (base + words.length) (dpi.gpuDiffState cfg base words) ∧
      WordsAt (dpi.gpuDiffState cfg base words).diffState base words ∧
      ∀ place list, place + list.length ≤ base → WordsAt dpi.diffState place list →
        WordsAt (dpi.gpuDiffState cfg base words).diffState place list := by
  have valid : ∀ k, k < base + words.length →
      (decide (base ≤ k ∧ k < base + words.length) || dpi.diffStateValid k) = true := by
    intro k below
    rcases Nat.lt_or_ge k base with early | behind
    · rw [sent.valid k early, Bool.or_true]
    · simp [behind, below]
  rw [gpuDiffState_eq fits]
  refine ⟨⟨sent.failed, valid, fun whole => ?_⟩, wordsAt_sendWords _ _ _, fun _ _ apart laid =>
    laid.sendWords (Or.inl apart)⟩
  rw [List.all_eq_true]
  intro k member
  exact valid k (whole ▸ List.mem_range.mp member)

/-- The words of the cores are sent one after another. -/
theorem SentTo.sendCores
    {record : Nat → List Word}
    (sized : ∀ i, (record i).length = diffCoreWords cfg)
    (sent : SentTo cfg start 23 dpi)
    {count : Nat}
    (within : count ≤ cfg.numCores) :
    let after := (List.range count).foldl
      (fun dpi i => dpi.gpuDiffState cfg ((23 + i * diffCoreWords cfg : Nat) : Int) (record i)) dpi
    SentTo cfg start (23 + count * diffCoreWords cfg) after ∧
      (∀ place list, place + list.length ≤ 23 → WordsAt dpi.diffState place list →
        WordsAt after.diffState place list) ∧
      ∀ i, i < count → WordsAt after.diffState (23 + i * diffCoreWords cfg) (record i) := by
  induction count with
  | zero => exact ⟨by simpa using sent, fun _ _ _ laid => laid, fun i below => by omega⟩
  | succ count inductionHypothesis =>
      obtain ⟨early, front, cores⟩ := inductionHypothesis (Nat.le_of_succ_le within)
      have room : (count + 1) * diffCoreWords cfg ≤ cfg.numCores * diffCoreWords cfg :=
        Nat.mul_le_mul_right _ within
      rw [Nat.succ_mul] at room
      have fits : 23 + count * diffCoreWords cfg + (record count).length ≤
          diffStateWords cfg := by
        rw [sized, diffStateWords]
        omega
      obtain ⟨sent, here, kept⟩ := early.send fits
      rw [List.range_succ, List.foldl_append]
      refine ⟨?_, fun place list apart laid => ?_, fun i below => ?_⟩
      · rw [sized, Nat.add_assoc, ← Nat.succ_mul] at sent
        exact sent
      · exact kept place list (by omega) (front place list apart laid)
      · rcases Nat.lt_or_eq_of_le (Nat.le_of_lt_succ below) with before | rfl
        · refine kept _ _ ?_ (cores i before)
          have apart : (i + 1) * diffCoreWords cfg ≤ count * diffCoreWords cfg :=
            Nat.mul_le_mul_right _ before
          rw [Nat.succ_mul] at apart
          rw [sized]
          omega
        · exact here

end DpiState

/-! ## The calls of an evaluation -/

namespace Verilog

variable {cfg : Config} {build : Build} {State : Type} {dpi : DpiState} {pmem : Pmem}

/-- A memory has answered a core from physical memory. -/
structure GPUCore.ReadsFrom (cfg : Config) (pmem : Pmem) (h : GPUCore cfg) (imem dmem : Word) :
    Prop where
  fetch : h.state = .fetch → dpiPaddrRead cfg pmem h.issuePc = some imem
  load : h.dmemRen = true → dpiPaddrRead cfg pmem h.dmemAddr = some dmem

/-- All memories have. -/
def GPUTop.ReadsFrom (cfg : Config) (pmem : Pmem) (top : GPUTop cfg) (rdata : ReadData) : Prop :=
  ∀ i, i < cfg.numCores → (top.cores i).ReadsFrom cfg pmem (rdata.imem i) (rdata.dmem i)

namespace Netlist

/-- The bridges of the cores send their words in turn. -/
theorem perform_reportCores
    (diffTest : build.diffTest = true)
    (top : GPUTop cfg)
    (rdata : ReadData)
    (next : DpiCalls State)
    (cores : List Nat) :
    (reportCores top rdata next cores).perform cfg build dpi =
      next.perform cfg build (cores.foldl
        (fun dpi i => dpi.gpuDiffState cfg ((23 + i * diffCoreWords cfg : Nat) : Int)
          ((top.cores i).diffState (rdata.dmem i))) dpi) := by
  induction cores generalizing dpi with
  | nil => rfl
  | cons i cores inductionHypothesis =>
      rw [reportCores, DpiCalls.perform, if_pos diffTest, inductionHypothesis, List.foldl_cons]
      push_cast
      rfl

/-- A memory answers, or drives zero. -/
theorem run_readMem
    {ren : Bool}
    {addr : Word}
    {next : Word → DpiCalls State}
    {result : (State × DpiState) × Pmem}
    (ran : ((readMem ren addr next).perform cfg build dpi).run pmem = some result) :
    ∃ data, (ren = true → dpiPaddrRead cfg pmem addr = some data) ∧
      ((next data).perform cfg build dpi).run pmem = some result := by
  unfold readMem at ran
  cases ren with
  | false => exact ⟨0, fun asserted => Bool.noConfusion asserted, ran⟩
  | true =>
      obtain ⟨data, middle, read, rest⟩ := LocalAction.run_bind_eq_some ran
      rw [PmemAction.run_dpiPaddrRead] at read
      obtain ⟨_, found, same⟩ := Option.map_eq_some_iff.mp read
      cases same
      exact ⟨data, fun _ => found, rest⟩

/-- The memories of all listed cores answer. -/
theorem run_driveMem
    (diffTest : build.diffTest = true)
    {top : GPUTop cfg}
    {next : ReadData → DpiCalls State}
    {cores : List Nat}
    {rdata : ReadData}
    {result : (State × DpiState) × Pmem}
    (ran : ((driveMem top next cores rdata).perform cfg build dpi).run pmem = some result) :
    ∃ answer, ((next answer).perform cfg build dpi).run pmem = some result ∧
      (∀ i, i ∈ cores → (top.cores i).ReadsFrom cfg pmem (answer.imem i) (answer.dmem i)) ∧
      ∀ i, i ∉ cores → answer.imem i = rdata.imem i ∧ answer.dmem i = rdata.dmem i := by
  induction cores generalizing rdata with
  | nil => exact ⟨rdata, ran, fun _ member => absurd member List.not_mem_nil, fun _ _ => ⟨rfl, rfl⟩⟩
  | cons core cores inductionHypothesis =>
      obtain ⟨imem, fetched, ran⟩ := run_readMem ran
      obtain ⟨dmem, loaded, ran⟩ := run_readMem ran
      have rest : ((driveMem top next cores
          { imem := Function.update rdata.imem core imem
            dmem := Function.update rdata.dmem core dmem }).perform cfg build dpi).run pmem =
          some result := by
        dsimp only at ran
        split_ifs at ran
        · rw [DpiCalls.perform, if_pos diffTest] at ran
          exact ran
        · exact ran
      obtain ⟨answer, ran, reads, others⟩ := inductionHypothesis rest
      refine ⟨answer, ran, fun i member => ?_, fun i other => ?_⟩
      · by_cases later : i ∈ cores
        · exact reads i later
        · obtain rfl := (List.mem_cons.mp member).resolve_right later
          obtain ⟨sameImem, sameDmem⟩ := others i later
          dsimp only at sameImem sameDmem
          rw [Function.update_self] at sameImem sameDmem
          rw [sameImem, sameDmem]
          exact ⟨fun state => fetched (beq_iff_eq.mpr state), loaded⟩
      · obtain ⟨different, later⟩ := not_or.mp (mt List.mem_cons.mpr other)
        obtain ⟨sameImem, sameDmem⟩ := others i later
        dsimp only at sameImem sameDmem
        rw [Function.update_of_ne different] at sameImem sameDmem
        exact ⟨sameImem, sameDmem⟩

/-- Sending the words of the GPU, of the dispatcher and of every core sends them all. -/
theorem netlistAt_sent
    (top : GPUTop cfg)
    (rdata : ReadData)
    (dpi : DpiState) :
    let sent := (List.range cfg.numCores).foldl
      (fun dpi i => dpi.gpuDiffState cfg ((23 + i * diffCoreWords cfg : Nat) : Int)
        ((top.cores i).diffState (rdata.dmem i)))
      ((dpi.gpuDiffState cfg 0 top.diffState).gpuDiffState cfg 3 top.kmuDiffState)
    NetlistAt sent.diffState top rdata ∧ sent.diffFailed = dpi.diffFailed ∧
      sent.diffStateSeen = true := by
  have room : 23 ≤ diffStateWords cfg := Nat.le_add_right _ _
  have behind : 0 + top.diffState.length ≤ 23 := show 0 + 3 ≤ 23 by decide
  obtain ⟨early, gpu, _⟩ := (@DpiState.sentTo_zero cfg dpi).send
    (behind.trans room)
  obtain ⟨front, kmu, kept⟩ := early.send
    (show 0 + top.diffState.length + top.kmuDiffState.length ≤ _ from room)
  obtain ⟨whole, stays, cores⟩ := front.sendCores
    (fun i => GPUCore.length_diffState (rdata.dmem i) (top.cores i)) le_rfl
  exact ⟨⟨stays _ _ behind (kept _ _ le_rfl gpu), stays _ _ le_rfl kmu, cores⟩, whole.failed,
    whole.seen rfl⟩

/-- The inputs of the registers. -/
def inputs (pins : TopPins) (netlist : Netlist cfg) : TopInputs where
  reset := pins.reset
  dcr := ⟨pins.dcrValid, pins.dcrAddr.setWidth 12, pins.dcrData⟩
  launch := pins.launch
  rdata := netlist.rdata

/-- What a rising edge leaves: registers that have moved, memories that have answered
them, and a snapshot of all words. -/
structure Risen (cfg : Config) (pins : TopPins) (netlist : Netlist cfg) (dpi : DpiState)
    (pmem : Pmem) (next : Netlist cfg) (sent : DpiState) : Prop where
  clock : next.clock = true
  top : next.top = netlist.top.posedge (netlist.inputs pins)
  reads : next.top.ReadsFrom cfg pmem next.rdata
  words : NetlistAt sent.diffState next.top next.rdata
  failed : sent.diffFailed = dpi.diffFailed
  seen : sent.diffStateSeen = true

/-- A rising edge in DiffTest. -/
theorem run_eval_rising
    (diffTest : build.diffTest = true)
    {pins : TopPins}
    {netlist next : Netlist cfg}
    {sent : DpiState}
    {after : Pmem}
    (low : netlist.clock = false)
    (ran : ((eval pins true netlist).perform cfg build dpi).run pmem =
      some ((next, sent), after)) :
    Risen cfg pins netlist dpi pmem next sent := by
  unfold eval at ran
  rw [low, if_pos (by decide)] at ran
  obtain ⟨rdata, ran, reads, _⟩ := run_driveMem diffTest ran
  rw [DpiCalls.perform, if_pos diffTest, DpiCalls.perform, if_pos diffTest,
    perform_reportCores diffTest] at ran
  cases ran
  obtain ⟨words, failed, seen⟩ :=
    netlistAt_sent (netlist.top.posedge (netlist.inputs pins)) rdata dpi
  exact
    { clock := rfl
      top := rfl
      reads := fun i inRange => reads i (List.mem_range.mpr inRange)
      words
      failed
      seen }

end Netlist

end Verilog

end OpenGPU
