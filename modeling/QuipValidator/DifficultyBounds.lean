import QuipValidator.PowRounds

/-! The bounds of the difficulty control. A win moves the threshold toward the
winning energy and never past it, easing moves it toward the easy end of the
curve and never past it. So over any blocks the stored threshold of a topology
stays between the two, as far as it was there at the start. The float formulas
are arbitrary integers; of the eased amount only that it is not negative counts. -/
namespace QuipValidator.Pow
open Fallible

variable {T : Config} {floats : FloatMath}

/-- The values of an `i64`. -/
def IsI64 (value : Int) : Prop := i64Min ≤ value ∧ value ≤ i64Max

private theorem i64_zero : i64Min ≤ 0 ∧ 0 ≤ i64Max := by
  simp only [i64Min, i64Max]
  omega

private theorem isI64_clamp (value : Int) : IsI64 (clampI64 value) := by
  have zero := i64_zero
  unfold IsI64 clampI64
  omega

private theorem clampI64_of_isI64 {value : Int} (typed : IsI64 value) : clampI64 value = value := by
  unfold IsI64 at typed
  unfold clampI64
  omega

/-- The eased amount of a positive room is not negative. -/
def FloatMath.Eases (floats : FloatMath) : Prop :=
  ∀ room blocks epochLength, 0 < room → 0 ≤ floats.easedAmount room blocks epochLength

/-- The eased amount is at least zero and at most the room, if there is any. -/
private theorem easeRoom_bounds (eases : floats.Eases) (room : Int) (blocks epochLength : Nat) :
    0 ≤ easeRoom floats room blocks epochLength ∧ easeRoom floats room blocks epochLength ≤ max room 0 := by
  unfold easeRoom
  split
  · omega
  · have amount := eases room blocks epochLength (by omega)
    omega

/-- Only the threshold moves, by `eased` and no further than the easy end of the curve. -/
structure EasedBy (base : DifficultyConfig) (curve : Option EnergyCurve) (eased : Int) (active : DifficultyConfig) :
    Prop where
  amount : 0 ≤ eased
  only : active = { base with maxEnergyMilli := saturatingAddI64 base.maxEnergyMilli eased }
  most : eased = 0 ∨ ∃ found, curve = some found ∧ base.maxEnergyMilli + eased ≤ found.maxMilli

private theorem EasedBy.refl {base : DifficultyConfig} (typed : IsI64 base.maxEnergyMilli)
    (curve : Option EnergyCurve) : EasedBy base curve 0 base := by
  refine ⟨le_rfl, ?_, .inl rfl⟩
  rw [saturatingAddI64, Int.add_zero, clampI64_of_isI64 typed]

/-- The two thresholds, whether the addition saturates or not. -/
private theorem EasedBy.bounds {base active : DifficultyConfig} {curve : Option EnergyCurve} {eased : Int}
    (typed : IsI64 base.maxEnergyMilli) (easing : EasedBy base curve eased active) :
    base.maxEnergyMilli ≤ active.maxEnergyMilli ∧ (active.maxEnergyMilli ≤ base.maxEnergyMilli ∨
      ∃ found, curve = some found ∧ active.maxEnergyMilli ≤ found.maxMilli) := by
  have zero := i64_zero
  have written : active.maxEnergyMilli = saturatingAddI64 base.maxEnergyMilli eased := by rw [easing.only]
  have amount := easing.amount
  simp only [IsI64, saturatingAddI64, clampI64] at typed written
  refine ⟨by omega, ?_⟩
  rcases easing.most with none | ⟨found, isFound, below⟩
  · exact .inl (by omega)
  · exact .inr ⟨found, isFound, by omega⟩

section Easing
variable (eases : floats.Eases) {base : DifficultyConfig}
  (typed : IsI64 base.maxEnergyMilli)
include eases typed

/-- The amount fits under the easy end, whatever the room saturates to. -/
theorem applyDecay_eased (elapsed epochLength : Nat) (curve : EnergyCurve) (target : U32) :
    ∃ eased, EasedBy base (some curve) eased (applyDecay floats base elapsed epochLength curve target) ∧
      (elapsed ≤ target.val → eased = 0) := by
  unfold applyDecay
  dsimp only
  split
  · exact ⟨0, EasedBy.refl typed _, fun _ => rfl⟩
  · rename_i late
    obtain ⟨least, most⟩ := easeRoom_bounds eases (saturatingSubI64 curve.maxMilli base.maxEnergyMilli)
      (elapsed - target.val) epochLength
    refine ⟨_, ⟨least, rfl, ?_⟩, fun early => absurd (by omega) late⟩
    generalize easeRoom floats _ _ _ = eased at least most ⊢
    have zero := i64_zero
    simp only [IsI64, saturatingSubI64, clampI64] at typed most
    by_cases none : eased = 0
    · exact .inl none
    · exact .inr ⟨curve, rfl, by omega⟩

theorem currentDifficulty_eased (blockNumber lastProofBlock epochLength : Nat) (curve : Option EnergyCurve)
    (target : U32) :
    ∃ eased, EasedBy base curve eased
        (currentDifficulty floats blockNumber base lastProofBlock epochLength curve target) ∧
      (lastProofBlock = 0 ∨ blockNumber - lastProofBlock ≤ target.val → eased = 0) := by
  unfold currentDifficulty
  split
  · exact ⟨0, EasedBy.refl typed _, fun _ => rfl⟩
  dsimp only
  split
  · exact ⟨0, EasedBy.refl typed _, fun _ => rfl⟩
  cases curve with
  | none => exact ⟨0, EasedBy.refl typed _, fun _ => rfl⟩
  | some curve =>
    rename_i won _
    obtain ⟨eased, easing, unchanged⟩ := applyDecay_eased eases typed (blockNumber - lastProofBlock) epochLength curve
      target
    refine ⟨eased, easing, fun early => unchanged (early.resolve_left fun never => won (.inl never))⟩

end Easing

/-- Only the threshold moves, by `moved` toward the winning energy: by one unit
at least, and by no more than the gap and the cap allow. -/
structure HardenedBy (active : DifficultyConfig) (winning cap moved : Int) (next : DifficultyConfig) : Prop where
  least : min 1000 (saturatingSubI64 active.maxEnergyMilli winning) ≤ moved
  most : moved ≤ min (saturatingSubI64 active.maxEnergyMilli winning) cap
  only : next = { active with maxEnergyMilli := saturatingSubI64 active.maxEnergyMilli moved }

theorem adjustOnProof_hardens {ε : Type} (floats : FloatMath) (active : DifficultyConfig) (winning : Int)
    (miningTimeBlocks : Nat) (curve : EnergyCurve) (sample : Nat) (target : U32) :
    ∃ next, (adjustOnProof floats active winning miningTimeBlocks curve sample target :
        Fallible ε DifficultyConfig) = .ok next ∧
      (saturatingSubI64 active.maxEnergyMilli winning ≤ 0 → next = active) ∧
      (0 < saturatingSubI64 active.maxEnergyMilli winning →
        ∃ moved, HardenedBy active winning (maxHardeningDelta floats curve) moved next) := by
  simp only [adjustOnProof]
  split
  · rename_i behind
    exact ⟨active, rfl, fun _ => rfl, fun ahead => absurd behind (by omega)⟩
  · rename_i ahead
    obtain ⟨rate, ran⟩ := sampleAdjustmentMilli_runs miningTimeBlocks sample target
    refine ⟨_, bind_success.mpr ⟨rate, ran, rfl⟩, fun behind => absurd behind ahead, fun _ => ⟨_, ?_, ?_, rfl⟩⟩
    all_goals
      simp only [maxHardeningDelta, MIN_ENERGY_DELTA_MILLI]
      omega

/-- The subtraction does not saturate on the way to an energy that is no further. -/
private theorem HardenedBy.exact {active next : DifficultyConfig} {winning cap moved : Int}
    (typed : IsI64 active.maxEnergyMilli) (energy : IsI64 winning)
    (hardening : HardenedBy active winning cap moved next)
    (ahead : 0 < saturatingSubI64 active.maxEnergyMilli winning) :
    saturatingSubI64 active.maxEnergyMilli moved = active.maxEnergyMilli - moved ∧
      winning ≤ active.maxEnergyMilli - moved ∧ active.maxEnergyMilli - moved < active.maxEnergyMilli := by
  have zero := i64_zero
  have least := hardening.least
  have most := hardening.most
  simp only [IsI64, saturatingSubI64, clampI64] at typed energy least most ahead ⊢
  omega

/-- The two thresholds, whether the subtraction saturates or not. -/
private theorem HardenedBy.bounds {active next : DifficultyConfig} {winning cap moved : Int}
    (typed : IsI64 active.maxEnergyMilli) (hardening : HardenedBy active winning cap moved next)
    (ahead : 0 < saturatingSubI64 active.maxEnergyMilli winning) :
    next.maxEnergyMilli ≤ active.maxEnergyMilli ∧ winning ≤ next.maxEnergyMilli := by
  have zero := i64_zero
  have written : next.maxEnergyMilli = saturatingSubI64 active.maxEnergyMilli moved := by rw [hardening.only]
  have least := hardening.least
  have most := hardening.most
  simp only [IsI64, saturatingSubI64, clampI64] at typed written least most ahead
  omega

/-- The stored difficulty of a topology, before any easing. -/
def baseline (s : State T) (topology : H256) : DifficultyConfig := (s.difficulties.lookup topology).getD default

/-- What a win makes of the stored difficulty of its topology. -/
private structure Won (s : State T) (record : ProofRecord T) (next : DifficultyConfig) : Prop where
  only : next = { baseline s record.topologyHash with maxEnergyMilli := next.maxEnergyMilli }
  typed : IsI64 next.maxEnergyMilli
  most : next.maxEnergyMilli ≤ (baseline s record.topologyHash).maxEnergyMilli ∨
    ∃ curve, energyCurveFor s record.topologyHash = some curve ∧ next.maxEnergyMilli ≤ curve.maxMilli
  least : (baseline s record.topologyHash).maxEnergyMilli ≤ next.maxEnergyMilli ∨
    record.energyMilli ≤ next.maxEnergyMilli

private theorem adjustDifficulty_won
    (eases : T.floats.Eases) {s : State T} {n : Nat}
    {record : ProofRecord T} {next : DifficultyConfig} {logs : List String}
    (typed : IsI64 (baseline s record.topologyHash).maxEnergyMilli)
    (adjusted : adjustDifficulty s n record (currentDifficultyFor s record.topologyHash n) = .ok (next, logs)) :
    Won s record next := by
  obtain ⟨eased, easing, -⟩ := currentDifficulty_eased eases typed (min n u32Max) (min s.lastProofBlock u32Max)
    (min T.epochLength u32Max) (energyCurveFor s record.topologyHash) (targetProofBlocks s)
  change EasedBy _ _ _ (currentDifficultyFor s record.topologyHash n) at easing
  generalize currentDifficultyFor s record.topologyHash n = active at easing adjusted
  obtain ⟨raised, ceiling⟩ := easing.bounds typed
  have only : active = { baseline s record.topologyHash with maxEnergyMilli := active.maxEnergyMilli } := by
    rw [easing.only]
  have eased : Won s record active := ⟨only, by rw [easing.only]; exact isI64_clamp _, ceiling, .inl raised⟩
  unfold adjustDifficulty at adjusted
  dsimp only at adjusted
  split at adjusted
  · rename_i curve _
    obtain ⟨hardened, ran, unmoved, moves⟩ := @adjustOnProof_hardens DispatchError T.floats active record.energyMilli
      (miningTimeBlocks s n) curve (T.adjustmentSample s.parentHash record.miner n (miningTimeBlocks s n))
      (targetProofBlocks s)
    rw [ran] at adjusted
    cases adjusted
    by_cases ahead : 0 < saturatingSubI64 active.maxEnergyMilli record.energyMilli
    · obtain ⟨moved, hardening⟩ := moves ahead
      obtain ⟨lowered, reached⟩ := hardening.bounds eased.typed ahead
      refine ⟨?_, by rw [hardening.only]; exact isI64_clamp _, ?_, .inr reached⟩
      · rw [hardening.only, only]
      · rcases ceiling with unraised | ⟨found, isFound, below⟩
        · exact .inl (lowered.trans unraised)
        · exact .inr ⟨found, isFound, lowered.trans below⟩
    · rw [unmoved (by omega)]
      exact eased
  · cases adjusted
    exact eased

section Run
variable (topology : H256)

/-- A call that sets the difficulty or the curve of the topology. -/
def Call.Tunes : Call T → Prop
  | .setDifficulty topologyHash _ => topologyHash = topology
  | .setTopologyCurve topologyHash _ => topologyHash = topology
  | _ => False

/-- No accepted call of the block sets the difficulty or the curve of the topology. -/
def Built.Untuned (built : Built T) : Prop :=
  ∀ executed ∈ (body T).trace built.initialised built.block.actions, ¬ executed.call.Tunes topology

/-- What only tuning calls change: the stored difficulty and the curve, once registered. -/
private structure Kept (s s' : State T) : Prop where
  difficulty : s'.difficulties.lookup topology = s.difficulties.lookup topology
  curveC : s'.topologyCurveC.lookup topology = s.topologyCurveC.lookup topology
  registered : ∀ found, s.registeredTopologies.lookup topology = some found →
    s'.registeredTopologies.lookup topology = some found

variable {topology} {s s' s'' : State T}

private theorem Kept.trans (first : Kept topology s s') (second : Kept topology s' s'') : Kept topology s s'' :=
  ⟨second.difficulty.trans first.difficulty, second.curveC.trans first.curveC,
    fun found held => second.registered found (first.registered found held)⟩

private theorem Kept.baseline (kept : Kept topology s s') : baseline s' topology = baseline s topology := by
  rw [Pow.baseline, Pow.baseline, kept.difficulty]

private theorem Kept.energyCurveFor (kept : Kept topology s s') {curve : EnergyCurve}
    (found : energyCurveFor s topology = some curve) : energyCurveFor s' topology = some curve := by
  unfold Pow.energyCurveFor at found ⊢
  cases registered : s.registeredTopologies.lookup topology with
  | none =>
    rw [registered] at found
    cases found
  | some record =>
    rw [registered] at found
    rw [kept.registered record registered, kept.curveC]
    exact found

private theorem kept_aside {call : Call T} (aside : Aside s call s') (untuned : ¬ call.Tunes topology) :
    Kept topology s s' := by
  refine ⟨?_, ?_, aside.registered topology⟩
  · rw [aside.difficulties]
    cases call with
    | setDifficulty topologyHash difficulty =>
      exact (StorageMap.lookup_insert_ite _ _ _ _).trans (if_neg fun same => untuned same.symm)
    | _ => rfl
  · rw [aside.topologyCurveC]
    cases call with
    | setTopologyCurve topologyHash curveC =>
      exact (StorageMap.lookup_insert_ite _ _ _ _).trans (if_neg fun same => untuned same.symm)
    | _ => rfl

private theorem kept_step (action : Action T)
    (untuned : ∀ executed ∈ (body T).report s action, ¬ executed.call.Tunes topology) :
    Kept topology s ((body T).next s action) := by
  rcases body_cases s action with ⟨_, _, _, _, _, next, _⟩ | ⟨_, quiet⟩
  · rw [next]
    exact ⟨rfl, rfl, fun _ found => found⟩
  · rcases quiet with ⟨balances, next⟩ | ⟨origin, call, told, aside⟩
    · rw [next]
      exact ⟨rfl, rfl, fun _ found => found⟩
    · rw [told] at untuned
      exact kept_aside aside (untuned _ List.mem_cons_self)

/-- Until its end a block keeps what no call of it tunes. -/
private theorem closing_kept (block : Block T) (untuned : Built.Untuned topology ⟨s, block⟩) :
    Kept topology s (closing s block) := by
  have begun : Kept topology s (initialised s block) := by
    simp only [initialised, onInitialize]
    split <;> exact ⟨rfl, rfl, fun _ found => found⟩
  have followed := (body T).run_follows
    (fun reports s' => (∀ executed ∈ reports, ¬ executed.call.Tunes topology) → Kept topology s s')
    (fun _ => begun) ?_ block.actions
  · exact followed untuned
  · intro s' reports action held calm
    refine (held fun executed member => calm executed (List.mem_append_left _ member)).trans (kept_step action ?_)
    exact fun executed member => calm executed (List.mem_append_right _ member)

/-- The record that wins the block, if it has one. -/
def Built.winner (built : Built T) : Option (ProofRecord T) := built.closing.blockBestProof

/-- The stored difficulty of the topology after the blocks `builts`, against the
one in `s₀`: only the threshold may differ, it is not above both the old one and
the easy end of the curve, and not below both the old one and every energy the
topology was won with. -/
structure WithinBounds (topology : H256) (s₀ : State T) (builts : List (Built T)) (s : State T) : Prop where
  only : baseline s topology = { baseline s₀ topology with maxEnergyMilli := (baseline s topology).maxEnergyMilli }
  typed : IsI64 (baseline s topology).maxEnergyMilli
  curve : ∀ curve, energyCurveFor s₀ topology = some curve → energyCurveFor s topology = some curve
  most : (baseline s topology).maxEnergyMilli ≤ (baseline s₀ topology).maxEnergyMilli ∨
    ∃ curve, energyCurveFor s topology = some curve ∧ (baseline s topology).maxEnergyMilli ≤ curve.maxMilli
  least : (baseline s₀ topology).maxEnergyMilli ≤ (baseline s topology).maxEnergyMilli ∨
    ∃ built ∈ builts, ∃ record, built.winner = some record ∧ record.topologyHash = topology ∧
      record.energyMilli ≤ (baseline s topology).maxEnergyMilli

variable {s₀ : State T} {builts : List (Built T)}

private theorem WithinBounds.refl (typed : IsI64 (baseline s₀ topology).maxEnergyMilli) :
    WithinBounds topology s₀ [] s₀ :=
  ⟨rfl, typed, fun _ found => found, .inl le_rfl, .inl le_rfl⟩

private theorem WithinBounds.keep (within : WithinBounds topology s₀ builts s) (kept : Kept topology s s')
    (later : List (Built T)) : WithinBounds topology s₀ (builts ++ later) s' := by
  refine ⟨?_, ?_, fun curve found => kept.energyCurveFor (within.curve curve found), ?_, ?_⟩
  all_goals rw [kept.baseline]
  · exact within.only
  · exact within.typed
  · rcases within.most with old | ⟨curve, found, below⟩
    · exact .inl old
    · exact .inr ⟨curve, kept.energyCurveFor found, below⟩
  · rcases within.least with old | ⟨built, member, won⟩
    · exact .inl old
    · exact .inr ⟨built, List.mem_append_left _ member, won⟩

/-- A win of the topology keeps the bounds, its energy being one of those won with. -/
private theorem WithinBounds.win {record : ProofRecord T} {next : DifficultyConfig} {built : Built T}
    (within : WithinBounds topology s₀ (builts ++ [built]) s) (winner : built.winner = some record)
    (own : record.topologyHash = topology) (won : Won s record next) (stored : baseline s' topology = next)
    (curves : energyCurveFor s' topology = energyCurveFor s topology) :
    WithinBounds topology s₀ (builts ++ [built]) s' := by
  subst own
  refine ⟨?_, by rw [stored]; exact won.typed, fun curve found => curves ▸ within.curve curve found, ?_, ?_⟩
  all_goals rw [stored]
  · rw [won.only, within.only]
  · rcases won.most with lower | ⟨curve, found, below⟩
    · rcases within.most with old | ⟨curve, found, below⟩
      · exact .inl (lower.trans old)
      · exact .inr ⟨curve, curves.trans found, lower.trans below⟩
    · exact .inr ⟨curve, curves.trans found, below⟩
  · rcases won.least with higher | reached
    · rcases within.least with old | ⟨earlier, member, other, wins, same, below⟩
      · exact .inl (old.trans higher)
      · exact .inr ⟨earlier, member, other, wins, same, below.trans higher⟩
    · exact .inr ⟨built, List.mem_append_right _ List.mem_cons_self, record, winner, rfl, reached⟩

/-- A win of another topology changes nothing here. -/
private theorem settledAs_kept {record : ProofRecord T} (other : record.topologyHash ≠ topology) (n reward : Nat)
    (next : DifficultyConfig) (miners : StorageMap T.AccountId MinerInfo) (logs : List String)
    (events : List (Event T)) : Kept topology s (settledAs s n record reward next miners logs events) := by
  refine ⟨?_, rfl, fun _ found => found⟩
  exact (StorageMap.lookup_insert_ite _ _ _ _).trans (if_neg fun same => other same.symm)

/-- One block keeps the bounds. -/
private theorem within_next (eases : T.floats.Eases)
    (within : WithinBounds topology s₀ builts s) (block : Block T) (untuned : Built.Untuned topology ⟨s, block⟩) :
    WithinBounds topology s₀ (builts ++ [⟨s, block⟩]) ((chain T).next s block) := by
  have closed := within.keep (closing_kept block untuned) [⟨s, block⟩]
  have next : (chain T).next s block = committed s (buildBlock s block) := rfl
  rw [next, buildBlock]
  cases front : (closing s block).blockBestProof with
  | none =>
    rw [onFinalize, front]
    exact closed
  | some record =>
    obtain ⟨hardened, logs, events, adjusted, ran⟩ := onFinalize_hardens (closing s block) block.pay
      (closing s block).blockNumber front
    rw [ran, committed]
    by_cases own : record.topologyHash = topology
    · have typed : IsI64 (baseline (closing s block) record.topologyHash).maxEnergyMilli := by
        rw [own]
        exact closed.typed
      refine closed.win front own (adjustDifficulty_won eases typed adjusted) ?_ rfl
      rw [baseline, settledAs, own, AList.lookup_insert, Option.getD_some]
    · rw [← List.append_nil (builts ++ _)]
      exact closed.keep (settledAs_kept own _ _ hardened _ logs events) []

/-- Every chain without tuning calls keeps the bounds. -/
private theorem run_within (eases : T.floats.Eases)
    (typed : IsI64 (baseline s₀ topology).maxEnergyMilli) (blocks : List (Block T))
    (untuned : ∀ built ∈ (chain T).trace s₀ blocks, built.Untuned topology) :
    WithinBounds topology s₀ ((chain T).trace s₀ blocks) ((chain T).run s₀ blocks) := by
  have followed := (chain T).run_follows
    (fun builts s => (∀ built ∈ builts, built.Untuned topology) → WithinBounds topology s₀ builts s)
    (fun _ => WithinBounds.refl typed) ?_ blocks
  · exact followed untuned
  · intro s builts block held calm
    refine within_next eases (held fun built member => calm built (List.mem_append_left _ member)) block ?_
    exact calm _ (List.mem_append_right _ List.mem_cons_self)

/-- Enough for a block to leave a topology untuned: it dispatches no tuning call. -/
theorem Built.untuned_of_actions {built : Built T}
    (quiet : ∀ env origin call, Action.dispatch env origin call ∈ built.block.actions → ¬ call.Tunes topology) :
    built.Untuned topology := by
  intro executed member
  obtain ⟨earlier, action, later, split, reported⟩ := (body T).mem_trace member
  cases action with
  | external balances => cases reported
  | dispatch env origin call =>
    have dispatched : Action.dispatch env origin call ∈ built.block.actions := by rw [split]; simp
    rcases body_dispatch ((body T).run built.initialised earlier) env origin call with
      ⟨_, silent⟩ | ⟨after, _, _, told⟩
    · rw [silent] at reported
      cases reported
    · rw [told, List.mem_singleton] at reported
      rw [reported]
      exact quiet env origin call dispatched

end Run

/-- What `adjust_on_proof` may do: nothing without a gap, otherwise it moves the
threshold alone, exactly by `moved`, toward the winning energy. -/
def HardensWithin (floats : FloatMath) : Prop :=
  ∀ (active : DifficultyConfig) (winning : Int) (miningTimeBlocks : Nat) (curve : EnergyCurve) (sample : Nat)
    (target : U32), IsI64 active.maxEnergyMilli → IsI64 winning →
    ∃ next, (adjustOnProof floats active winning miningTimeBlocks curve sample target :
        Fallible DispatchError DifficultyConfig) = .ok next ∧
      (saturatingSubI64 active.maxEnergyMilli winning ≤ 0 → next = active) ∧
      (0 < saturatingSubI64 active.maxEnergyMilli winning →
        ∃ moved, next = { active with maxEnergyMilli := active.maxEnergyMilli - moved } ∧
          winning ≤ next.maxEnergyMilli ∧ next.maxEnergyMilli < active.maxEnergyMilli ∧
          min 1000 (saturatingSubI64 active.maxEnergyMilli winning) ≤ moved ∧
          moved ≤ min (saturatingSubI64 active.maxEnergyMilli winning) (maxHardeningDelta floats curve))

/-- What reading a difficulty may do: it raises the threshold alone, exactly by
`eased`, not above both the stored one and the easy end of the curve, and not at
all within the target or before the first win. -/
def EasesWithin (floats : FloatMath) : Prop :=
  ∀ (base : DifficultyConfig) (curve : EnergyCurve) (epochLength : Nat) (target : U32),
    IsI64 base.maxEnergyMilli → IsI64 curve.maxMilli →
    (∀ elapsed, ∃ eased, 0 ≤ eased ∧
      applyDecay floats base elapsed epochLength curve target =
        { base with maxEnergyMilli := base.maxEnergyMilli + eased } ∧
      base.maxEnergyMilli + eased ≤ max base.maxEnergyMilli curve.maxMilli ∧ (elapsed ≤ target.val → eased = 0)) ∧
    ∀ blockNumber lastProofBlock, ∃ eased, 0 ≤ eased ∧
      currentDifficulty floats blockNumber base lastProofBlock epochLength (some curve) target =
        { base with maxEnergyMilli := base.maxEnergyMilli + eased } ∧
      base.maxEnergyMilli + eased ≤ max base.maxEnergyMilli curve.maxMilli ∧
      (lastProofBlock = 0 ∨ blockNumber - lastProofBlock ≤ target.val → eased = 0) ∧
      currentDifficulty floats blockNumber base lastProofBlock epochLength none target = base

private theorem hardensWithin (floats : FloatMath) : HardensWithin floats := by
  intro active winning miningTimeBlocks curve sample target typed energy
  obtain ⟨next, ran, unmoved, moves⟩ := @adjustOnProof_hardens DispatchError floats active winning miningTimeBlocks
    curve sample target
  refine ⟨next, ran, unmoved, fun ahead => ?_⟩
  obtain ⟨moved, hardening⟩ := moves ahead
  obtain ⟨exactly, reached, lowered⟩ := hardening.exact typed energy ahead
  have only := hardening.only
  rw [exactly] at only
  refine ⟨moved, only, ?_, ?_, hardening.least, hardening.most⟩ <;> rw [only] <;> assumption

/-- The addition does not saturate below an easy end that is an `i64`. -/
private theorem EasedBy.exact {base active : DifficultyConfig} {curve : EnergyCurve} {eased : Int}
    (typed : IsI64 base.maxEnergyMilli) (ceiling : IsI64 curve.maxMilli)
    (easing : EasedBy base (some curve) eased active) :
    active = { base with maxEnergyMilli := base.maxEnergyMilli + eased } ∧
      base.maxEnergyMilli + eased ≤ max base.maxEnergyMilli curve.maxMilli := by
  have amount := easing.amount
  have most : eased = 0 ∨ base.maxEnergyMilli + eased ≤ curve.maxMilli := by
    rcases easing.most with none | ⟨found, isFound, below⟩
    · exact .inl none
    · cases isFound
      exact .inr below
  have fits : IsI64 (base.maxEnergyMilli + eased) := by
    unfold IsI64 at typed ceiling ⊢
    omega
  refine ⟨?_, by omega⟩
  rw [easing.only, saturatingAddI64, clampI64_of_isI64 fits]

private theorem easesWithin (eases : floats.Eases) : EasesWithin floats := by
  intro base curve epochLength target typed ceiling
  constructor
  · intro elapsed
    obtain ⟨eased, easing, unchanged⟩ := applyDecay_eased eases typed elapsed epochLength curve target
    obtain ⟨exactly, below⟩ := easing.exact typed ceiling
    exact ⟨eased, easing.amount, exactly, below, unchanged⟩
  · intro blockNumber lastProofBlock
    obtain ⟨eased, easing, unchanged⟩ := currentDifficulty_eased eases typed blockNumber lastProofBlock epochLength
      (some curve) target
    obtain ⟨exactly, below⟩ := easing.exact typed ceiling
    refine ⟨eased, easing.amount, exactly, below, unchanged, ?_⟩
    simp only [currentDifficulty, ite_self]

/-- The difficulty control stays in bounds, in one step and over every chain of
blocks whose accepted calls set neither the difficulty nor the curve of the topology. -/
theorem difficulty_stays_in_bounds (eases : T.floats.Eases) :
    HardensWithin T.floats ∧ EasesWithin T.floats ∧
      ∀ (topology : H256) (s₀ : State T) (blocks : List (Block T)), IsI64 (baseline s₀ topology).maxEnergyMilli →
        (∀ built ∈ (chain T).trace s₀ blocks, built.Untuned topology) →
        WithinBounds topology s₀ ((chain T).trace s₀ blocks) ((chain T).run s₀ blocks) :=
  ⟨hardensWithin T.floats, easesWithin eases, fun _ _ blocks typed untuned => run_within eases typed blocks untuned⟩

/-- The coupled pair with the threshold 0 and no win yet. -/
def tinyUnwon : State tinyConfig := (chain tinyConfig).run tinyGenesis [tinyBlock 3 (tinyOpening.take 4)]

/-- A block that wins it with -1000. -/
def tinyWin : Block tinyConfig :=
  tinyBlock 4 [.dispatch tinyEnv (.signed (1 : Nat)) (.submitProof (tinyProof 1 3))]

/-- The win hardens the threshold to its energy, and a gap no `i64` holds is crossed without overshooting. -/
theorem difficulty_stays_in_bounds_tiny :
    baseline tinyUnwon tinyTopology = tinyDifficulty 0 ∧
    (baseline ((chain tinyConfig).run tinyUnwon [tinyWin]) tinyTopology).maxEnergyMilli = -1000 ∧
    WithinBounds tinyTopology tinyUnwon ((chain tinyConfig).trace tinyUnwon [tinyWin])
      ((chain tinyConfig).run tinyUnwon [tinyWin]) ∧
    (∃ next, (adjustOnProof tinyConfig.floats (tinyDifficulty i64Max) i64Min 100 ⟨-900, -750, -600⟩ 0 100 :
        Fallible DispatchError DifficultyConfig) = .ok next ∧ i64Min ≤ next.maxEnergyMilli) ∧
    ∃ eased, currentDifficulty tinyConfig.floats 300 (tinyDifficulty (-800)) 100 100 (some ⟨-900, -750, -600⟩) 100 =
      tinyDifficulty (-800 + eased) ∧ -800 + eased ≤ -600 := by
  have opened : baseline tinyUnwon tinyTopology = tinyDifficulty 0 := by decide +kernel
  have eases : tinyConfig.floats.Eases := fun room _ _ positive => positive.le
  have small : ∀ value : Int, -1000 ≤ value → value ≤ 0 → IsI64 value := by
    intro value low high
    simp only [IsI64, i64Min, i64Max]
    omega
  obtain ⟨hardens, easing, chains⟩ := difficulty_stays_in_bounds eases
  refine ⟨opened, by decide +kernel, chains tinyTopology tinyUnwon [tinyWin] ?_ ?_, ?_, ?_⟩
  · rw [opened]
    exact i64_zero
  · intro built member
    rw [Machine.trace, Machine.trace, List.append_nil] at member
    rw [List.mem_singleton.mp member]
    apply Built.untuned_of_actions
    intro env origin call dispatched tunes
    cases List.mem_singleton.mp dispatched
    exact tunes
  · have extremes : IsI64 i64Max ∧ IsI64 i64Min := by
      simp only [IsI64, i64Min, i64Max]
      omega
    obtain ⟨next, ran, -, moves⟩ := hardens (tinyDifficulty i64Max) i64Min 100 ⟨-900, -750, -600⟩ 0 100 extremes.1
      extremes.2
    obtain ⟨moved, -, reached, -⟩ := moves (by decide +kernel)
    exact ⟨next, ran, reached⟩
  · obtain ⟨eased, -, read, below, -⟩ := (easing (tinyDifficulty (-800)) ⟨-900, -750, -600⟩ 100 100
      (small (-800) (by omega) (by omega)) (small (-600) (by omega) (by omega))).2 300 100
    exact ⟨eased, read, below⟩

end QuipValidator.Pow
