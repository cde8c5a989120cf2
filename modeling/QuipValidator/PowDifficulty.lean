import QuipValidator.PowTypes

/-! `pallet-quantum-pow`, `difficulty.rs`: the energy curve, the easing of an
overdue round and the hardening after a win. The float formulas come from
`FloatMath`; everything the source does around them in integers is here. -/
namespace QuipValidator.Pow
open Fallible IsingValidation IsingPuzzle

def FAST_PROOF_BLOCKS : Nat := 60

/-- `MIN_ENERGY_DELTA_MILLI`: one energy unit. -/
def MIN_ENERGY_DELTA_MILLI : Int := 1000

def DECAY_RATE_MILLI : Nat := 25

/-- The nearest `i64`. -/
def clampI64 (value : Int) : Int := max i64Min (min i64Max value)

/-- `i64::saturating_add`. -/
def saturatingAddI64 (a b : Int) : Int := clampI64 (a + b)

/-- `i64::saturating_sub`. -/
def saturatingSubI64 (a b : Int) : Int := clampI64 (a - b)

section Checked
variable {ε : Type}

/-- `a + b` for an unsigned type whose largest value is `cap`. -/
def plainAdd (cap a b : Nat) : Fallible ε Nat :=
  if a + b ≤ cap then .ok (a + b) else .error (.panic "attempt to add with overflow")

/-- `a - b` for an unsigned type. -/
def plainSub (a b : Nat) : Fallible ε Nat :=
  if b ≤ a then .ok (a - b) else .error (.panic "attempt to subtract with overflow")

/-- `a * b` for an unsigned type whose largest value is `cap`. -/
def plainMul (cap a b : Nat) : Fallible ε Nat :=
  if a * b ≤ cap then .ok (a * b) else .error (.panic "attempt to multiply with overflow")

/-- `a / b` for an unsigned type. -/
def plainDiv (a b : Nat) : Fallible ε Nat :=
  if b = 0 then .error (.panic "attempt to divide by zero") else .ok (a / b)

end Checked

/-- The errors of `mean_abs_unit`; its value is part of the float formula. -/
def checkMeanAbs : Spec → Fallible ValidationError Unit
  | .set values => ensure (values ≠ []) .emptyAllowedValues
  | .integerRange min max | .continuousRange min max => ensure (min ≤ max) .emptyAllowedValues

/-- `expected_gse`, with `c` in per mille. -/
def expectedGse (floats : FloatMath) (numNodes numEdges cMilli : Nat) (allowedH allowedJ : Spec) :
    Fallible ValidationError Int := do
  checkMeanAbs allowedH
  checkMeanAbs allowedJ
  if numNodes = 0 ∨ numEdges = 0 then pure 0
  else pure (floats.gse numNodes numEdges cMilli allowedH allowedJ)

/-- `EnergyCurve::new`. -/
def EnergyCurve.new (floats : FloatMath) (numNodes numEdges : Nat) (c : CurveC) (allowedH allowedJ : Spec) :
    Fallible ValidationError EnergyCurve := do
  let minMilli ← expectedGse floats numNodes numEdges c.hardMilli allowedH allowedJ
  let kneeMilli ← expectedGse floats numNodes numEdges c.kneeMilli allowedH allowedJ
  let maxMilli ← expectedGse floats numNodes numEdges c.easyMilli allowedH allowedJ
  pure { minMilli, kneeMilli, maxMilli }

/-- The base rate and the variance of the hardening band. -/
def adjustmentBand {ε : Type} (miningTimeBlocks target : Nat) : Fallible ε (Nat × Nat) :=
  if miningTimeBlocks < FAST_PROOF_BLOCKS then pure (350, 300)
  else if target < miningTimeBlocks then pure (50, 40)
  else do
    let past ← plainSub miningTimeBlocks FAST_PROOF_BLOCKS
    let scaled ← plainMul u64Max past 1000
    let width ← plainSub target FAST_PROOF_BLOCKS
    let quotient ← plainDiv scaled width
    let progress := asU32 quotient
    let baseFall ← plainMul u32Max (350 - 50) progress
    let base ← plainSub 350 (baseFall / 1000)
    let varianceFall ← plainMul u32Max (300 - 40) progress
    let variance ← plainSub 300 (varianceFall / 1000)
    pure (base, variance)

/-- `sample_adjustment_milli`; `sample` is the `u64` read off the digest of the seed. -/
def sampleAdjustmentMilli {ε : Type} (miningTimeBlocks sample : Nat) (targetProofBlocks : U32) : Fallible ε Nat := do
  let target := max targetProofBlocks.val (FAST_PROOF_BLOCKS + 1)
  let (base, variance) ← adjustmentBand miningTimeBlocks target
  let minRate := max (base - variance) 1
  let maxRate := saturatingAdd u32Max base variance
  let span := maxRate - minRate
  plainAdd u32Max minRate (asU32 (sample % (span + 1)))

/-- `ease_room` at the overdue rate. -/
def easeRoom (floats : FloatMath) (room : Int) (blocks epochLength : Nat) : Int :=
  if room ≤ 0 ∨ blocks = 0 ∨ epochLength = 0 then 0
  else min (floats.easedAmount room blocks epochLength) room

/-- Ease the threshold only for blocks strictly past the round-length target. -/
def applyDecay (floats : FloatMath) (current : DifficultyConfig) (elapsedBlocks epochLength : Nat)
    (curve : EnergyCurve) (targetProofBlocks : U32) : DifficultyConfig :=
  let overdue := elapsedBlocks - targetProofBlocks.val
  if curve.maxMilli ≤ curve.minMilli ∨ overdue = 0 ∨ epochLength = 0 then current
  else
    let room := saturatingSubI64 curve.maxMilli current.maxEnergyMilli
    let eased := easeRoom floats room overdue epochLength
    { current with maxEnergyMilli := saturatingAddI64 current.maxEnergyMilli eased }

/-- Maximum hardening per win: a share of the curve span, at least one unit. -/
def maxHardeningDelta (floats : FloatMath) (curve : EnergyCurve) : Int :=
  let span := max (saturatingSubI64 curve.maxMilli curve.minMilli) 0
  max (floats.scaleMilli span DECAY_RATE_MILLI) MIN_ENERGY_DELTA_MILLI

/-- Harden from the live threshold toward the winning energy. -/
def adjustOnProof {ε : Type} (floats : FloatMath) (active : DifficultyConfig) (winningEnergyMilli : Int)
    (miningTimeBlocks : Nat) (curve : EnergyCurve) (sample : Nat) (targetProofBlocks : U32) :
    Fallible ε DifficultyConfig :=
  let gap := saturatingSubI64 active.maxEnergyMilli winningEnergyMilli
  if gap ≤ 0 then pure active
  else do
    let rateMilli ← sampleAdjustmentMilli miningTimeBlocks sample targetProofBlocks
    let geometric := floats.scaleMilli gap rateMilli
    let delta := min (min (max geometric MIN_ENERGY_DELTA_MILLI) (maxHardeningDelta floats curve)) gap
    pure { active with maxEnergyMilli := saturatingSubI64 active.maxEnergyMilli delta }

/-- The active difficulty at `blockNumber`. -/
def currentDifficulty (floats : FloatMath) (blockNumber : Nat) (baseDifficulty : DifficultyConfig)
    (lastProofBlock epochLength : Nat) (curve : Option EnergyCurve) (targetProofBlocks : U32) : DifficultyConfig :=
  if lastProofBlock = 0 ∨ epochLength = 0 then baseDifficulty
  else
    let elapsed := blockNumber - lastProofBlock
    if elapsed = 0 then baseDifficulty
    else
      match curve with
      | some curve => applyDecay floats baseDifficulty elapsed epochLength curve targetProofBlocks
      | none => baseDifficulty

/-- How far a mining time has come from the fast anchor to the target, in per mille. -/
def adjustmentProgress (miningTimeBlocks target : Nat) : Nat :=
  if miningTimeBlocks < FAST_PROOF_BLOCKS then 0
  else if target < miningTimeBlocks then 1000
  else (miningTimeBlocks - FAST_PROOF_BLOCKS) * 1000 / (target - FAST_PROOF_BLOCKS)

theorem adjustmentProgress_le {target : Nat} (above : FAST_PROOF_BLOCKS < target) (miningTimeBlocks : Nat) :
    adjustmentProgress miningTimeBlocks target ≤ 1000 := by
  unfold adjustmentProgress
  split
  · exact Nat.zero_le _
  split
  · exact Nat.le_refl _
  · apply Nat.div_le_of_le_mul
    exact Nat.mul_le_mul_right 1000 (by omega)

/-- All three branches of the band are one line in the progress, rounded down term by term. -/
theorem adjustmentBand_eq {ε : Type} {miningTimeBlocks target : Nat} (above : FAST_PROOF_BLOCKS < target)
    (fits : target < 2 ^ 32) :
    (adjustmentBand miningTimeBlocks target : Fallible ε _) =
      .ok (350 - 300 * adjustmentProgress miningTimeBlocks target / 1000,
        300 - 260 * adjustmentProgress miningTimeBlocks target / 1000) := by
  have progressLE := adjustmentProgress_le above miningTimeBlocks
  unfold adjustmentProgress at progressLE ⊢
  unfold adjustmentBand
  split
  · rfl
  split
  · rfl
  rename_i slow inside
  rw [if_neg slow, if_neg inside] at progressLE
  simp only [FAST_PROOF_BLOCKS] at above slow progressLE ⊢
  have scaledFits : (miningTimeBlocks - 60) * 1000 ≤ u64Max := by
    simp only [u64Max]
    omega
  generalize progressed : (miningTimeBlocks - 60) * 1000 / (target - 60) = progress at progressLE
  have narrow : asU32 progress = progress := asU32_of_lt (by omega)
  have baseFits : (350 - 50) * progress ≤ u32Max := by
    simp only [u32Max]
    omega
  have varianceFits : (300 - 40) * progress ≤ u32Max := by
    simp only [u32Max]
    omega
  simp only [plainSub, plainMul, plainDiv, bind, Except.bind, pure, Except.pure, Nat.not_lt.mp slow, scaledFits,
    progressed, narrow, baseFits, varianceFits, above.le, if_true, if_neg (show target - 60 ≠ 0 by omega),
    if_pos (show (350 - 50) * progress / 1000 ≤ 350 by omega),
    if_pos (show (300 - 40) * progress / 1000 ≤ 300 by omega)]

/-- `target_proof_blocks`, clamped to stay above the fast anchor. -/
def clampedTarget (targetProofBlocks : U32) : Nat := max targetProofBlocks.val (FAST_PROOF_BLOCKS + 1)

theorem clampedTarget_above (targetProofBlocks : U32) : FAST_PROOF_BLOCKS < clampedTarget targetProofBlocks :=
  Nat.lt_of_lt_of_le (Nat.lt_succ_self _) (Nat.le_max_right _ _)

theorem clampedTarget_fits (targetProofBlocks : U32) : clampedTarget targetProofBlocks < 2 ^ 32 :=
  Nat.max_lt.mpr ⟨targetProofBlocks.isLt, by decide⟩

/-- The rate is the band's minimum plus what the digest leaves modulo the band's width. -/
theorem sampleAdjustmentMilli_eq {ε : Type} (miningTimeBlocks sample : Nat) (targetProofBlocks : U32)
    {base variance : Nat}
    (band : (adjustmentBand miningTimeBlocks (clampedTarget targetProofBlocks) : Fallible ε _) = .ok (base, variance)) :
    (sampleAdjustmentMilli miningTimeBlocks sample targetProofBlocks : Fallible ε Nat) =
      .ok (max (base - variance) 1 + sample % (base + variance - max (base - variance) 1 + 1)) := by
  have shape := band
  rw [adjustmentBand_eq (clampedTarget_above _) (clampedTarget_fits _)] at shape
  simp only [Except.ok.injEq, Prod.mk.injEq] at shape
  have baseLE : base ≤ 350 := by omega
  have varianceLE : variance ≤ 300 := by omega
  have wide : 2000 ≤ u32Max := by decide
  have plain : saturatingAdd u32Max base variance = base + variance := saturatingAdd_of_le (by omega)
  have offset : sample % (base + variance - max (base - variance) 1 + 1) < 1000 :=
    Nat.lt_of_lt_of_le (Nat.mod_lt _ (Nat.succ_pos _)) (by omega)
  refine bind_success.mpr ⟨(base, variance), band, ?_⟩
  dsimp only
  rw [plain, asU32_of_lt (by omega), plainAdd, if_pos (by omega)]

/-- No arithmetic of the hardening band overflows, for any mining time, target and digest. -/
theorem sampleAdjustmentMilli_runs {ε : Type} (miningTimeBlocks sample : Nat) (targetProofBlocks : U32) :
    ∃ rate, (sampleAdjustmentMilli miningTimeBlocks sample targetProofBlocks : Fallible ε Nat) = .ok rate :=
  ⟨_, sampleAdjustmentMilli_eq miningTimeBlocks sample targetProofBlocks
    (adjustmentBand_eq (clampedTarget_above _) (clampedTarget_fits _))⟩

/-- Hardening always has a result. -/
theorem adjustOnProof_runs {ε : Type} (floats : FloatMath) (active : DifficultyConfig) (winningEnergyMilli : Int)
    (miningTimeBlocks : Nat) (curve : EnergyCurve) (sample : Nat) (targetProofBlocks : U32) :
    ∃ next, (adjustOnProof floats active winningEnergyMilli miningTimeBlocks curve sample targetProofBlocks :
      Fallible ε DifficultyConfig) = .ok next := by
  simp only [adjustOnProof]
  split
  · exact ⟨active, rfl⟩
  · obtain ⟨rate, ran⟩ := sampleAdjustmentMilli_runs miningTimeBlocks sample targetProofBlocks
    exact ⟨_, bind_success.mpr ⟨rate, ran, rfl⟩⟩

end QuipValidator.Pow
