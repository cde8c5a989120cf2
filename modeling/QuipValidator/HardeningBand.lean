import QuipValidator.PowDifficulty
import QuipValidator.Scale

/-! The band of hardening rates. Base and variance fall with the progress of the
mining time, each rounded down on its own; the two roundings differ by less than
the slack at the slow end, so the band's minimum never dips below its end value,
and at both seams the line meets the constant branches. -/
namespace QuipValidator.Pow
open Fallible Scale

/-- `u64::from_be_bytes` of the first eight bytes of the digest. -/
def digestSample (digest : FixedBytes 32) : Nat :=
  (digest.val.take 8).foldl (fun sum byte => sum * 256 + byte.toNat) 0

/-- The digest that starts with a number below `2 ^ 16`. -/
private def digestOf (sample : Nat) : FixedBytes 32 :=
  ⟨[0, 0, 0, 0, 0, 0, UInt8.ofNat (sample / 256), UInt8.ofNat sample] ++ List.replicate 24 0, by simp⟩

private theorem digestSample_digestOf {sample : Nat} (small : sample < 2 ^ 16) :
    digestSample (digestOf sample) = sample := by
  simp only [digestSample, digestOf, List.cons_append, List.take_succ_cons, List.take_zero, List.foldl_cons,
    List.foldl_nil, UInt8.toNat_ofNat']
  simp
  omega

private theorem adjustmentProgress_mono {target early late : Nat} (above : FAST_PROOF_BLOCKS < target)
    (le : early ≤ late) : adjustmentProgress early target ≤ adjustmentProgress late target := by
  have lateLE := adjustmentProgress_le above early
  unfold adjustmentProgress at lateLE ⊢
  split
  · exact Nat.zero_le _
  rename_i slow
  rw [if_neg slow] at lateLE
  rw [if_neg (show ¬ late < FAST_PROOF_BLOCKS by omega)]
  split
  · rename_i past
    rw [if_pos (show target < late by omega)]
  rename_i inside
  rw [if_neg inside] at lateLE
  split
  · exact lateLE
  · exact Nat.div_le_div_right (Nat.mul_le_mul_right 1000 (by omega))

/-- What the band is between its two ends. -/
private theorem band_bounds {progress : Nat} (within : progress ≤ 1000) :
    10 ≤ 350 - 300 * progress / 1000 - (300 - 260 * progress / 1000) ∧
      350 - 300 * progress / 1000 + (300 - 260 * progress / 1000) ≤ 650 := by
  have falls : 300 * progress / 1000 ≤ 260 * progress / 1000 + 40 := by omega
  exact ⟨by omega, Nat.add_le_add (Nat.sub_le 350 _) (Nat.sub_le 300 _)⟩

section Band
variable {ε : Type} {targetProofBlocks : U32}

private theorem band_shape {miningTimeBlocks base variance : Nat}
    (band : (adjustmentBand miningTimeBlocks (clampedTarget targetProofBlocks) : Fallible ε _) = .ok (base, variance)) :
    350 - 300 * adjustmentProgress miningTimeBlocks (clampedTarget targetProofBlocks) / 1000 = base ∧
      300 - 260 * adjustmentProgress miningTimeBlocks (clampedTarget targetProofBlocks) / 1000 = variance := by
  rw [adjustmentBand_eq (clampedTarget_above _) (clampedTarget_fits _)] at band
  simpa only [Except.ok.injEq, Prod.mk.injEq] using band

/-- No operation of the sampling faults, and the rate is in the overall band. -/
theorem sampled_rate_within (miningTimeBlocks : Nat) (digest : FixedBytes 32) : ∃ rate,
    (sampleAdjustmentMilli miningTimeBlocks (digestSample digest) targetProofBlocks : Fallible ε Nat) = .ok rate ∧
      10 ≤ rate ∧ rate ≤ 650 := by
  have above := clampedTarget_above targetProofBlocks
  refine ⟨_, sampleAdjustmentMilli_eq _ _ _ (adjustmentBand_eq above (clampedTarget_fits _)), ?_⟩
  obtain ⟨low, high⟩ := band_bounds (adjustmentProgress_le above miningTimeBlocks)
  generalize 350 - 300 * adjustmentProgress miningTimeBlocks (clampedTarget targetProofBlocks) / 1000 = base at *
  generalize 300 - 260 * adjustmentProgress miningTimeBlocks (clampedTarget targetProofBlocks) / 1000 = variance at *
  have offset : digestSample digest % (base + variance - max (base - variance) 1 + 1) <
      base + variance - max (base - variance) 1 + 1 := Nat.mod_lt _ (Nat.succ_pos _)
  constructor
  · omega
  · omega

/-- A later proof has no higher base and no higher maximum. -/
theorem band_falls {early late base variance base' variance' : Nat} (le : early ≤ late)
    (first : (adjustmentBand early (clampedTarget targetProofBlocks) : Fallible ε _) = .ok (base, variance))
    (second : (adjustmentBand late (clampedTarget targetProofBlocks) : Fallible ε _) = .ok (base', variance')) :
    base' ≤ base ∧ saturatingAdd u32Max base' variance' ≤ saturatingAdd u32Max base variance := by
  obtain ⟨rfl, rfl⟩ := band_shape first
  obtain ⟨rfl, rfl⟩ := band_shape second
  have further := adjustmentProgress_mono (clampedTarget_above targetProofBlocks) le
  have falls : ∀ slope, slope * adjustmentProgress early (clampedTarget targetProofBlocks) / 1000 ≤
      slope * adjustmentProgress late (clampedTarget targetProofBlocks) / 1000 :=
    fun slope => Nat.div_le_div_right (Nat.mul_le_mul_left slope further)
  have baseFalls := falls 300
  have varianceFalls := falls 260
  exact ⟨by omega, min_le_min (by omega) (Nat.le_refl _)⟩

/-- Each rate of the band is the one of the digest that starts with its distance from the minimum. -/
theorem band_attained {miningTimeBlocks base variance rate : Nat}
    (band : (adjustmentBand miningTimeBlocks (clampedTarget targetProofBlocks) : Fallible ε _) = .ok (base, variance))
    (low : max (base - variance) 1 ≤ rate) (high : rate ≤ saturatingAdd u32Max base variance) :
    ∃ digest : FixedBytes 32,
      (sampleAdjustmentMilli miningTimeBlocks (digestSample digest) targetProofBlocks : Fallible ε Nat) = .ok rate := by
  obtain ⟨baseIs, varianceIs⟩ := band_shape band
  have capped : saturatingAdd u32Max base variance ≤ base + variance := Nat.min_le_left _ _
  refine ⟨digestOf (rate - max (base - variance) 1), ?_⟩
  rw [sampleAdjustmentMilli_eq _ _ _ band, digestSample_digestOf (by omega), Nat.mod_eq_of_lt (by omega)]
  congr 1
  omega

end Band

/-- The hardening rate band, for every target: the rate of any mining time and
digest lies in `10..=650`; base and maximum rate do not rise with the mining
time; and every rate from the band's minimum to its maximum has its digest. -/
theorem hardening_rate_band {ε : Type} (targetProofBlocks : U32) :
    (∀ (miningTimeBlocks : Nat) (digest : FixedBytes 32), ∃ rate,
      (sampleAdjustmentMilli miningTimeBlocks (digestSample digest) targetProofBlocks : Fallible ε Nat) = .ok rate ∧
        10 ≤ rate ∧ rate ≤ 650) ∧
    (∀ early late base variance base' variance', early ≤ late →
      (adjustmentBand early (max targetProofBlocks.val (FAST_PROOF_BLOCKS + 1)) : Fallible ε _) =
        .ok (base, variance) →
      (adjustmentBand late (max targetProofBlocks.val (FAST_PROOF_BLOCKS + 1)) : Fallible ε _) =
        .ok (base', variance') →
      base' ≤ base ∧ saturatingAdd u32Max base' variance' ≤ saturatingAdd u32Max base variance) ∧
    ∀ miningTimeBlocks base variance rate,
      (adjustmentBand miningTimeBlocks (max targetProofBlocks.val (FAST_PROOF_BLOCKS + 1)) : Fallible ε _) =
        .ok (base, variance) →
      max (base - variance) 1 ≤ rate → rate ≤ saturatingAdd u32Max base variance →
      ∃ digest : FixedBytes 32,
        (sampleAdjustmentMilli miningTimeBlocks (digestSample digest) targetProofBlocks : Fallible ε Nat) =
          .ok rate := by
  refine ⟨sampled_rate_within, ?_, ?_⟩
  · intro early late base variance base' variance' le first second
    exact band_falls le first second
  · intro miningTimeBlocks base variance rate band low high
    exact band_attained band low high

/-- Halfway to the target the band is `30..=370`, and its lowest rate is returned for some digest. -/
theorem hardening_rate_band_halfway :
    (adjustmentBand 110 160 : Fallible Unit _) = .ok (200, 170) ∧
      ∃ digest : FixedBytes 32, (sampleAdjustmentMilli 110 (digestSample digest) 160 : Fallible Unit Nat) = .ok 30 := by
  have band : (adjustmentBand 110 160 : Fallible Unit _) = .ok (200, 170) := rfl
  exact ⟨band, (hardening_rate_band 160).2.2 110 200 170 30 band (by decide) (by decide)⟩

end QuipValidator.Pow
