import QuipValidator.EmissionAccounting
import QuipValidator.RuntimeConstants

/-! The two issuance schedules of the runtime share one annual envelope. Staking
rounds down once for each era, in milliseconds; the emission controller rounds its
cumulative entitlement, in seconds. -/
namespace QuipValidator.Emission
open QuipRuntime

def MILLISECONDS_PER_YEAR : Nat := YEAR_SECONDS * 1000

/-- What `era_payout` is asked about one era. -/
structure Era where
  totalStaked : Nat
  totalIssuance : Nat
  durationMillis : Nat

/-- `FixedStakingPayout::era_payout`: the payout to stakers and the remainder. -/
def eraPayout (era : Era) : Nat × Nat :=
  (saturatingMul u128Max StakingAnnualEmission era.durationMillis / MILLISECONDS_PER_YEAR, 0)

/-- What the eras pay out together. -/
def eraPayouts (eras : List Era) : Nat := (eras.map fun era => (eraPayout era).1).sum

/-- How long the eras last together. -/
def totalMillis (eras : List Era) : Nat := (eras.map Era.durationMillis).sum

/-- The share of the annual envelope for a time in milliseconds. -/
def envelope (millis : Nat) : Nat := ANNUAL_EMISSION_QUIP * UNIT * millis / MILLISECONDS_PER_YEAR

/-- The multiplication does not saturate for any `u64` duration. -/
theorem eraPayout_unsaturated {duration : Nat} (fits : duration ≤ u64Max) :
    StakingAnnualEmission * duration ≤ u128Max := by
  have product : StakingAnnualEmission * duration ≤ StakingAnnualEmission * u64Max := Nat.mul_le_mul_left _ fits
  exact product.trans (by decide)

private theorem eraPayouts_eq {eras : List Era} (words : ∀ era ∈ eras, era.durationMillis ≤ u64Max) :
    eraPayouts eras = ((eras.map Era.durationMillis).map fun duration =>
      StakingAnnualEmission * duration / MILLISECONDS_PER_YEAR).sum := by
  rw [eraPayouts, List.map_map]
  congr 1
  apply List.map_congr_left
  intro era member
  rw [eraPayout, saturatingMul_of_le (eraPayout_unsaturated (words era member))]
  rfl

theorem eraPayouts_le {eras : List Era} (words : ∀ era ∈ eras, era.durationMillis ≤ u64Max) :
    eraPayouts eras ≤ StakingAnnualEmission * totalMillis eras / MILLISECONDS_PER_YEAR := by
  rw [eraPayouts_eq words]
  exact sum_floors_le _ _ _

theorem eraPayouts_shortfall {eras : List Era} (occupied : eras ≠ [])
    (words : ∀ era ∈ eras, era.durationMillis ≤ u64Max) :
    StakingAnnualEmission * totalMillis eras / MILLISECONDS_PER_YEAR < eraPayouts eras + eras.length := by
  rw [eraPayouts_eq words]
  have durations : eras.map Era.durationMillis ≠ [] := by simpa using occupied
  have short := sum_floors_shortfall StakingAnnualEmission (show 0 < MILLISECONDS_PER_YEAR by decide) durations
  rwa [List.length_map] at short

variable {T : Config}

/-- Seconds counted in milliseconds: the controller's entitlement is within its part
of the envelope. -/
private theorem exactEntitlement_le_millis (annual : T.annualEmission = ControllerAnnualEmission) {elapsed millis : Nat}
    (within : elapsed ≤ millis / 1000) :
    exactEntitlement T elapsed ≤ ControllerAnnualEmission * millis / MILLISECONDS_PER_YEAR := by
  have thousand : 0 < 1000 := by omega
  have scaled : elapsed * 1000 ≤ millis := (Nat.mul_le_mul_right _ within).trans (Nat.div_mul_le_self _ _)
  calc exactEntitlement T elapsed = ControllerAnnualEmission * elapsed / YEAR_SECONDS := by
        rw [exactEntitlement, annual]
    _ = ControllerAnnualEmission * elapsed * 1000 / MILLISECONDS_PER_YEAR :=
        (Nat.mul_div_mul_right (ControllerAnnualEmission * elapsed) YEAR_SECONDS thousand).symm
    _ = ControllerAnnualEmission * (elapsed * 1000) / MILLISECONDS_PER_YEAR := by rw [Nat.mul_assoc]
    _ ≤ ControllerAnnualEmission * millis / MILLISECONDS_PER_YEAR :=
        Nat.div_le_div_right (Nat.mul_le_mul_left _ scaled)

/-- Both schedules together are within the envelope. -/
private theorem joint_le_envelope (annual : T.annualEmission = ControllerAnnualEmission) {eras : List Era}
    (words : ∀ era ∈ eras, era.durationMillis ≤ u64Max) {elapsed : Nat} (within : elapsed ≤ totalMillis eras / 1000) :
    eraPayouts eras + exactEntitlement T elapsed ≤ envelope (totalMillis eras) := by
  have shares : StakingAnnualEmission + ControllerAnnualEmission = ANNUAL_EMISSION_QUIP * UNIT := by decide
  calc eraPayouts eras + exactEntitlement T elapsed
      ≤ StakingAnnualEmission * totalMillis eras / MILLISECONDS_PER_YEAR +
          ControllerAnnualEmission * totalMillis eras / MILLISECONDS_PER_YEAR :=
        Nat.add_le_add (eraPayouts_le words) (exactEntitlement_le_millis annual within)
    _ ≤ (StakingAnnualEmission * totalMillis eras + ControllerAnnualEmission * totalMillis eras) /
          MILLISECONDS_PER_YEAR := Nat.div_add_div_le_add_div
    _ = envelope (totalMillis eras) := by rw [← Nat.add_mul, shares, envelope]

/-- For every `u64` number of elapsed seconds the entitlement is defined. -/
private theorem entitlement_defined (annual : T.annualEmission = ControllerAnnualEmission) {elapsed : Nat}
    (fits : elapsed ≤ u64Max) : entitlement T elapsed = some (exactEntitlement T elapsed) := by
  have years : ControllerAnnualEmission * (elapsed / YEAR_SECONDS) ≤ ControllerAnnualEmission * (u64Max / YEAR_SECONDS) :=
    Nat.mul_le_mul_left _ (Nat.div_le_div_right fits)
  have fraction : ControllerAnnualEmission * (elapsed % YEAR_SECONDS) ≤ ControllerAnnualEmission * YEAR_SECONDS :=
    Nat.mul_le_mul_left _ (Nat.mod_lt _ (by decide)).le
  have rest : ControllerAnnualEmission * (elapsed % YEAR_SECONDS) / YEAR_SECONDS ≤ ControllerAnnualEmission :=
    Nat.div_le_of_le_mul (by rwa [Nat.mul_comm] at fraction ⊢)
  have bounds : ControllerAnnualEmission * (u64Max / YEAR_SECONDS) + ControllerAnnualEmission * YEAR_SECONDS +
      ControllerAnnualEmission ≤ u128Max := by decide
  have value : entitlement T elapsed = some (ControllerAnnualEmission * (elapsed / YEAR_SECONDS) +
      ControllerAnnualEmission * (elapsed % YEAR_SECONDS) / YEAR_SECONDS) := by
    rw [entitlement, annual, Unsigned.checkedMul, if_pos (by omega), Unsigned.checkedMul, if_pos (by omega)]
    exact if_pos (by omega)
  rw [value, (entitlement_exact value).1]

/-- The joint envelope of 40 million units a year, however time is split into eras.
No era's payout saturates; the eras together stay below their part of the envelope by
less than one base unit for each era; and with the controller's entitlement, or with
what a run of the controller has issued, they stay within the whole envelope. -/
theorem joint_issuance_envelope (annual : T.annualEmission = ControllerAnnualEmission) {eras : List Era}
    (occupied : eras ≠ []) (words : ∀ era ∈ eras, era.durationMillis ≤ u64Max) :
    (∀ duration ≤ u64Max, StakingAnnualEmission * duration ≤ u128Max) ∧
      eraPayouts eras ≤ StakingAnnualEmission * totalMillis eras / MILLISECONDS_PER_YEAR ∧
      StakingAnnualEmission * totalMillis eras / MILLISECONDS_PER_YEAR - eraPayouts eras < eras.length ∧
      (∀ elapsed ≤ u64Max, elapsed ≤ totalMillis eras / 1000 →
        ∃ total, entitlement T elapsed = some total ∧ eraPayouts eras + total ≤ envelope (totalMillis eras)) ∧
      ∀ (config : GenesisConfig T) (currency : Currency T) (s₀ : State T), config.build currency = .ok s₀ →
        ∀ inputs : List (Step T), (clocks inputs).Pairwise (· ≤ ·) →
          (∀ start, ((steps T).run s₀ inputs).startAt = some start →
            (clocks inputs).getLastD 0 - start ≤ totalMillis eras / 1000) →
          eraPayouts eras + ((steps T).run s₀ inputs).scheduledIssued ≤ envelope (totalMillis eras) := by
  refine ⟨fun _ fits => eraPayout_unsaturated fits, eraPayouts_le words, ?_, ?_, ?_⟩
  · have most := eraPayouts_le words
    have short := eraPayouts_shortfall occupied words
    omega
  · intro elapsed fits within
    exact ⟨_, entitlement_defined annual fits, joint_le_envelope annual words within⟩
  · intro config currency s₀ built inputs ordered within
    have held := run_accounted (build_accounted built) inputs ordered
    cases anchor : ((steps T).run s₀ inputs).startAt with
    | none =>
      have paid := joint_le_envelope annual words (Nat.zero_le _)
      rw [held.unissued anchor]
      omega
    | some start =>
      have issued := held.scheduledIssued_le anchor
      have joint := joint_le_envelope annual words (within start anchor)
      omega

/-- The small configuration with the runtime's annual emission. -/
def runtimeEmission : Config := { tinyConfig with annualEmission := ControllerAnnualEmission }

/-- A day and a millisecond. -/
def twoEras : List Era := [⟨5, 10, 86400000⟩, ⟨6, 11, 1⟩]

theorem joint_issuance_envelope_twoEras :
    eraPayouts twoEras = 27397260591070521 ∧ envelope (totalMillis twoEras) = 109589042364282090 ∧
      ∃ total, entitlement runtimeEmission 86400 = some total ∧
        eraPayouts twoEras + total ≤ envelope (totalMillis twoEras) := by
  obtain ⟨_, _, _, joint, _⟩ := joint_issuance_envelope (show runtimeEmission.annualEmission = _ from rfl)
    (show twoEras ≠ [] by decide) (by decide)
  exact ⟨by decide, by decide, joint 86400 (by decide) (by decide)⟩

end QuipValidator.Emission
