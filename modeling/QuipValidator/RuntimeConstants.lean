import QuipValidator.Fallible

/-! The amounts the runtime is built with. -/
namespace QuipValidator.QuipRuntime

def UNIT : Nat := 1000000000000
def MILLI_UNIT : Nat := 1000000000

def EXISTENTIAL_DEPOSIT : Nat := MILLI_UNIT

/-- `MinReward` of the quantum compute mempool. -/
def QuantumMinReward : Nat := UNIT

/-- The annual envelope of both issuance schedules, in whole units. -/
def ANNUAL_EMISSION_QUIP : Nat := 40000000
def CONTROLLER_SHARE_PERCENT : Nat := 75
def STAKING_SHARE_PERCENT : Nat := 25

def CONTROLLER_ANNUAL_EMISSION_QUIP : Nat := saturatingMul u128Max ANNUAL_EMISSION_QUIP CONTROLLER_SHARE_PERCENT / 100
def STAKING_ANNUAL_EMISSION_QUIP : Nat := saturatingMul u128Max ANNUAL_EMISSION_QUIP STAKING_SHARE_PERCENT / 100

/-- `AnnualEmission` of the emission controller. -/
def ControllerAnnualEmission : Nat := saturatingMul u128Max CONTROLLER_ANNUAL_EMISSION_QUIP UNIT
def StakingAnnualEmission : Nat := saturatingMul u128Max STAKING_ANNUAL_EMISSION_QUIP UNIT

end QuipValidator.QuipRuntime
