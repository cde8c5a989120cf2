import QuipValidator.XqvmAdapter

/-! The step budget of a submission. What the adapter reports is the sum over the
runs it started and stays within the budget, whichever of its exits is taken, so
the weight after the dispatch is never more than the weight charged before it. -/
namespace QuipValidator.Mempool
open Fallible

variable {T : Config}

/-- The meter reads the steps of the runs started, within the budget. -/
structure StepMeter.Exact (meter : StepMeter) (budget : Nat) : Prop where
  within : meter.stepsUsed ≤ budget
  sum : meter.stepsUsed = (meter.runs.map VmRun.steps).sum

private theorem StepMeter.Exact.start (budget : Nat) : StepMeter.Exact ⟨0, []⟩ budget := ⟨Nat.zero_le _, rfl⟩

/-- A run that keeps to what is left of the budget. -/
private theorem StepMeter.Exact.spend {meter : StepMeter} {budget : Nat} (exact : meter.Exact budget)
    (budgetFits : budget ≤ u64Max) {run : VmRun} (limited : run.steps ≤ budget - meter.stepsUsed) :
    (meter.spend run).Exact budget := by
  have within := exact.within
  have plain : (meter.spend run).stepsUsed = meter.stepsUsed + run.steps := saturatingAdd_of_le (by omega)
  refine ⟨by omega, ?_⟩
  rw [plain, exact.sum]
  simp [StepMeter.spend]

private theorem acceptRun_success {expectedLen : Nat} {run : VmRun} {spins : List Int}
    (accepted : acceptRun expectedLen run = .ok spins) :
    spins.length = expectedLen ∧ ∀ spin ∈ spins, spin = -1 ∨ spin = 1 := by
  unfold acceptRun at accepted
  split at accepted
  · cases accepted
  split at accepted
  · rename_i output _
    split at accepted
    · cases accepted
    rename_i length
    split at accepted
    · cases accepted
    cases accepted
    refine ⟨by rw [List.length_map]; exact not_not.mp length, ?_⟩
    intro spin member
    obtain ⟨raw, _, rfl⟩ := List.mem_map.mp member
    split
    · exact .inl rfl
    · exact .inr rfl
  · cases accepted

namespace XqvmAdapter
variable (A : XqvmAdapter T)

/-- Every run reports at most its step limit. -/
def Metered : Prop := ∀ settings program, (A.run settings program).steps ≤ settings.stepLimit

variable {A} {program : A.Program} {solutions transformed : List (List Int)} {meter : StepMeter}

/-- The loop over the vectors, with the runs started so far. -/
private theorem transformEach_exact (metered : A.Metered) (solutions transformed : List (List Int))
    (exact : meter.Exact A.maxTransformStepsPerSubmission) :
    (A.transformEach program solutions transformed meter).2.Exact A.maxTransformStepsPerSubmission := by
  induction solutions generalizing transformed meter with
  | nil => exact exact
  | cons solution rest ih =>
    rw [transformEach]
    dsimp only
    split
    · exact exact
    have spent := exact.spend A.maxTransformStepsPerSubmission_u64
      (metered (A.settings (A.maxTransformStepsPerSubmission - meter.stepsUsed) solution) program)
    split
    · exact spent
    · exact ih _ spent

/-- What a loop that runs through hands out: one vector of spins for each one
taken in, of the same length, by a run of its own. -/
private theorem transformEach_success (solutions transformed : List (List Int)) {outputs : List (List Int)}
    (ran : (A.transformEach program solutions transformed meter).1 = .ok outputs) :
    ∃ produced, outputs = transformed ++ produced ∧
      List.Forall₂ (fun output input => output.length = input.length) produced solutions ∧
      (∀ spins ∈ produced, ∀ spin ∈ spins, spin = -1 ∨ spin = 1) ∧
      (A.transformEach program solutions transformed meter).2.runs.length = meter.runs.length + solutions.length := by
  induction solutions generalizing transformed meter with
  | nil =>
    cases ran
    exact ⟨[], by simp, .nil, by simp, rfl⟩
  | cons solution rest ih =>
    rw [transformEach] at ran ⊢
    dsimp only at ran ⊢
    split at ran
    · cases ran
    rename_i room
    rw [if_neg room]
    split at ran
    · cases ran
    rename_i spins accepted
    obtain ⟨length, valued⟩ := acceptRun_success accepted
    obtain ⟨produced, same, lengths, values, count⟩ := ih (transformed ++ [spins]) ran
    refine ⟨spins :: produced, by rw [same]; simp, .cons length lengths, ?_, ?_⟩
    · intro output member
      rcases List.mem_cons.mp member with rfl | later
      · exact valued
      · exact values output later
    · rw [count, StepMeter.spend, List.length_append, List.length_singleton, List.length_cons]
      omega

/-- Whatever exit `transform` takes, the meter is exact. -/
theorem transform_exact (metered : A.Metered) (hash : Option T.Hash) (solutions : List (List Int)) :
    (A.transform hash solutions).2.Exact A.maxTransformStepsPerSubmission := by
  have idle := StepMeter.Exact.start A.maxTransformStepsPerSubmission
  unfold transform
  split
  · exact idle
  split
  · exact idle
  split
  · exact idle
  · exact transformEach_exact metered solutions [] idle

theorem transform_success {hash : T.Hash} {outputs : List (List Int)}
    (ran : (A.transform (some hash) solutions).1 = .ok outputs) :
    List.Forall₂ (fun output input => output.length = input.length) outputs solutions ∧
      (∀ spins ∈ outputs, ∀ spin ∈ spins, spin = -1 ∨ spin = 1) ∧
      (A.transform (some hash) solutions).2.runs.length = solutions.length := by
  unfold transform at ran ⊢
  dsimp only at ran ⊢
  split at ran
  · cases ran
  split at ran
  · cases ran
  obtain ⟨produced, same, lengths, values, count⟩ := transformEach_success solutions [] ran
  rw [List.nil_append] at same
  subst same
  exact ⟨lengths, values, by rw [count]; exact Nat.zero_add _⟩

end XqvmAdapter

namespace Weight

protected theorem le_refl (weight : Weight) : weight ≤ weight := ⟨Nat.le_refl _, Nat.le_refl _⟩

theorem saturatingAdd_mono {a b c d : Weight} (left : a ≤ b) (right : c ≤ d) :
    a.saturatingAdd c ≤ b.saturatingAdd d :=
  ⟨min_le_min (Nat.add_le_add left.1 right.1) (Nat.le_refl _),
    min_le_min (Nat.add_le_add left.2 right.2) (Nat.le_refl _)⟩

theorem saturatingMul_mono (weight : Weight) {few many : Nat} (le : few ≤ many) :
    weight.saturatingMul few ≤ weight.saturatingMul many :=
  ⟨min_le_min (Nat.mul_le_mul_left _ le) (Nat.le_refl _), min_le_min (Nat.mul_le_mul_left _ le) (Nat.le_refl _)⟩

end Weight

/-- The program lookup is charged whether it is needed or not. -/
private theorem transformWeight_mono (W : SubmissionWeights) {few many : Nat} (le : few ≤ many) (hasProgram : Bool) :
    transformWeight W few hasProgram ≤ transformWeight W many true := by
  refine Weight.saturatingAdd_mono (Weight.saturatingMul_mono _ le) ?_
  cases hasProgram with
  | true => exact Weight.le_refl _
  | false => exact ⟨Nat.zero_le _, Nat.zero_le _⟩

section Charge
variable {A : XqvmAdapter T} {s : State T} {env : Env T}

private theorem submitSolutionInner_steps (metered : A.Metered) (adapted : env.vm = A.quantumVm) (solver : T.AccountId)
    (orderId : Nat) (solutions : Solutions T) (payee : Option WinnerPayee) :
    (submitSolutionInner s env solver orderId solutions payee).1.vmSteps ≤ A.maxTransformStepsPerSubmission := by
  unfold submitSolutionInner
  split
  · exact Nat.zero_le _
  · rw [adapted]
    exact (XqvmAdapter.transform_exact metered _ _).within

private theorem submit_weight (W : SubmissionWeights) (metered : A.Metered) (adapted : env.vm = A.quantumVm)
    (origin : Origin T) (orderId : Nat) (solutions : Solutions T) (payee : Option WinnerPayee) {weight : Weight}
    (actual : (submit W s env origin orderId solutions payee).1.actualWeight = some weight) :
    weight ≤ Weight.saturatingAdd
      (if payee.isSome then W.submitSolutionWithPayee T.maxNodes T.maxEdges T.maxSolutions
        else W.submitSolution T.maxNodes T.maxEdges T.maxSolutions)
      (transformWeight W A.maxTransformStepsPerSubmission true) := by
  unfold submit at actual
  split at actual
  · cases actual
  · rename_i solver _
    cases actual
    refine Weight.saturatingAdd_mono (Weight.le_refl _) (transformWeight_mono W ?_ _)
    exact submitSolutionInner_steps metered adapted solver orderId solutions payee

end Charge

/-- The VM step budget: the meter is exact on success and on every failure, a
success hands out one vector of spins for each submitted one, and neither call
of a submission reports a weight above its charge. -/
theorem vm_steps_within_budget (A : XqvmAdapter T) (W : SubmissionWeights)
    (metered : ∀ settings program, (A.run settings program).steps ≤ settings.stepLimit) :
    (∀ hash solutions, (A.transform hash solutions).2.stepsUsed ≤ A.maxTransformStepsPerSubmission ∧
      (A.transform hash solutions).2.stepsUsed = ((A.transform hash solutions).2.runs.map VmRun.steps).sum) ∧
    (∀ hash solutions outputs, (A.transform (some hash) solutions).1 = .ok outputs →
      outputs.length = solutions.length ∧
      List.Forall₂ (fun output input => output.length = input.length) outputs solutions ∧
      (∀ spins ∈ outputs, ∀ spin ∈ spins, spin = -1 ∨ spin = 1) ∧
      (A.transform (some hash) solutions).2.runs.length = solutions.length) ∧
    (∀ solutions, A.transform none solutions = (.ok solutions, ⟨0, []⟩)) ∧
    ∀ (s : State T) (env : Env T) (origin : Origin T) (orderId : Nat) (solutions : Solutions T),
      env.vm = A.quantumVm →
      (∀ weight, (submitSolution W s env origin orderId solutions).1.actualWeight = some weight →
        weight ≤ submitSolutionCharge W A) ∧
      ∀ payee weight, (submitSolutionWithPayee W s env origin orderId solutions payee).1.actualWeight = some weight →
        weight ≤ submitSolutionWithPayeeCharge W A := by
  refine ⟨?_, ?_, fun _ => rfl, ?_⟩
  · intro hash solutions
    obtain ⟨within, sum⟩ := XqvmAdapter.transform_exact metered hash solutions
    exact ⟨within, sum⟩
  · intro hash solutions outputs ran
    obtain ⟨lengths, values, count⟩ := XqvmAdapter.transform_success ran
    exact ⟨lengths.length_eq, lengths, values, count⟩
  · intro s env origin orderId solutions adapted
    constructor
    · intro weight actual
      exact submit_weight W metered adapted origin orderId solutions none actual
    · intro payee weight actual
      exact submit_weight W metered adapted origin orderId solutions (some payee) actual

/-- An adapter over one program that flips every spin in one step for each. -/
def tinyAdapter : XqvmAdapter tinyConfig where
  Program := Unit
  program _ := some []
  decode _ := some ()
  verify _ := true
  run settings _ :=
    match settings.calldata with
    | [.vecInt spins] =>
      if settings.stepLimit < spins.length then ⟨.error .stepLimitExceeded, settings.stepLimit, []⟩
      else ⟨.ok (), spins.length, [.vecInt (spins.map fun spin => -spin)]⟩
    | _ => ⟨.error .registerType, 0, []⟩
  maxVmMemory := 1000
  maxTransformStepsPerSubmission := 5
  maxTransformStepsPerSubmission_u64 := by decide

private theorem tinyAdapter_metered (settings : VmSettings) (program : Unit) :
    (tinyAdapter.run settings program).steps ≤ settings.stepLimit := by
  simp only [tinyAdapter]
  split
  · split
    · exact Nat.le_refl _
    · rename_i spins _ enough
      exact Nat.not_lt.mp enough
  · exact Nat.zero_le _

def tinyWeights : SubmissionWeights where
  vmWeightPerStep := ⟨10, 0⟩
  vmProgramLookupWeight := ⟨100, 7⟩
  submitSolution _ _ _ := ⟨1000, 50⟩
  submitSolutionWithPayee _ _ _ := ⟨1200, 60⟩

/-- Two vectors spend four of the five steps; a third one runs out in the middle. -/
theorem vm_steps_within_budget_tinyAdapter :
    (tinyAdapter.transform (some (0 : Nat)) [[1, -1], [1, 1]]).1 = .ok [[-1, 1], [-1, -1]] ∧
      (tinyAdapter.transform (some (0 : Nat)) [[1, -1], [1, 1], [-1, 1]]).1 = .error .vmStepLimitExceeded ∧
      (tinyAdapter.transform (some (0 : Nat)) [[1, -1], [1, 1], [-1, 1]]).2.stepsUsed = 5 ∧
      (tinyAdapter.transform (some (0 : Nat)) [[1, -1], [1, 1], [-1, 1]]).2.stepsUsed ≤
        tinyAdapter.maxTransformStepsPerSubmission :=
  ⟨rfl, rfl, rfl, ((vm_steps_within_budget tinyAdapter tinyWeights tinyAdapter_metered).1 _ _).1⟩

end QuipValidator.Mempool
