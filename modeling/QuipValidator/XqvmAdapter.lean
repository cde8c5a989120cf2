import QuipValidator.XqvmPallet
import QuipValidator.MempoolRuns

/-! `xqvm.rs` of the mempool and the weight of a submission. A spec's transform
program runs once for each submitted vector, all runs share one step budget, and
what was consumed is reported on success and on failure. The `xqvm` crate and the
store the program bytes come from are fields of the adapter. -/
namespace QuipValidator.Mempool
open Fallible

variable {T : Config}

/-- A register value; the adapter reads one vector of integers. -/
inductive RegVal where
  | vecInt (values : List Int)
  | other
  deriving DecidableEq, Repr

/-- What is set on a machine before it runs. -/
structure VmSettings where
  memoryLimit : Nat
  stepLimit : Nat
  outputSlots : Nat
  calldata : List RegVal

/-- What a run returns, and what it leaves on the machine whatever it returns. -/
structure VmRun where
  result : Except Xqvm.VmError Unit
  steps : Nat
  outputs : List RegVal

/-- `XqvmAdapter`, with the crate, the program store and the limits it is configured with. -/
structure XqvmAdapter (T : Config) where
  /-- `xqvm::Program`. -/
  Program : Type
  /-- `T::ProgramSource::program`. -/
  program : T.Hash → Option (List UInt8)
  /-- `Program::decode`; `none` is any of its errors. -/
  decode : List UInt8 → Option Program
  /-- `xqvm::verifier::verify` accepts the program. -/
  verify : Program → Bool
  /-- `Vm::run` on a machine with these settings. -/
  run : VmSettings → Program → VmRun
  maxVmMemory : Nat
  maxTransformStepsPerSubmission : Nat
  maxTransformStepsPerSubmission_u64 : maxTransformStepsPerSubmission ≤ u64Max

/-- `steps_used`. `runs` is no variable of the source: it lists every run that
was started, oldest first. -/
structure StepMeter where
  stepsUsed : Nat
  runs : List VmRun

/-- `*steps_used = steps_used.saturating_add(vm.steps())`. -/
def StepMeter.spend (meter : StepMeter) (run : VmRun) : StepMeter where
  stepsUsed := saturatingAdd u64Max meter.stepsUsed run.steps
  runs := meter.runs ++ [run]

/-- The `map_err` on `vm.run`. -/
def transformError : Xqvm.VmError → Error
  | .stepLimitExceeded => .vmStepLimitExceeded
  | .memoryLimitExceeded => .vmMemoryLimitExceeded
  | _ => .vmExecutionFailed

/-- The checks on a run's result and outputs, and the vector they accept. -/
def acceptRun (expectedLen : Nat) (run : VmRun) : Except Error (List Int) :=
  match run.result with
  | .error reason => .error (transformError reason)
  | .ok () =>
    match run.outputs with
    | [.vecInt spins] =>
      if spins.length ≠ expectedLen then .error .vmOutputLength
      else if ¬ ∀ spin ∈ spins, spin = -1 ∨ spin = 1 then .error .vmOutputSpin
      else .ok (spins.map fun spin => if spin = -1 then -1 else 1)
    | _ => .error .vmOutputType

namespace XqvmAdapter

/-- The machine for the next vector, with what is left of the budget. -/
def settings (A : XqvmAdapter T) (remaining : Nat) (solution : List Int) : VmSettings where
  memoryLimit := A.maxVmMemory
  stepLimit := remaining
  outputSlots := 1
  calldata := [.vecInt solution]

/-- `for solution in solutions`. -/
def transformEach (A : XqvmAdapter T) (program : A.Program) :
    List (List Int) → List (List Int) → StepMeter → Except Error (List (List Int)) × StepMeter
  | [], transformed, meter => (.ok transformed, meter)
  | solution :: rest, transformed, meter =>
    let remaining := A.maxTransformStepsPerSubmission - meter.stepsUsed
    if remaining = 0 then (.error .vmStepLimitExceeded, meter)
    else
      let run := A.run (A.settings remaining solution) program
      let meter := meter.spend run
      match acceptRun solution.length run with
      | .error reason => (.error reason, meter)
      | .ok spins => A.transformEach program rest (transformed ++ [spins]) meter

def transform (A : XqvmAdapter T) (hash : Option T.Hash) (solutions : List (List Int)) :
    Except Error (List (List Int)) × StepMeter :=
  match hash with
  | none => (.ok solutions, ⟨0, []⟩)
  | some hash =>
    match A.program hash with
    | none => (.error .vmProgramNotFound, ⟨0, []⟩)
    | some bytes =>
      match A.decode bytes with
      | none => (.error .vmBadBytecode, ⟨0, []⟩)
      | some program => A.transformEach program solutions [] ⟨0, []⟩

/-- One round of `validate_programs`. -/
def validateProgram (A : XqvmAdapter T) (hash : T.Hash) : Except Error Unit :=
  match A.program hash with
  | none => .error .vmProgramNotFound
  | some bytes =>
    match A.decode bytes with
    | none => .error .vmBadBytecode
    | some program => if A.verify program then .ok () else .error .vmVerificationFailed

/-- The adapter as the pallet's VM. -/
def quantumVm (A : XqvmAdapter T) : QuantumVm T where
  validatePrograms validationProgram transformProgram := do
    validationProgram.forM A.validateProgram
    transformProgram.forM A.validateProgram
  transformSolutions _ _ transformProgram _ solutions :=
    let (result, meter) := A.transform transformProgram solutions
    { result, stepsUsed := meter.stepsUsed }
  validateResult _ _ _ _ := .ok ()

end XqvmAdapter

/-- `Weight`: two `u64` counters. -/
structure Weight where
  refTime : Nat
  proofSize : Nat
  deriving DecidableEq, Repr

namespace Weight

def zero : Weight := ⟨0, 0⟩

def saturatingAdd (a b : Weight) : Weight where
  refTime := QuipValidator.saturatingAdd u64Max a.refTime b.refTime
  proofSize := QuipValidator.saturatingAdd u64Max a.proofSize b.proofSize

def saturatingMul (weight : Weight) (count : Nat) : Weight where
  refTime := QuipValidator.saturatingMul u64Max weight.refTime count
  proofSize := QuipValidator.saturatingMul u64Max weight.proofSize count

/-- `all_lte`: no component is larger. -/
instance : LE Weight := ⟨fun a b => a.refTime ≤ b.refTime ∧ a.proofSize ≤ b.proofSize⟩

end Weight

/-- The weights a submission is charged by. -/
structure SubmissionWeights where
  vmWeightPerStep : Weight
  vmProgramLookupWeight : Weight
  submitSolution : Nat → Nat → Nat → Weight
  submitSolutionWithPayee : Nat → Nat → Nat → Weight

def transformWeight (W : SubmissionWeights) (steps : Nat) (hasProgram : Bool) : Weight :=
  (W.vmWeightPerStep.saturatingMul steps).saturatingAdd (if hasProgram then W.vmProgramLookupWeight else .zero)

inductive Pays where
  | yes
  | no
  deriving DecidableEq, Repr

/-- What a dispatch reports after it ran; without an actual weight the charged one stands. -/
structure PostDispatchInfo where
  actualWeight : Option Weight
  paysFee : Pays
  deriving DecidableEq, Repr

def doSubmitSolution (W : SubmissionWeights) (s : State T) (env : Env T) (solver : T.AccountId) (orderId : Nat)
    (solutions : Solutions T) (payee : Option WinnerPayee) : PostDispatchInfo × Fallible DispatchError (State T) :=
  let base :=
    if payee.isSome then W.submitSolutionWithPayee T.maxNodes T.maxEdges T.maxSolutions
    else W.submitSolution T.maxNodes T.maxEdges T.maxSolutions
  let (meter, result) := submitSolutionInner s env solver orderId solutions payee
  ({ actualWeight := some (base.saturatingAdd (transformWeight W meter.vmSteps meter.hasProgram))
     paysFee := .yes }, result)

/-- A call that signs for a submission; an origin that is refused reports the default. -/
def submit (W : SubmissionWeights) (s : State T) (env : Env T) (origin : Origin T) (orderId : Nat)
    (solutions : Solutions T) (payee : Option WinnerPayee) : PostDispatchInfo × Fallible DispatchError (State T) :=
  match ensureSigned origin with
  | .error fault => ({ actualWeight := none, paysFee := .yes }, .error fault)
  | .ok solver => doSubmitSolution W s env solver orderId solutions payee

def submitSolution (W : SubmissionWeights) (s : State T) (env : Env T) (origin : Origin T) (orderId : Nat)
    (solutions : Solutions T) : PostDispatchInfo × Fallible DispatchError (State T) :=
  submit W s env origin orderId solutions none

def submitSolutionWithPayee (W : SubmissionWeights) (s : State T) (env : Env T) (origin : Origin T) (orderId : Nat)
    (solutions : Solutions T) (payee : WinnerPayee) : PostDispatchInfo × Fallible DispatchError (State T) :=
  submit W s env origin orderId solutions (some payee)

/-- The weight `submit_solution` is charged before it runs. -/
def submitSolutionCharge (W : SubmissionWeights) (A : XqvmAdapter T) : Weight :=
  (W.submitSolution T.maxNodes T.maxEdges T.maxSolutions).saturatingAdd
    (transformWeight W A.maxTransformStepsPerSubmission true)

/-- The weight `submit_solution_with_payee` is charged before it runs. -/
def submitSolutionWithPayeeCharge (W : SubmissionWeights) (A : XqvmAdapter T) : Weight :=
  (W.submitSolutionWithPayee T.maxNodes T.maxEdges T.maxSolutions).saturatingAdd
    (transformWeight W A.maxTransformStepsPerSubmission true)

/-- The calls that report a weight are the calls of the dispatch. -/
theorem submit_executes (W : SubmissionWeights) (s : State T) (env : Env T) (origin : Origin T) (orderId : Nat)
    (solutions : Solutions T) (payee : WinnerPayee) :
    (submitSolution W s env origin orderId solutions).2 = execute s env origin (.submitSolution orderId solutions) ∧
      (submitSolutionWithPayee W s env origin orderId solutions payee).2 =
        execute s env origin (.submitSolutionWithPayee orderId solutions payee) := by
  cases origin <;> exact ⟨rfl, rfl⟩

end QuipValidator.Mempool
