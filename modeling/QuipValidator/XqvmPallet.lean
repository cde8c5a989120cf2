import QuipValidator.Fallible
import QuipValidator.StorageMap

/-! `pallet-xqvm`: programs stored under the hash of their bytes against a deposit on
hold. The `xqvm` crate (container decoder, instruction stream, verifier and machine) and
the runtime's hash are fields of the configuration. -/
namespace QuipValidator.Xqvm
open Fallible

/-- The instructions that shape a program's control flow; `plain` is any other. -/
inductive Instruction where
  | target
  | jump1
  | jump2
  | jumpI1
  | jumpI2
  | range
  | iter
  | next
  | plain
  deriving DecidableEq, Repr

/-- One decoded item of the instruction stream: where it starts, where it ends and what it is. -/
structure Decoded where
  start : Nat
  stop : Nat
  instruction : Instruction
  deriving DecidableEq, Repr

/-- `xqvm::VerifierError`, without the positions it carries. -/
inductive VerifierError where
  | truncatedInstruction
  | badOpcode
  | undefinedJumpTarget
  | noActiveLoop
  | unmatchedLoop
  | readUnsetRegister
  | registerTypeMismatch
  | stackUnderflow
  | stackOverflowRisk
  | loopStackImbalance
  | stackDepthMismatch
  deriving DecidableEq, Repr

/-- `xqvm::Error`, without the values it carries. -/
inductive VmError where
  | stackUnderflow
  | stackOverflow
  | divisionByZero
  | stepLimitExceeded
  | badOpcode
  | truncatedInstruction
  | registerType
  | incompatibleType
  | memoryLimitExceeded
  | unsetRegister
  | arithmeticOverflow
  | indexOutOfBounds
  | noActiveLoop
  | unmatchedLoop
  | loopStackOverflow
  | badJumpTarget
  | invalidLabel
  | callDataIndex
  | outputIndex
  | sizeMismatch
  | vecLengthMismatch
  | invalidShift
  | invalidGridDimensions
  | invalidIntegerK
  | sampleOutOfDomain
  | invalidAllocation
  | traceFailed
  deriving DecidableEq, Repr

/-- A register value; the pallet tells integers from everything else. -/
inductive RegVal where
  | int (value : Int)
  | other
  deriving DecidableEq, Repr

/-- What is set on a machine before it runs. -/
structure VmSettings where
  memoryLimit : Nat
  stepLimit : Nat
  outputSlots : Nat
  calldata : List RegVal

/-- What a finished run leaves on the machine. -/
structure VmRun where
  steps : Nat
  outputs : List RegVal

/-- The runtime configuration. -/
structure Config where
  AccountId : Type
  Hash : Type
  decEqAccountId : DecidableEq AccountId
  decEqHash : DecidableEq Hash
  depositBase : Nat
  depositPerByte : Nat
  maxProgramSize : Nat
  maxProgramBlocks : Nat
  maxLoopDepth : Nat
  maxCallDataLen : Nat
  maxOutputSlots : Nat
  maxVmMemory : Nat
  maxStepLimit : Nat
  /-- `T::Hashing::hash`. -/
  hash : List UInt8 → Hash
  /-- `xqvm::Program`. -/
  Program : Type
  /-- `Program::decode`; `none` is any of its errors. -/
  decode : List UInt8 → Option Program
  /-- `Program::code`, the raw instruction stream. -/
  code : Program → List UInt8
  /-- The items of an `InstructionStream` in the order it yields them; `none` is a structural fault. -/
  instructionStream : List UInt8 → List (Option Decoded)
  /-- `xqvm::verifier::verify`. -/
  verify : Program → Except VerifierError Unit
  /-- `Vm::run` on a machine with these settings. -/
  run : VmSettings → Program → Except VmError VmRun

instance (T : Config) : DecidableEq T.AccountId := T.decEqAccountId
instance (T : Config) : DecidableEq T.Hash := T.decEqHash

inductive Error where
  | invalidBytecode
  | verifierBadInstruction
  | verifierUndefinedJumpTarget
  | verifierLoopImbalance
  | verifierReadUnsetRegister
  | verifierRegisterTypeMismatch
  | verifierStackFault
  | tooManyBlocks
  | loopNestingTooDeep
  | programAlreadyExists
  | programNotFound
  | notProgramOwner
  | stepLimitTooHigh
  | zeroStepLimit
  | tooManyOutputSlots
  | vmStackUnderflow
  | vmStackOverflow
  | vmDivisionByZero
  | vmStepLimitExceeded
  | vmMemoryLimitExceeded
  | vmBadBytecode
  | vmRegisterType
  | vmUnsetRegister
  | vmArithmeticOverflow
  | vmIndexOutOfBounds
  | vmLoopStructure
  | vmLoopStackOverflow
  | vmBadJump
  | vmCallDataIndex
  | vmOutputIndex
  | vmSizeMismatch
  | vmInvalidShift
  | vmInvalidGridDimensions
  | vmInvalidIntegerK
  | vmInvalidAllocation
  | vmTraceFailed
  | vmSampleOutOfDomain
  deriving DecidableEq, Repr

inductive DispatchError where
  | badOrigin
  | pallet (error : Error)
  | currency
  deriving DecidableEq, Repr

instance : Coe Error DispatchError := ⟨.pallet⟩

inductive Origin (AccountId : Type) where
  | root
  | signed (who : AccountId)
  | none

def ensureSigned {AccountId : Type} : Origin AccountId → Fallible DispatchError AccountId
  | .signed who => .ok who
  | _ => fail .badOrigin

def ensureRoot {AccountId : Type} : Origin AccountId → Fallible DispatchError Unit
  | .root => .ok ()
  | _ => fail .badOrigin

/-- `map_verifier_error`. -/
def mapVerifierError : VerifierError → Error
  | .truncatedInstruction | .badOpcode => .verifierBadInstruction
  | .undefinedJumpTarget => .verifierUndefinedJumpTarget
  | .noActiveLoop | .unmatchedLoop => .verifierLoopImbalance
  | .readUnsetRegister => .verifierReadUnsetRegister
  | .registerTypeMismatch => .verifierRegisterTypeMismatch
  | .stackUnderflow | .stackOverflowRisk | .loopStackImbalance | .stackDepthMismatch => .verifierStackFault

/-- `map_vm_error`. -/
def mapVmError : VmError → Error
  | .stackUnderflow => .vmStackUnderflow
  | .stackOverflow => .vmStackOverflow
  | .divisionByZero => .vmDivisionByZero
  | .stepLimitExceeded => .vmStepLimitExceeded
  | .badOpcode | .truncatedInstruction => .vmBadBytecode
  | .registerType | .incompatibleType => .vmRegisterType
  | .memoryLimitExceeded => .vmMemoryLimitExceeded
  | .unsetRegister => .vmUnsetRegister
  | .arithmeticOverflow => .vmArithmeticOverflow
  | .indexOutOfBounds => .vmIndexOutOfBounds
  | .noActiveLoop | .unmatchedLoop => .vmLoopStructure
  | .loopStackOverflow => .vmLoopStackOverflow
  | .badJumpTarget | .invalidLabel => .vmBadJump
  | .callDataIndex => .vmCallDataIndex
  | .outputIndex => .vmOutputIndex
  | .sizeMismatch | .vecLengthMismatch => .vmSizeMismatch
  | .invalidShift => .vmInvalidShift
  | .invalidGridDimensions => .vmInvalidGridDimensions
  | .invalidIntegerK => .vmInvalidIntegerK
  | .sampleOutOfDomain => .vmSampleOutOfDomain
  | .invalidAllocation => .vmInvalidAllocation
  | .traceFailed => .vmTraceFailed

/-- The static control-flow shape of an instruction stream. -/
structure ControlFlowShape where
  blocks : Nat
  loopDepth : Nat
  deriving DecidableEq, Repr

namespace ControlFlowShape

/-- The mutable variables of the walk. -/
structure Walk where
  blocks : Nat
  leaderPending : Bool
  depth : Nat
  loopDepth : Nat
  deriving DecidableEq, Repr

/-- The `match` on one instruction. -/
def Walk.visit (walk : Walk) : Instruction → Walk
  | .target =>
    { walk with
      blocks := if walk.leaderPending then walk.blocks else saturatingAdd u32Max walk.blocks 1
      leaderPending := false }
  | .jump1 | .jump2 | .jumpI1 | .jumpI2 =>
    { walk with blocks := saturatingAdd u32Max walk.blocks 1, leaderPending := true }
  | .range | .iter =>
    { blocks := saturatingAdd u32Max walk.blocks 1
      leaderPending := true
      depth := saturatingAdd u32Max walk.depth 1
      loopDepth := max walk.loopDepth (saturatingAdd u32Max walk.depth 1) }
  | .next =>
    { walk with blocks := saturatingAdd u32Max walk.blocks 1, leaderPending := true, depth := walk.depth - 1 }
  | .plain => { walk with leaderPending := false }

/-- The `while let` loop; a structural fault ends it. -/
def walkStream (walk : Walk) : List (Option Decoded) → Walk
  | some item :: rest => walkStream (walk.visit item.instruction) rest
  | none :: _ => walk
  | [] => walk

/-- `ControlFlowShape::of`. -/
def of (T : Config) (code : List UInt8) : ControlFlowShape :=
  let walk := walkStream { blocks := 1, leaderPending := true, depth := 0, loopDepth := 0 } (T.instructionStream code)
  { blocks := walk.blocks, loopDepth := walk.loopDepth }

end ControlFlowShape

variable {T : Config}

inductive Event (T : Config) where
  | programStored (programHash : T.Hash) (owner : T.AccountId) (size deposit : Nat)
  | programRemoved (programHash : T.Hash) (owner : T.AccountId) (deposit : Nat)
  | programEvicted (programHash : T.Hash) (owner : T.AccountId) (deposit : Nat)
  | programExecuted (caller : T.AccountId) (programHash : T.Hash) (stepsUsed : Nat) (outputs : List Int)

/-- Code outside the pallet during one dispatch: whether the currency refuses a hold it
could pay for, and whether it refuses a release. -/
structure Env (T : Config) where
  canHold : T.AccountId → Nat → Bool
  canRelease : T.AccountId → Nat → Bool

/-- The free balances and what is on hold under `HoldReason::StoredProgram`. -/
structure Holdings (T : Config) where
  free : T.AccountId → Nat
  held : T.AccountId → Nat

namespace Holdings

def set (balance : T.AccountId → Nat) (who : T.AccountId) (value : Nat) : T.AccountId → Nat :=
  fun probe => if probe = who then value else balance probe

/-- `Currency::hold`. -/
def hold (holdings : Holdings T) (env : Env T) (who : T.AccountId) (amount : Nat) :
    Fallible DispatchError (Holdings T) := do
  ensure (amount ≤ holdings.free who ∧ env.canHold who amount) .currency
  pure { free := set holdings.free who (holdings.free who - amount)
         held := set holdings.held who (holdings.held who + amount) }

/-- `Currency::release` with `Precision::BestEffort`: as much as is on hold, and how much that was. -/
def release (holdings : Holdings T) (env : Env T) (who : T.AccountId) (amount : Nat) :
    Fallible DispatchError (Nat × Holdings T) := do
  ensure (env.canRelease who amount) .currency
  let actual := min amount (holdings.held who)
  pure (actual,
    { free := set holdings.free who (holdings.free who + actual)
      held := set holdings.held who (holdings.held who - actual) })

end Holdings

/-- The pallet's storage, every event deposited so far and the currency. -/
structure State (T : Config) where
  programs : StorageMap T.Hash (BoundedVec UInt8 T.maxProgramSize)
  programOwner : StorageMap T.Hash T.AccountId
  programDeposit : StorageMap T.Hash Nat
  events : List (Event T)
  holdings : Holdings T

def State.deposit (s : State T) (event : Event T) : State T := { s with events := s.events ++ [event] }

/-- `deposit_for`. -/
def depositFor (T : Config) (size : Nat) : Nat :=
  saturatingAdd u128Max T.depositBase (saturatingMul u128Max T.depositPerByte size)

/-- The `Result` of `verify` with its error mapped. -/
def verified (T : Config) (program : T.Program) : Fallible DispatchError Unit :=
  match T.verify program with
  | .ok () => .ok ()
  | .error reason => fail (mapVerifierError reason)

def storeProgram (s : State T) (env : Env T) (origin : Origin T.AccountId)
    (bytecode : BoundedVec UInt8 T.maxProgramSize) : Fallible DispatchError (State T) := do
  let who ← ensureSigned origin
  let program ← okOr (T.decode bytecode.val) Error.invalidBytecode
  let shape := ControlFlowShape.of T (T.code program)
  ensure (shape.blocks ≤ T.maxProgramBlocks) Error.tooManyBlocks
  ensure (shape.loopDepth ≤ T.maxLoopDepth) Error.loopNestingTooDeep
  verified T program
  let hash := T.hash bytecode.val
  ensure (s.programs.lookup hash = none) Error.programAlreadyExists
  let size := asU32 bytecode.val.length
  let deposit := depositFor T size
  let holdings ← s.holdings.hold env who deposit
  let s := { s with
    holdings
    programs := s.programs.insert hash bytecode
    programOwner := s.programOwner.insert hash who
    programDeposit := s.programDeposit.insert hash deposit }
  pure (s.deposit (.programStored hash who size deposit))

/-- `do_remove`: the program's length, the amount released, and the state without it. -/
def doRemove (s : State T) (env : Env T) (programHash : T.Hash) (owner : T.AccountId) :
    Fallible DispatchError (Nat × Nat × State T) := do
  let bytecode ← okOr (s.programs.lookup programHash) Error.programNotFound
  let s := { s with programs := s.programs.erase programHash }
  let size := asU32 bytecode.val.length
  let recorded := (s.programDeposit.lookup programHash).getD 0
  let s := { s with programDeposit := s.programDeposit.erase programHash }
  let (released, holdings) ← s.holdings.release env owner recorded
  pure (size, released, { s with holdings, programOwner := s.programOwner.erase programHash })

def removeProgram (s : State T) (env : Env T) (origin : Origin T.AccountId) (programHash : T.Hash) :
    Fallible DispatchError (State T) := do
  let who ← ensureSigned origin
  let owner ← okOr (s.programOwner.lookup programHash) Error.programNotFound
  ensure (owner = who) Error.notProgramOwner
  let (_, deposit, s) ← doRemove s env programHash owner
  pure (s.deposit (.programRemoved programHash owner deposit))

def evictProgram (s : State T) (env : Env T) (origin : Origin T.AccountId) (programHash : T.Hash) :
    Fallible DispatchError (State T) := do
  ensureRoot origin
  let owner ← okOr (s.programOwner.lookup programHash) Error.programNotFound
  let (_, deposit, s) ← doRemove s env programHash owner
  pure (s.deposit (.programEvicted programHash owner deposit))

/-- The `match` on `vm.run`. -/
def finishedRun (T : Config) (settings : VmSettings) (program : T.Program) : Fallible DispatchError VmRun :=
  match T.run settings program with
  | .ok finished => .ok finished
  | .error reason => fail (mapVmError reason)

/-- An output register as the event reports it. -/
def RegVal.reported : RegVal → Int
  | .int value => value
  | .other => 0

/-- The dispatchable `execute`. -/
def executeProgram (s : State T) (origin : Origin T.AccountId) (programHash : T.Hash)
    (calldata : BoundedVec Int T.maxCallDataLen) (outputSlots stepLimit : Nat) : Fallible DispatchError (State T) := do
  let who ← ensureSigned origin
  ensure (0 < stepLimit) Error.zeroStepLimit
  ensure (stepLimit ≤ T.maxStepLimit) Error.stepLimitTooHigh
  ensure (outputSlots ≤ T.maxOutputSlots) Error.tooManyOutputSlots
  let bytecode ← okOr (s.programs.lookup programHash) Error.programNotFound
  let program ← okOr (T.decode bytecode.val) Error.vmBadBytecode
  let settings : VmSettings :=
    { memoryLimit := T.maxVmMemory, stepLimit, outputSlots, calldata := calldata.val.map RegVal.int }
  let finished ← finishedRun T settings program
  let outputs ← expect (BoundedVec.tryFrom T.maxOutputSlots (finished.outputs.map RegVal.reported))
    "output_slots <= MaxOutputSlots checked above"
  pure (s.deposit (.programExecuted who programHash finished.steps outputs.val))

/-- The pallet's calls. -/
inductive Call (T : Config) where
  | storeProgram (bytecode : BoundedVec UInt8 T.maxProgramSize)
  | execute (programHash : T.Hash) (calldata : BoundedVec Int T.maxCallDataLen) (outputSlots stepLimit : Nat)
  | removeProgram (programHash : T.Hash)
  | evictProgram (programHash : T.Hash)

def dispatch (s : State T) (env : Env T) (origin : Origin T.AccountId) : Call T → Fallible DispatchError (State T)
  | .storeProgram bytecode => storeProgram s env origin bytecode
  | .execute programHash calldata outputSlots stepLimit =>
    executeProgram s origin programHash calldata outputSlots stepLimit
  | .removeProgram programHash => removeProgram s env origin programHash
  | .evictProgram programHash => evictProgram s env origin programHash

end QuipValidator.Xqvm
