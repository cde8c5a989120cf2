import QuipValidator.MinerRegistry

/-! `pallet-miner-registry`: the three calls. Descriptors are checked field by field,
paid for by their size, and kept with the deposit that was reserved for them;
participation is declared for the qblock that is being worked on. -/
namespace QuipValidator.Registry
open Fallible Scale

/-- The rest of the runtime configuration: the deposit rates and the hash of a payload. -/
structure PalletConfig extends Config where
  descriptorDepositBase : Nat
  descriptorDepositPerByte : Nat
  /-- `blake2_256`. -/
  blake2 : Bytes → Bytes

def NODE_DESCRIPTOR_SCHEMA_V1 : Nat := 1
def NODE_DESCRIPTOR_SCHEMA_V2 : Nat := 2

inductive Error where
  | emptyNodeId
  | emptyNodeName
  | emptyPublicHost
  | emptyRpcEndpoint
  | emptyMinerLabel
  | emptyMinerBackend
  | emptyMinerDeviceId
  | emptyOsSystem
  | emptyCpuBrand
  | emptyCpuArch
  | emptyGpuVendor
  | emptyGpuName
  | invalidGpuUtilization
  | emptyPythonVersion
  | emptyQuipVersion
  | emptyDockerImage
  | noMiners
  | invalidPort
  | descriptorNotFound
  | descriptorRequired
  | invalidQBlockId
  | duplicateParticipation
  deriving DecidableEq, Repr

inductive DispatchError where
  | badOrigin
  | pallet (error : Error)
  | currency
  deriving DecidableEq, Repr

instance : Coe Error DispatchError := ⟨.pallet⟩

/-- The descriptor payload of schema v1. -/
structure NodeDescriptorV1Input where
  nodeId : Bytes
  nodeName : Bytes
  publicHost : Option Bytes
  publicPort : Option Nat
  rpcEndpoints : List Bytes
  autoMine : Bool
  logLevel : LogLevel
  miners : List MinerSpec

/-- The descriptor payload of schema v2. -/
structure NodeDescriptorV2Input extends NodeDescriptorV1Input where
  systemInfo : Option SystemInfo
  runtime : Option RuntimeInfo

inductive NodeDescriptorInput where
  | v1 (input : NodeDescriptorV1Input)
  | v2 (input : NodeDescriptorV2Input)

section Encoding
open Codec

variable (T : Config)

def nodeDescriptorV1Input : Codec NodeDescriptorV1Input :=
  record
    (pair (byteString T.maxNodeIdBytes) (pair (byteString T.maxNodeNameBytes)
      (pair (option (byteString T.maxPublicHostBytes)) (pair (option (word 2))
        (pair (vec T.maxRpcEndpoints (byteString T.maxRpcEndpointBytes)) (pair bool
          (pair (variants [.debug, .info, .warning, .error]) (vec T.maxMinerSpecs (minerSpec T)))))))))
    (fun d => (d.nodeId, d.nodeName, d.publicHost, d.publicPort, d.rpcEndpoints, d.autoMine, d.logLevel, d.miners))
    (fun (nodeId, nodeName, publicHost, publicPort, rpcEndpoints, autoMine, logLevel, miners) =>
      { nodeId, nodeName, publicHost, publicPort, rpcEndpoints, autoMine, logLevel, miners })
    (fun _ => rfl)

def nodeDescriptorV2Input : Codec NodeDescriptorV2Input :=
  record
    (pair (nodeDescriptorV1Input T) (pair (option (systemInfo T)) (option (runtimeInfo T))))
    (fun d => (d.toNodeDescriptorV1Input, d.systemInfo, d.runtime))
    (fun (base, systemInfo, runtime) => { toNodeDescriptorV1Input := base, systemInfo, runtime })
    (fun _ => rfl)

/-- The variant indices are pinned. -/
def NodeDescriptorInput.encode : NodeDescriptorInput → Bytes
  | .v1 input => 0 :: (nodeDescriptorV1Input T).encode input
  | .v2 input => 1 :: (nodeDescriptorV2Input T).encode input

end Encoding

/-- An account's most recent participation declaration. -/
structure ParticipationRecord where
  qblockId : Nat
  kind : MinerKind
  budgetSeconds : Option Nat
  updatedAt : Nat
  deriving DecidableEq

inductive Event (P : PalletConfig) where
  | descriptorUpdated (who : P.AccountId) (payloadHash : Bytes) (payloadLen : Nat)
  | descriptorCleared (who : P.AccountId)
  | minerParticipated (qblockId : Nat) (who : P.AccountId) (kind : MinerKind) (budgetSeconds : Option Nat)

/-- Free and reserved balances of every account. The reserve is one pool that other
pallets use too. -/
structure Balances (P : PalletConfig) where
  free : P.AccountId → Nat
  reserved : P.AccountId → Nat

/-- Code outside the pallet during one dispatch: the qblock numbering, whether the
currency refuses a reserve it could pay for, and whether `debug_assert!` is compiled in. -/
structure Env (P : PalletConfig) where
  latestQBlockId : Option Nat
  canReserve : P.AccountId → Nat → Bool
  debugAssertions : Bool

/-- The pallet's storage, the block number, every event deposited so far and the currency. -/
structure Storage (P : PalletConfig) where
  blockNumber : Nat
  nodeDescriptors : StorageMap P.AccountId NodeDescriptor
  latestParticipation : StorageMap P.AccountId ParticipationRecord
  participantsByQBlock : StorageDoubleMap Nat P.AccountId ParticipationRecord
  participantCountByQBlock : StorageMap Nat Nat
  events : List (Event P)
  balances : Balances P

inductive Origin (P : PalletConfig) where
  | root
  | signed (who : P.AccountId)
  | none

variable {P : PalletConfig}

namespace Balances

def set (balance : P.AccountId → Nat) (who : P.AccountId) (value : Nat) : P.AccountId → Nat :=
  fun probe => if probe = who then value else balance probe

/-- `Currency::reserve`. -/
def reserve (balances : Balances P) (env : Env P) (who : P.AccountId) (amount : Nat) :
    Fallible DispatchError (Balances P) := do
  ensure (amount ≤ balances.free who ∧ env.canReserve who amount) .currency
  pure { free := set balances.free who (balances.free who - amount)
         reserved := set balances.reserved who (balances.reserved who + amount) }

/-- `Currency::unreserve`: frees as much as the pool holds and returns the rest. -/
def unreserve (balances : Balances P) (who : P.AccountId) (amount : Nat) : Nat × Balances P :=
  let actual := min amount (balances.reserved who)
  (amount - actual,
    { free := set balances.free who (balances.free who + actual)
      reserved := set balances.reserved who (balances.reserved who - actual) })

end Balances

def Storage.deposit (s : Storage P) (event : Event P) : Storage P := { s with events := s.events ++ [event] }

/-- `ParticipantCountByQBlock::get`, a `ValueQuery`. -/
def participantCountByQBlock (s : Storage P) (qblockId : Nat) : Nat :=
  (s.participantCountByQBlock.lookup qblockId).getD 0

def ensureSigned : Origin P → Fallible DispatchError P.AccountId
  | .signed who => .ok who
  | _ => fail .badOrigin

/-- `debug_assert!(condition)`. -/
def debugAssert (env : Env P) (condition : Prop) [Decidable condition] : Fallible DispatchError Unit :=
  if env.debugAssertions ∧ ¬ condition then .error (.panic "assertion failed: remaining.is_zero()") else .ok ()

/-- `QBlockIdProvider::candidate_qblock_id`. -/
def candidateQBlockId (latestQBlockId : Option Nat) : Nat := saturatingAdd u64Max (latestQBlockId.getD 0) 1

/-- `if let Some(text) = text { ensure!(!text.is_empty(), error) }`. -/
def ensureFilled (text : Option Bytes) (error : Error) : Fallible DispatchError Unit :=
  match text with
  | some text => ensure (text ≠ []) error
  | none => .ok ()

/-- `for item in items { check(item)? }`. -/
def forEach {α : Type} (check : α → Fallible DispatchError Unit) : List α → Fallible DispatchError Unit
  | [] => .ok ()
  | item :: rest => do
    check item
    forEach check rest

def ensurePort (publicPort : Option Nat) : Fallible DispatchError Unit :=
  match publicPort with
  | some port => ensure (0 < port) Error.invalidPort
  | none => .ok ()

def validateNodeIdentity (input : NodeDescriptorV1Input) : Fallible DispatchError Unit := do
  ensure (input.nodeId ≠ []) Error.emptyNodeId
  ensure (input.nodeName ≠ []) Error.emptyNodeName
  ensureFilled input.publicHost .emptyPublicHost
  ensurePort input.publicPort
  forEach (fun endpoint : Bytes => ensure (endpoint ≠ []) Error.emptyRpcEndpoint) input.rpcEndpoints

def validateMiner (miner : MinerSpec) : Fallible DispatchError Unit := do
  ensureFilled miner.label .emptyMinerLabel
  ensureFilled miner.backend .emptyMinerBackend
  ensureFilled miner.deviceId .emptyMinerDeviceId

def validateMiners (miners : List MinerSpec) : Fallible DispatchError Unit := do
  ensure (¬ miners.isEmpty) Error.noMiners
  forEach validateMiner miners

def ensureUtilization (utilizationPct : Option Nat) : Fallible DispatchError Unit :=
  match utilizationPct with
  | some util => ensure (util ≤ 100) Error.invalidGpuUtilization
  | none => .ok ()

def validateGpu (gpu : GpuInfo) : Fallible DispatchError Unit := do
  ensure (gpu.vendor ≠ []) Error.emptyGpuVendor
  ensure (gpu.name ≠ []) Error.emptyGpuName
  ensureUtilization gpu.utilizationPct

def validateSystemInfo (info : SystemInfo) : Fallible DispatchError Unit := do
  ensure (info.os.system ≠ []) Error.emptyOsSystem
  ensure (info.cpu.brand ≠ []) Error.emptyCpuBrand
  ensure (info.cpu.arch ≠ []) Error.emptyCpuArch
  forEach validateGpu info.gpus

def validateRuntime (runtime : RuntimeInfo) : Fallible DispatchError Unit := do
  ensure (runtime.python ≠ []) Error.emptyPythonVersion
  ensure (runtime.quipVersion ≠ []) Error.emptyQuipVersion
  ensureFilled runtime.dockerImage .emptyDockerImage

/-- The largest `usize` of the runtime, which is compiled to 32-bit WebAssembly. -/
def usizeMax : Nat := u32Max

/-- The lengths of byte strings added up with `saturating_add`, then `saturated_into::<u32>`. -/
def byteCount (strings : List Bytes) : Nat :=
  min (strings.foldl (fun sum text => saturatingAdd usizeMax sum text.length) 0) u32Max

def MinerSpec.strings (miner : MinerSpec) : List Bytes :=
  miner.label.toList ++ miner.backend.toList ++ miner.deviceId.toList

def descriptorPayloadLen (input : NodeDescriptorV1Input) : Nat :=
  byteCount ([input.nodeId, input.nodeName] ++ input.publicHost.toList ++ input.rpcEndpoints ++
    input.miners.flatMap MinerSpec.strings)

def systemInfoPayloadLen (info : SystemInfo) : Nat :=
  byteCount ([info.os.system, info.os.release, info.os.machine, info.cpu.brand, info.cpu.arch] ++
    info.gpus.flatMap fun gpu => [gpu.vendor, gpu.name])

def runtimePayloadLen (runtime : RuntimeInfo) : Nat :=
  byteCount ([runtime.python, runtime.quipVersion] ++ runtime.dockerImage.toList)

def descriptorDeposit (P : PalletConfig) (payloadLen : Nat) : Nat :=
  saturatingAdd u128Max P.descriptorDepositBase (saturatingMul u128Max P.descriptorDepositPerByte payloadLen)

/-- The record that is stored for an input, before its hash is set. -/
def storedDescriptor (P : PalletConfig) (schemaVersion : Nat) (input : NodeDescriptorV1Input)
    (systemInfo : Option SystemInfo) (runtime : Option RuntimeInfo) (updatedAt payloadLen : Nat) : NodeDescriptor :=
  { schemaVersion
    nodeId := input.nodeId
    nodeName := input.nodeName
    publicHost := input.publicHost
    publicPort := input.publicPort
    rpcEndpoints := input.rpcEndpoints
    autoMine := input.autoMine
    logLevel := input.logLevel
    miners := input.miners
    payloadHash := List.replicate 32 0
    updatedAt
    deposit := descriptorDeposit P payloadLen
    systemInfo
    runtime }

def validateAndStoreV1 (s : Storage P) (input : NodeDescriptorV1Input) :
    Fallible DispatchError (NodeDescriptor × Nat) := do
  validateNodeIdentity input
  validateMiners input.miners
  let payloadLen := descriptorPayloadLen input
  pure (storedDescriptor P NODE_DESCRIPTOR_SCHEMA_V1 input none none s.blockNumber payloadLen, payloadLen)

/-- Check an optional block of a v2 payload and add its bytes. -/
def addBlock {α : Type} (check : α → Fallible DispatchError Unit) (len : α → Nat) (payloadLen : Nat) :
    Option α → Fallible DispatchError Nat
  | some block => do
    check block
    pure (saturatingAdd u32Max payloadLen (len block))
  | none => pure payloadLen

def validateAndStoreV2 (s : Storage P) (input : NodeDescriptorV2Input) :
    Fallible DispatchError (NodeDescriptor × Nat) := do
  validateNodeIdentity input.toNodeDescriptorV1Input
  validateMiners input.miners
  let payloadLen := descriptorPayloadLen input.toNodeDescriptorV1Input
  let payloadLen ← addBlock validateSystemInfo systemInfoPayloadLen payloadLen input.systemInfo
  let payloadLen ← addBlock validateRuntime runtimePayloadLen payloadLen input.runtime
  pure (storedDescriptor P NODE_DESCRIPTOR_SCHEMA_V2 input.toNodeDescriptorV1Input input.systemInfo input.runtime
    s.blockNumber payloadLen, payloadLen)

def validateAndStoreDescriptor (s : Storage P) : NodeDescriptorInput → Fallible DispatchError (NodeDescriptor × Nat)
  | .v1 input => validateAndStoreV1 s input
  | .v2 input => validateAndStoreV2 s input

/-- The balance part of `replace_descriptor`: only the difference of the two deposits moves. -/
def shiftReserve (balances : Balances P) (env : Env P) (who : P.AccountId) (previousDeposit nextDeposit : Nat) :
    Fallible DispatchError (Balances P) :=
  if previousDeposit < nextDeposit then balances.reserve env who (nextDeposit - previousDeposit)
  else if nextDeposit < previousDeposit then do
    let (remaining, balances) := balances.unreserve who (previousDeposit - nextDeposit)
    debugAssert env (remaining = 0)
    pure balances
  else pure balances

/-- `replace_descriptor` on decoded storage. -/
def fileDescriptor (s : Storage P) (env : Env P) (who : P.AccountId) (descriptor : NodeDescriptor)
    (payloadHash : Bytes) : Fallible DispatchError (Storage P) := do
  let previousDeposit := ((s.nodeDescriptors.lookup who).map fun held => held.deposit).getD 0
  let balances ← shiftReserve s.balances env who previousDeposit descriptor.deposit
  let descriptor := { descriptor with payloadHash := payloadHash }
  pure { s with balances, nodeDescriptors := s.nodeDescriptors.insert who descriptor }

def setDescriptor (s : Storage P) (env : Env P) (origin : Origin P) (descriptor : NodeDescriptorInput) :
    Fallible DispatchError (Storage P) := do
  let who ← ensureSigned origin
  let payloadHash := P.blake2 (descriptor.encode P.toConfig)
  let (stored, payloadLen) ← validateAndStoreDescriptor s descriptor
  let s ← fileDescriptor s env who stored payloadHash
  pure (s.deposit (.descriptorUpdated who payloadHash payloadLen))

def clearDescriptor (s : Storage P) (env : Env P) (origin : Origin P) : Fallible DispatchError (Storage P) := do
  let who ← ensureSigned origin
  let descriptor ← okOr (s.nodeDescriptors.lookup who) Error.descriptorNotFound
  let s := { s with nodeDescriptors := s.nodeDescriptors.erase who }
  let (remaining, balances) := s.balances.unreserve who descriptor.deposit
  debugAssert env (remaining = 0)
  let s := { s with balances, latestParticipation := s.latestParticipation.erase who }
  pure (s.deposit (.descriptorCleared who))

def participate (s : Storage P) (env : Env P) (origin : Origin P) (qblockId : Nat) (kind : MinerKind)
    (budgetSeconds : Option Nat) : Fallible DispatchError (Storage P) := do
  let who ← ensureSigned origin
  ensure ((s.nodeDescriptors.lookup who).isSome) Error.descriptorRequired
  ensure (qblockId = candidateQBlockId env.latestQBlockId) Error.invalidQBlockId
  ensure (∀ record ∈ s.latestParticipation.lookup who, record.qblockId ≠ qblockId) Error.duplicateParticipation
  let record : ParticipationRecord := { qblockId, kind, budgetSeconds, updatedAt := s.blockNumber }
  let s := { s with
    latestParticipation := s.latestParticipation.insert who record
    participantsByQBlock := s.participantsByQBlock.insert qblockId who record
    participantCountByQBlock := s.participantCountByQBlock.insert qblockId
      (saturatingAdd u32Max (participantCountByQBlock s qblockId) 1) }
  pure (s.deposit (.minerParticipated qblockId who kind budgetSeconds))

/-- The pallet's calls. -/
inductive Call where
  | setDescriptor (descriptor : NodeDescriptorInput)
  | clearDescriptor
  | participate (qblockId : Nat) (kind : MinerKind) (budgetSeconds : Option Nat)

def execute (s : Storage P) (env : Env P) (origin : Origin P) : Call → Fallible DispatchError (Storage P)
  | .setDescriptor descriptor => setDescriptor s env origin descriptor
  | .clearDescriptor => clearDescriptor s env origin
  | .participate qblockId kind budgetSeconds => participate s env origin qblockId kind budgetSeconds

end QuipValidator.Registry
