import QuipValidator.Fallible
import QuipValidator.Scale
import QuipValidator.StorageMap

/-! `pallet-miner-registry`: the stored node descriptors in their two layouts, the
deposits reserved for them, and the migration from the first layout to the second.
Storage is kept as the bytes it holds. -/
namespace QuipValidator.Registry
open Fallible Scale

/-- The runtime configuration: the bounds of the variable-length fields. -/
structure Config where
  AccountId : Type
  decEqAccountId : DecidableEq AccountId
  maxNodeIdBytes : Nat
  maxNodeNameBytes : Nat
  maxPublicHostBytes : Nat
  maxRpcEndpointBytes : Nat
  maxRpcEndpoints : Nat
  maxMinerLabelBytes : Nat
  maxMinerBackendBytes : Nat
  maxMinerDeviceIdBytes : Nat
  maxMinerSpecs : Nat
  maxOsStringBytes : Nat
  maxCpuBrandBytes : Nat
  maxArchBytes : Nat
  maxGpuVendorBytes : Nat
  maxGpuNameBytes : Nat
  maxGpus : Nat
  maxRuntimeVersionBytes : Nat
  maxDockerImageBytes : Nat

instance {T : Config} : DecidableEq T.AccountId := T.decEqAccountId

abbrev Bytes := List UInt8

inductive LogLevel where
  | debug
  | info
  | warning
  | error
  deriving DecidableEq

inductive MinerKind where
  | cpu
  | gpu
  | qpuDwave
  | qpuIbm
  | qpuIonq
  | qpuPasqal
  | asic
  | metal
  deriving DecidableEq

structure MinerSpec where
  kind : MinerKind
  label : Option Bytes
  backend : Option Bytes
  deviceId : Option Bytes

structure OsInfo where
  system : Bytes
  release : Bytes
  machine : Bytes

structure CpuInfo where
  logicalCores : Option Nat
  physicalCores : Option Nat
  brand : Bytes
  arch : Bytes

structure GpuInfo where
  index : Nat
  vendor : Bytes
  name : Bytes
  memoryMb : Option Nat
  utilizationPct : Option Nat

structure SystemInfo where
  os : OsInfo
  cpu : CpuInfo
  memoryMb : Option Nat
  gpus : List GpuInfo

structure RuntimeInfo where
  python : Bytes
  quipVersion : Bytes
  protocolVersion : Nat
  inDocker : Bool
  dockerImage : Option Bytes

/-- The stored descriptor of the first storage version. -/
structure NodeDescriptorV1 where
  schemaVersion : Nat
  nodeId : Bytes
  nodeName : Bytes
  publicHost : Option Bytes
  publicPort : Option Nat
  rpcEndpoints : List Bytes
  autoMine : Bool
  logLevel : LogLevel
  miners : List MinerSpec
  payloadHash : Bytes
  updatedAt : Nat
  deposit : Nat

/-- `NodeDescriptor`, the stored descriptor: the same fields with two more behind them. -/
structure NodeDescriptor extends NodeDescriptorV1 where
  systemInfo : Option SystemInfo
  runtime : Option RuntimeInfo

section Codecs
open Codec

variable (T : Config)

/-- A bounded byte string. -/
def byteString (bound : Nat) : Codec Bytes := vec bound byte

def minerSpec : Codec MinerSpec :=
  record
    (pair (variants [.cpu, .gpu, .qpuDwave, .qpuIbm, .qpuIonq, .qpuPasqal, .asic, .metal])
      (pair (option (byteString T.maxMinerLabelBytes))
        (pair (option (byteString T.maxMinerBackendBytes)) (option (byteString T.maxMinerDeviceIdBytes)))))
    (fun spec => (spec.kind, spec.label, spec.backend, spec.deviceId))
    (fun (kind, label, backend, deviceId) => { kind, label, backend, deviceId })
    (fun _ => rfl)

def osInfo : Codec OsInfo :=
  record
    (pair (byteString T.maxOsStringBytes) (pair (byteString T.maxOsStringBytes) (byteString T.maxOsStringBytes)))
    (fun os => (os.system, os.release, os.machine))
    (fun (system, release, machine) => { system, release, machine })
    (fun _ => rfl)

def cpuInfo : Codec CpuInfo :=
  record
    (pair (option (word 4)) (pair (option (word 4)) (pair (byteString T.maxCpuBrandBytes) (byteString T.maxArchBytes))))
    (fun cpu => (cpu.logicalCores, cpu.physicalCores, cpu.brand, cpu.arch))
    (fun (logicalCores, physicalCores, brand, arch) => { logicalCores, physicalCores, brand, arch })
    (fun _ => rfl)

def gpuInfo : Codec GpuInfo :=
  record
    (pair (word 1) (pair (byteString T.maxGpuVendorBytes) (pair (byteString T.maxGpuNameBytes)
      (pair (option (word 4)) (option (word 1))))))
    (fun gpu => (gpu.index, gpu.vendor, gpu.name, gpu.memoryMb, gpu.utilizationPct))
    (fun (index, vendor, name, memoryMb, utilizationPct) => { index, vendor, name, memoryMb, utilizationPct })
    (fun _ => rfl)

def systemInfo : Codec SystemInfo :=
  record
    (pair (osInfo T) (pair (cpuInfo T) (pair (option (word 4)) (vec T.maxGpus (gpuInfo T)))))
    (fun info => (info.os, info.cpu, info.memoryMb, info.gpus))
    (fun (os, cpu, memoryMb, gpus) => { os, cpu, memoryMb, gpus })
    (fun _ => rfl)

def runtimeInfo : Codec RuntimeInfo :=
  record
    (pair (byteString T.maxRuntimeVersionBytes) (pair (byteString T.maxRuntimeVersionBytes) (pair (word 4)
      (pair bool (option (byteString T.maxDockerImageBytes))))))
    (fun info => (info.python, info.quipVersion, info.protocolVersion, info.inDocker, info.dockerImage))
    (fun (python, quipVersion, protocolVersion, inDocker, dockerImage) =>
      { python, quipVersion, protocolVersion, inDocker, dockerImage })
    (fun _ => rfl)

/-- The first layout. -/
def nodeDescriptorV1 : Codec NodeDescriptorV1 :=
  record
    (pair (word 2) (pair (byteString T.maxNodeIdBytes) (pair (byteString T.maxNodeNameBytes)
      (pair (option (byteString T.maxPublicHostBytes)) (pair (option (word 2))
        (pair (vec T.maxRpcEndpoints (byteString T.maxRpcEndpointBytes)) (pair bool
          (pair (variants [.debug, .info, .warning, .error]) (pair (vec T.maxMinerSpecs (minerSpec T))
            (pair (bytes 32) (pair (word 4) (word 16))))))))))))
    (fun d => (d.schemaVersion, d.nodeId, d.nodeName, d.publicHost, d.publicPort, d.rpcEndpoints, d.autoMine,
      d.logLevel, d.miners, d.payloadHash, d.updatedAt, d.deposit))
    (fun (schemaVersion, nodeId, nodeName, publicHost, publicPort, rpcEndpoints, autoMine, logLevel, miners,
        payloadHash, updatedAt, deposit) =>
      { schemaVersion, nodeId, nodeName, publicHost, publicPort, rpcEndpoints, autoMine, logLevel, miners,
        payloadHash, updatedAt, deposit })
    (fun _ => rfl)

/-- The current layout: the fields of the first one, then the two optional ones. -/
def nodeDescriptor : Codec NodeDescriptor :=
  record
    (pair (nodeDescriptorV1 T) (pair (option (systemInfo T)) (option (runtimeInfo T))))
    (fun d => (d.toNodeDescriptorV1, d.systemInfo, d.runtime))
    (fun (base, systemInfo, runtime) => { toNodeDescriptorV1 := base, systemInfo, runtime })
    (fun _ => rfl)

end Codecs

/-- The storage of the pallet and the balances it reserves from. -/
structure State (T : Config) where
  storageVersion : Nat
  nodeDescriptors : StorageMap T.AccountId Bytes
  free : T.AccountId → Nat
  reserved : T.AccountId → Nat

variable {T : Config}

/-- Decoding a stored value: what follows it is ignored. -/
def decodeDescriptor (T : Config) (raw : Bytes) : Option NodeDescriptor := ((nodeDescriptor T).decode raw).map Prod.fst

/-- `unreserve`: as much of the amount as is reserved goes back. -/
def State.unreserve (s : State T) (who : T.AccountId) (amount : Nat) : State T :=
  let moved := min amount (s.reserved who)
  { s with
    free := fun account => if account = who then s.free account + moved else s.free account
    reserved := fun account => if account = who then s.reserved account - moved else s.reserved account }

/-- `reserve`; `refused` is a balance that does not allow it. -/
def State.reserve (s : State T) (refused : Bool) (who : T.AccountId) (amount : Nat) : Fallible String (State T) :=
  if refused ∨ s.free who < amount then fail "InsufficientBalance"
  else .ok
    { s with
      free := fun account => if account = who then s.free account - amount else s.free account
      reserved := fun account => if account = who then s.reserved account + amount else s.reserved account }

/-- The balance part of `replace_descriptor`: only the difference of the two deposits moves. -/
def State.shiftDeposit (s : State T) (refused : Bool) (who : T.AccountId) (previousDeposit nextDeposit : Nat) :
    Fallible String (State T) :=
  if previousDeposit < nextDeposit then s.reserve refused who (nextDeposit - previousDeposit)
  else if nextDeposit < previousDeposit then pure (s.unreserve who (previousDeposit - nextDeposit))
  else pure s

/-- One raw entry of `drain`: it is removed, and yielded only if it decodes. -/
def drainEntry (s : State T) (entry : Σ _ : T.AccountId, Bytes) : State T :=
  let s := { s with nodeDescriptors := s.nodeDescriptors.erase entry.1 }
  match decodeDescriptor T entry.2 with
  | some descriptor => s.unreserve entry.1 descriptor.deposit
  | none => s

/-- `InnerMigrateToV2::on_runtime_upgrade`. -/
def innerMigrateToV2 (s : State T) : State T := s.nodeDescriptors.entries.foldl drainEntry s

/-- `MigrateToV2`: only from version 1, to version 2. -/
def migrateToV2 (s : State T) : State T :=
  if s.storageVersion = 1 then { innerMigrateToV2 s with storageVersion := 2 } else s

/-- `replace_descriptor`. -/
def replaceDescriptor (refused : Bool) (who : T.AccountId) (descriptor : NodeDescriptor) (payloadHash : Bytes)
    (s : State T) : Fallible String (State T) := do
  let previous := (s.nodeDescriptors.lookup who).bind (decodeDescriptor T)
  let previousDeposit := (previous.map fun held => held.deposit).getD 0
  let s ← s.shiftDeposit refused who previousDeposit descriptor.deposit
  let descriptor := { descriptor with payloadHash := payloadHash }
  pure { s with nodeDescriptors := s.nodeDescriptors.insert who ((nodeDescriptor T).encode descriptor) }

end QuipValidator.Registry
