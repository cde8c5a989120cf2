import QuipValidator.RegistryPallet

/-! What a call of the miner registry does when it succeeds: it files a descriptor,
clears one, or declares a participation. -/
namespace QuipValidator.Registry
open Fallible

variable {P : PalletConfig}

/-- The deposit stored for an account, zero without a descriptor. -/
def depositOf (s : Storage P) (who : P.AccountId) : Nat :=
  ((s.nodeDescriptors.lookup who).map fun held => held.deposit).getD 0

/-- The payload of a stored descriptor without its optional blocks. -/
def NodeDescriptor.base (descriptor : NodeDescriptor) : NodeDescriptorV1Input :=
  { nodeId := descriptor.nodeId
    nodeName := descriptor.nodeName
    publicHost := descriptor.publicHost
    publicPort := descriptor.publicPort
    rpcEndpoints := descriptor.rpcEndpoints
    autoMine := descriptor.autoMine
    logLevel := descriptor.logLevel
    miners := descriptor.miners }

/-- The bytes a stored descriptor is charged for. -/
def NodeDescriptor.payloadLen (descriptor : NodeDescriptor) : Nat :=
  saturatingAdd u32Max
    (saturatingAdd u32Max (descriptorPayloadLen descriptor.base)
      ((descriptor.systemInfo.map systemInfoPayloadLen).getD 0))
    ((descriptor.runtime.map runtimePayloadLen).getD 0)

/-- One successful call. -/
inductive Move (env : Env P) (s : Storage P) : Origin P → Call → Storage P → Prop
  | files {who : P.AccountId} {input : NodeDescriptorInput} {descriptor : NodeDescriptor} {balances : Balances P}
      {payloadHash : Bytes}
      (shifted : shiftReserve s.balances env who (depositOf s who) descriptor.deposit = .ok balances)
      (priced : descriptor.deposit = descriptorDeposit P descriptor.payloadLen) :
      Move env s (.signed who) (.setDescriptor input) { s with
        balances
        nodeDescriptors := s.nodeDescriptors.insert who descriptor
        events := s.events ++ [.descriptorUpdated who payloadHash descriptor.payloadLen] }
  | clears {who : P.AccountId} {descriptor : NodeDescriptor} (held : s.nodeDescriptors.lookup who = some descriptor) :
      Move env s (.signed who) .clearDescriptor { s with
        balances := (s.balances.unreserve who descriptor.deposit).2
        nodeDescriptors := s.nodeDescriptors.erase who
        latestParticipation := s.latestParticipation.erase who
        events := s.events ++ [.descriptorCleared who] }
  | declares {who : P.AccountId} {qblockId : Nat} {kind : MinerKind} {budgetSeconds : Option Nat}
      (filed : (s.nodeDescriptors.lookup who).isSome)
      (current : qblockId = candidateQBlockId env.latestQBlockId)
      (fresh : ∀ record ∈ s.latestParticipation.lookup who, record.qblockId ≠ qblockId) :
      Move env s (.signed who) (.participate qblockId kind budgetSeconds) { s with
        latestParticipation := s.latestParticipation.insert who ⟨qblockId, kind, budgetSeconds, s.blockNumber⟩
        participantsByQBlock := s.participantsByQBlock.insert qblockId who ⟨qblockId, kind, budgetSeconds, s.blockNumber⟩
        participantCountByQBlock := s.participantCountByQBlock.insert qblockId
          (saturatingAdd u32Max (Registry.participantCountByQBlock s qblockId) 1)
        events := s.events ++ [.minerParticipated qblockId who kind budgetSeconds] }

section Inversion
variable {s after : Storage P} {env : Env P} {origin : Origin P}

@[simp] private theorem ensureSigned_success {who : P.AccountId} :
    ensureSigned origin = .ok who ↔ origin = .signed who := by
  cases origin <;> simp [ensureSigned, fail]

private theorem byteCount_le (strings : List Bytes) : byteCount strings ≤ u32Max := Nat.min_le_right _ _

private theorem saturatingAdd_zero {len : Nat} (fits : len ≤ u32Max) : saturatingAdd u32Max len 0 = len :=
  saturatingAdd_of_le (by omega)

/-- An optional block adds its bytes, an absent one nothing. -/
private theorem addBlock_success {α : Type} {check : α → Fallible DispatchError Unit} {len : α → Nat}
    {before total : Nat} {block : Option α} (fits : before ≤ u32Max)
    (added : addBlock check len before block = .ok total) :
    total = saturatingAdd u32Max before ((block.map len).getD 0) ∧ total ≤ u32Max := by
  cases block with
  | none =>
    cases added
    exact ⟨(saturatingAdd_zero fits).symm, fits⟩
  | some block =>
    simp only [addBlock, bind_success] at added
    obtain ⟨_, _, same⟩ := added
    cases same
    exact ⟨rfl, Nat.min_le_right _ _⟩

/-- What was checked and priced is what is stored. -/
private theorem validateAndStoreDescriptor_success {input : NodeDescriptorInput} {stored : NodeDescriptor}
    {payloadLen : Nat} (checked : validateAndStoreDescriptor s input = .ok (stored, payloadLen)) :
    stored.deposit = descriptorDeposit P payloadLen ∧ payloadLen = stored.payloadLen := by
  cases input with
  | v1 input =>
    simp only [validateAndStoreDescriptor, validateAndStoreV1, bind_success] at checked
    obtain ⟨_, _, _, _, same⟩ := checked
    cases same
    refine ⟨rfl, ?_⟩
    have fits : descriptorPayloadLen input ≤ u32Max := byteCount_le _
    simp only [NodeDescriptor.payloadLen, storedDescriptor, NodeDescriptor.base, Option.map_none, Option.getD_none]
    rw [saturatingAdd_zero fits, saturatingAdd_zero fits]
  | v2 input =>
    simp only [validateAndStoreDescriptor, validateAndStoreV2, bind_success] at checked
    obtain ⟨_, _, _, _, surveyed, first, total, second, same⟩ := checked
    cases same
    refine ⟨rfl, ?_⟩
    obtain ⟨surveyedIs, surveyedFits⟩ := addBlock_success (byteCount_le _) first
    obtain ⟨totalIs, _⟩ := addBlock_success surveyedFits second
    rw [totalIs, surveyedIs]
    rfl

private theorem setDescriptor_move {descriptor : NodeDescriptorInput}
    (ran : setDescriptor s env origin descriptor = .ok after) : Move env s origin (.setDescriptor descriptor) after := by
  simp only [setDescriptor, bind_success, ensureSigned_success] at ran
  obtain ⟨who, rfl, ⟨stored, payloadLen⟩, checked, filed, replaced, same⟩ := ran
  simp only [fileDescriptor, bind_success] at replaced
  obtain ⟨balances, shifted, again⟩ := replaced
  cases again
  cases same
  obtain ⟨priced, charged⟩ := validateAndStoreDescriptor_success checked
  rw [charged] at priced ⊢
  exact @Move.files P env s who descriptor { stored with payloadHash := P.blake2 (descriptor.encode P.toConfig) } balances _
    shifted priced

private theorem clearDescriptor_move (ran : clearDescriptor s env origin = .ok after) :
    Move env s origin .clearDescriptor after := by
  simp only [clearDescriptor, bind_success, okOr_success, ensureSigned_success] at ran
  obtain ⟨who, rfl, descriptor, held, _, _, same⟩ := ran
  cases same
  exact .clears held

private theorem participate_move {qblockId : Nat} {kind : MinerKind} {budgetSeconds : Option Nat}
    (ran : participate s env origin qblockId kind budgetSeconds = .ok after) :
    Move env s origin (.participate qblockId kind budgetSeconds) after := by
  simp only [participate, bind_success, ensure_success, ensureSigned_success] at ran
  obtain ⟨who, rfl, _, filed, _, current, _, fresh, same⟩ := ran
  cases same
  exact .declares filed current fresh

/-- Every call that succeeds makes one move. -/
theorem execute_move {call : Call} (ran : execute s env origin call = .ok after) : Move env s origin call after := by
  cases call with
  | setDescriptor => exact setDescriptor_move ran
  | clearDescriptor => exact clearDescriptor_move ran
  | participate => exact participate_move ran

end Inversion

end QuipValidator.Registry
