import QuipValidator.Machine
import QuipValidator.RegistryMoves

/-! Participation is meant to be declared once by each account for each qblock. The
guard reads the account's latest declaration, which clearing the descriptor removes:
an account that clears and files again can declare a second time for the same qblock.
As long as no account does that, the counters are the numbers of participants. -/
namespace QuipValidator.Registry
open Fallible

variable {P : PalletConfig}

/-- The registry and the qblock numbering it reads. -/
structure World (P : PalletConfig) where
  storage : Storage P
  latestQBlockId : Option Nat

/-- A call of the registry, an advance of the qblock numbering, the next block, or a
change of balances by other code. -/
inductive Step (P : PalletConfig) where
  | dispatch (canReserve : P.AccountId → Nat → Bool) (debugAssertions : Bool) (origin : Origin P) (call : Call)
  | advance (qblocks : Nat)
  | nextBlock
  | external (balances : Balances P)

/-- A call that fails leaves the storage as it was. -/
def committed (s : Storage P) : Fallible DispatchError (Storage P) → Storage P
  | .ok after => after
  | .error _ => s

def Step.next (w : World P) : Step P → World P
  | .dispatch canReserve debugAssertions origin call =>
    let env : Env P := { latestQBlockId := w.latestQBlockId, canReserve, debugAssertions }
    { w with storage := committed w.storage (execute w.storage env origin call) }
  | .advance qblocks => { w with latestQBlockId := some (saturatingAdd u64Max (w.latestQBlockId.getD 0) qblocks) }
  | .nextBlock => { w with storage := { w.storage with blockNumber := w.storage.blockNumber + 1 } }
  | .external balances => { w with storage := { w.storage with balances } }

def machine (P : PalletConfig) : Machine (World P) (Step P) Unit where
  next w step := step.next w
  report _ _ := []

/-- No participation has been recorded and nothing has happened. -/
structure Fresh (s : Storage P) : Prop where
  latest : s.latestParticipation = ∅
  participants : s.participantsByQBlock = ∅
  counts : s.participantCountByQBlock = ∅
  events : s.events = []

/-- The pairs a history has declared, oldest first. -/
def declarations (events : List (Event P)) : List (Nat × P.AccountId) :=
  events.filterMap fun event =>
    match event with
    | .minerParticipated qblockId who _ _ => some (qblockId, who)
    | _ => none

/-- The account has cleared its descriptor after it declared for the qblock. -/
def ClearedSince (events : List (Event P)) (qblockId : Nat) (who : P.AccountId) : Prop :=
  ∃ earlier later, events = earlier ++ later ∧ (qblockId, who) ∈ declarations earlier ∧
    Event.descriptorCleared who ∈ later

/-- The steps that do not reach the gap: an account declares for a qblock only if it has
not cleared its descriptor since it last did, and the counter has room. -/
def Sound (w : World P) : Step P → Prop
  | .dispatch _ _ (.signed who) (.participate qblockId _ _) =>
    ¬ ClearedSince w.storage.events qblockId who ∧ participantCountByQBlock w.storage qblockId < u32Max
  | _ => True

/-- Every step of a run is sound where it is taken. -/
def SoundRun (w₀ : World P) (steps : List (Step P)) : Prop :=
  ∀ earlier step later, steps = earlier ++ step :: later → Sound ((machine P).run w₀ earlier) step

/-- What the counters and the guard keep as long as the steps are sound. -/
structure CountedOnce (w : World P) : Prop where
  counted : ∀ qblockId, participantCountByQBlock w.storage qblockId = (w.storage.participantsByQBlock qblockId).size
  written : (declarations w.storage.events).Nodup
  entries : ∀ qblockId who, (w.storage.participantsByQBlock.get qblockId who).isSome ↔
    (qblockId, who) ∈ declarations w.storage.events
  recent : ∀ who record, w.storage.latestParticipation.lookup who = some record →
    record.qblockId ≤ candidateQBlockId w.latestQBlockId
  remembered : ∀ qblockId who, (qblockId, who) ∈ declarations w.storage.events →
    ¬ ClearedSince w.storage.events qblockId who →
    ∃ record, w.storage.latestParticipation.lookup who = some record ∧ qblockId ≤ record.qblockId
  forgotten : ∀ qblockId who, ClearedSince w.storage.events qblockId who →
    ∀ record ∈ w.storage.latestParticipation.lookup who, record.qblockId ≠ qblockId

section History
variable {events : List (Event P)} {qblockId : Nat} {who : P.AccountId}

theorem declarations_append (earlier later : List (Event P)) :
    declarations (earlier ++ later) = declarations earlier ++ declarations later := List.filterMap_append

@[simp] theorem declarations_updated (payloadHash : Bytes) (payloadLen : Nat) :
    declarations [Event.descriptorUpdated who payloadHash payloadLen] = [] := rfl

@[simp] theorem declarations_cleared : declarations [Event.descriptorCleared who] = [] := rfl

@[simp] theorem declarations_participated (kind : MinerKind) (budgetSeconds : Option Nat) :
    declarations [Event.minerParticipated qblockId who kind budgetSeconds] = [(qblockId, who)] := rfl

theorem ClearedSince.declared (cleared : ClearedSince events qblockId who) : (qblockId, who) ∈ declarations events := by
  obtain ⟨earlier, later, rfl, declared, _⟩ := cleared
  rw [declarations_append]
  exact List.mem_append_left _ declared

/-- One more event matters only if it clears a descriptor after a declaration. -/
theorem clearedSince_concat {event : Event P} : ClearedSince (events ++ [event]) qblockId who ↔
    ClearedSince events qblockId who ∨ (event = .descriptorCleared who ∧ (qblockId, who) ∈ declarations events) := by
  constructor
  · rintro ⟨earlier, later, split, declared, cleared⟩
    rcases later.eq_nil_or_concat with rfl | ⟨front, last, rfl⟩
    · cases cleared
    rw [List.concat_eq_append, ← List.append_assoc] at split
    obtain ⟨rfl, same⟩ := List.append_inj' split rfl
    obtain rfl := List.singleton_inj.mp same
    rw [List.concat_eq_append, List.mem_append, List.mem_singleton] at cleared
    rcases cleared with before | now
    · exact .inl ⟨earlier, front, rfl, declared, before⟩
    · refine .inr ⟨now.symm, ?_⟩
      rw [declarations_append]
      exact List.mem_append_left _ declared
  · rintro (⟨earlier, later, rfl, declared, cleared⟩ | ⟨rfl, declared⟩)
    · exact ⟨earlier, later ++ [event], List.append_assoc _ _ _, declared, List.mem_append_left _ cleared⟩
    · exact ⟨events, [.descriptorCleared who], rfl, declared, List.mem_singleton_self _⟩

/-- An event that clears nothing leaves the cleared declarations as they were. -/
private theorem clearedSince_kept {event : Event P} (clears : event ≠ .descriptorCleared who) :
    ClearedSince (events ++ [event]) qblockId who ↔ ClearedSince events qblockId who := by
  rw [clearedSince_concat]
  simp [clears]

private theorem mem_declarations_concat {probe : Nat} {account : P.AccountId} {kind : MinerKind}
    {budgetSeconds : Option Nat} :
    (probe, account) ∈ declarations (events ++ [.minerParticipated qblockId who kind budgetSeconds]) ↔
      (probe, account) ∈ declarations events ∨ (probe = qblockId ∧ account = who) := by
  rw [declarations_append, declarations_participated, List.mem_append, List.mem_singleton, Prod.mk.injEq]

end History

/-- A call that takes effect is one of the moves. -/
theorem committed_move (s : Storage P) (env : Env P) (origin : Origin P) (call : Call) :
    committed s (execute s env origin call) = s ∨ Move env s origin call (committed s (execute s env origin call)) := by
  cases ran : execute s env origin call with
  | error fault => exact .inl rfl
  | ok after => exact .inr (execute_move ran)

section Steps
variable {w : World P}

/-- The guard of `participate` catches a second declaration unless the first one was
dropped by a clear. -/
private theorem CountedOnce.caught (held : CountedOnce w) {qblockId : Nat} {who : P.AccountId}
    (declared : (qblockId, who) ∈ declarations w.storage.events)
    (current : qblockId = candidateQBlockId w.latestQBlockId) :
    (∀ record ∈ w.storage.latestParticipation.lookup who, record.qblockId ≠ qblockId) ↔
      ClearedSince w.storage.events qblockId who := by
  constructor
  · intro fresh
    by_contra kept
    obtain ⟨record, found, later⟩ := held.remembered qblockId who declared kept
    have bound := held.recent who record found
    exact fresh record found (by omega)
  · exact fun cleared => held.forgotten qblockId who cleared

private theorem CountedOnce.filed (held : CountedOnce w) {balances : Balances P}
    {nodeDescriptors : StorageMap P.AccountId NodeDescriptor} {who : P.AccountId} {payloadHash : Bytes}
    {payloadLen : Nat} :
    CountedOnce { w with storage := { w.storage with
      balances, nodeDescriptors, events := w.storage.events ++ [.descriptorUpdated who payloadHash payloadLen] } } := by
  have same : ∀ qblockId account, ClearedSince (w.storage.events ++ [.descriptorUpdated who payloadHash payloadLen])
      qblockId account ↔ ClearedSince w.storage.events qblockId account :=
    fun _ _ => clearedSince_kept (by simp)
  constructor
  · exact held.counted
  · simpa [declarations_append] using held.written
  · simpa [declarations_append] using held.entries
  · exact held.recent
  · simpa [declarations_append, same] using held.remembered
  · simpa [same] using held.forgotten

private theorem CountedOnce.cleared (held : CountedOnce w) {balances : Balances P}
    {nodeDescriptors : StorageMap P.AccountId NodeDescriptor} {who : P.AccountId} :
    CountedOnce { w with storage := { w.storage with
      balances, nodeDescriptors
      latestParticipation := w.storage.latestParticipation.erase who
      events := w.storage.events ++ [.descriptorCleared who] } } := by
  constructor
  · exact held.counted
  · simpa [declarations_append] using held.written
  · simpa [declarations_append] using held.entries
  · intro account record found
    rw [StorageMap.lookup_erase_ite] at found
    split at found
    · cases found
    · exact held.recent account record found
  · intro qblockId account declared kept
    have before : (qblockId, account) ∈ declarations w.storage.events := by
      simpa [declarations_append] using declared
    rw [clearedSince_concat, not_or] at kept
    have other : account ≠ who := by
      rintro rfl
      exact kept.2 ⟨rfl, before⟩
    obtain ⟨record, found, later⟩ := held.remembered qblockId account before kept.1
    refine ⟨record, ?_, later⟩
    rw [StorageMap.lookup_erase_ite, if_neg other]
    exact found
  · intro qblockId account cleared record found
    rw [StorageMap.lookup_erase_ite] at found
    by_cases same : account = who
    · rw [if_pos same] at found
      cases found
    · rw [if_neg same] at found
      rw [clearedSince_concat] at cleared
      rcases cleared with before | ⟨now, _⟩
      · exact held.forgotten qblockId account before record found
      · cases now
        exact absurd rfl same

/-- What was not declared has no entry, so the new entry is one more. -/
private theorem CountedOnce.counted_declared (held : CountedOnce w) {who : P.AccountId} {qblockId : Nat}
    (record : ParticipationRecord) (absent : w.storage.participantsByQBlock.get qblockId who = none)
    (room : participantCountByQBlock w.storage qblockId < u32Max) (probe : Nat) :
    ((w.storage.participantCountByQBlock.insert qblockId
        (saturatingAdd u32Max (participantCountByQBlock w.storage qblockId) 1)).lookup probe).getD 0 =
      (w.storage.participantsByQBlock.insert qblockId who record probe).size := by
  have grown : saturatingAdd u32Max (participantCountByQBlock w.storage qblockId) 1 =
      (w.storage.participantsByQBlock qblockId).size + 1 := by
    rw [saturatingAdd_of_le (by omega), held.counted]
  rw [StorageMap.lookup_insert_ite, StorageDoubleMap.insert_apply, grown]
  by_cases same : probe = qblockId
  · rw [if_pos same, if_pos same, Option.getD_some, StorageMap.size_insert_new absent]
  · rw [if_neg same, if_neg same]
    exact held.counted probe

/-- The new record is the account's latest, and not older than what it replaces. -/
private theorem CountedOnce.remembered_declared (held : CountedOnce w) {who account : P.AccountId} {qblockId probe : Nat}
    {record : ParticipationRecord} (named : record.qblockId = qblockId)
    (current : qblockId = candidateQBlockId w.latestQBlockId)
    (before : (probe, account) ∈ declarations w.storage.events ∨ (probe = qblockId ∧ account = who))
    (uncleared : ¬ ClearedSince w.storage.events probe account) :
    ∃ latest, (w.storage.latestParticipation.insert who record).lookup account = some latest ∧ probe ≤ latest.qblockId := by
  rw [StorageMap.lookup_insert_ite]
  rcases before with before | ⟨rfl, rfl⟩
  · obtain ⟨earlier, found, later⟩ := held.remembered probe account before uncleared
    by_cases same : account = who
    · refine ⟨record, if_pos same, ?_⟩
      have bound := held.recent account earlier found
      omega
    · exact ⟨earlier, by rw [if_neg same]; exact found, later⟩
  · exact ⟨record, if_pos rfl, named.ge⟩

private theorem CountedOnce.declared (held : CountedOnce w) {who : P.AccountId} {qblockId : Nat} {kind : MinerKind}
    {budgetSeconds : Option Nat} (current : qblockId = candidateQBlockId w.latestQBlockId)
    (fresh : ∀ record ∈ w.storage.latestParticipation.lookup who, record.qblockId ≠ qblockId)
    (kept : ¬ ClearedSince w.storage.events qblockId who)
    (room : participantCountByQBlock w.storage qblockId < u32Max) :
    CountedOnce { w with storage := { w.storage with
      latestParticipation := w.storage.latestParticipation.insert who ⟨qblockId, kind, budgetSeconds, w.storage.blockNumber⟩
      participantsByQBlock :=
        w.storage.participantsByQBlock.insert qblockId who ⟨qblockId, kind, budgetSeconds, w.storage.blockNumber⟩
      participantCountByQBlock := w.storage.participantCountByQBlock.insert qblockId
        (saturatingAdd u32Max (participantCountByQBlock w.storage qblockId) 1)
      events := w.storage.events ++ [.minerParticipated qblockId who kind budgetSeconds] } } := by
  have undeclared : (qblockId, who) ∉ declarations w.storage.events :=
    fun declared => kept ((held.caught declared current).mp fresh)
  have absent : w.storage.participantsByQBlock.get qblockId who = none := by
    rw [← Option.not_isSome_iff_eq_none, held.entries]
    exact undeclared
  have clearedSame : ∀ probe account, ClearedSince
      (w.storage.events ++ [.minerParticipated qblockId who kind budgetSeconds]) probe account ↔
      ClearedSince w.storage.events probe account := fun _ _ => clearedSince_kept (by simp)
  constructor
  · exact held.counted_declared _ absent room
  · rw [declarations_append, declarations_participated, List.nodup_append]
    refine ⟨held.written, List.nodup_singleton _, ?_⟩
    intro declared before pair now
    rw [List.mem_singleton] at now
    rintro rfl
    rw [now] at before
    exact undeclared before
  · intro probe account
    rw [StorageDoubleMap.get_insert, mem_declarations_concat, ← held.entries]
    by_cases same : probe = qblockId ∧ account = who
    · simp [same]
    · rw [if_neg same]
      simp [same]
  · intro account record found
    rw [StorageMap.lookup_insert_ite] at found
    split at found
    · cases found
      exact current.le
    · exact held.recent account record found
  · intro probe account before uncleared
    rw [clearedSame] at uncleared
    exact held.remembered_declared (by rfl) current (mem_declarations_concat.mp before) uncleared
  · intro probe account cleared record found
    rw [clearedSame] at cleared
    rw [StorageMap.lookup_insert_ite] at found
    by_cases same : account = who
    · rw [if_pos same] at found
      cases found
      rintro rfl
      rw [same] at cleared
      exact kept cleared
    · rw [if_neg same] at found
      exact held.forgotten probe account cleared record found

theorem CountedOnce.move (held : CountedOnce w) {canReserve : P.AccountId → Nat → Bool} {debugAssertions : Bool}
    {origin : Origin P} {call : Call} {after : Storage P}
    (sound : Sound w (.dispatch canReserve debugAssertions origin call))
    (move : Move ⟨w.latestQBlockId, canReserve, debugAssertions⟩ w.storage origin call after) :
    CountedOnce { w with storage := after } := by
  cases move with
  | files => exact held.filed
  | clears => exact held.cleared
  | declares _ current fresh => exact held.declared current fresh sound.1 sound.2

/-- A sound step keeps the counters. -/
theorem CountedOnce.step (held : CountedOnce w) (step : Step P) (sound : Sound w step) : CountedOnce (step.next w) := by
  cases step with
  | dispatch canReserve debugAssertions origin call =>
    rcases committed_move w.storage ⟨w.latestQBlockId, canReserve, debugAssertions⟩ origin call with same | move
    · simp only [Step.next, same]
      exact held
    · exact held.move sound move
  | advance qblocks =>
    refine { held with recent := ?_ }
    intro who record found
    refine (held.recent who record found).trans ?_
    simp only [Step.next, candidateQBlockId, Option.getD_some, saturatingAdd]
    omega
  | nextBlock => exact { held with }
  | external balances => exact { held with }

end Steps

theorem SoundRun.cons {w₀ : World P} {step : Step P} {rest : List (Step P)} (first : Sound w₀ step)
    (later : SoundRun (step.next w₀) rest) : SoundRun w₀ (step :: rest) := by
  intro earlier mid after split
  cases earlier with
  | nil =>
    cases split
    exact first
  | cons head tail =>
    cases split
    exact later tail mid after rfl

theorem SoundRun.nil (w₀ : World P) : SoundRun w₀ [] := by
  intro earlier mid after split
  cases earlier <;> cases split

/-- A small runtime: accounts are numbers. -/
def tinyPallet : PalletConfig where
  AccountId := Nat
  decEqAccountId := inferInstance
  maxNodeIdBytes := 4
  maxNodeNameBytes := 4
  maxPublicHostBytes := 4
  maxRpcEndpointBytes := 4
  maxRpcEndpoints := 1
  maxMinerLabelBytes := 4
  maxMinerBackendBytes := 4
  maxMinerDeviceIdBytes := 4
  maxMinerSpecs := 1
  maxOsStringBytes := 4
  maxCpuBrandBytes := 4
  maxArchBytes := 4
  maxGpuVendorBytes := 4
  maxGpuNameBytes := 4
  maxGpus := 1
  maxRuntimeVersionBytes := 4
  maxDockerImageBytes := 4
  descriptorDepositBase := 10
  descriptorDepositPerByte := 1
  blake2 := fun bytes => bytes.take 1

def tinyMiner : tinyPallet.AccountId := (7 : Nat)

/-- An empty registry, with a balance of 100 for every account. -/
def tinyWorld : World tinyPallet where
  storage :=
    { blockNumber := 1
      nodeDescriptors := ∅
      latestParticipation := ∅
      participantsByQBlock := ∅
      participantCountByQBlock := ∅
      events := []
      balances := { free := fun _ => 100, reserved := fun _ => 0 } }
  latestQBlockId := none

theorem tinyWorld_fresh : Fresh tinyWorld.storage := ⟨rfl, rfl, rfl, rfl⟩

def tinyPayload : NodeDescriptorInput :=
  .v1 { nodeId := [1], nodeName := [2], publicHost := none, publicPort := none, rpcEndpoints := [], autoMine := true,
        logLevel := .info, miners := [⟨.cpu, none, none, none⟩] }

/-- A call of the small miner. -/
def tinyCall (call : Call) : Step tinyPallet := .dispatch (fun _ _ => true) true (.signed tinyMiner) call

/-- File, declare, and go on to the next qblock. -/
def tinyRun : List (Step tinyPallet) :=
  [tinyCall (.setDescriptor tinyPayload), tinyCall (.participate 1 .cpu none), .advance 1]

end QuipValidator.Registry
