import QuipValidator.Participation
import QuipValidator.PowRounds

/-! The miner registry on top of the proof-of-work pallet. The registry takes the current
qblock from the pallet's counter, which moves at the end of a block, after its calls; so
the blocks in which one can declare for a qblock are those after the previous qblock's
up to its own. -/
namespace QuipValidator.Windows
open Fallible Registry

variable {T : Pow.Config} {P : PalletConfig}

/-- The two pallets inside a block. -/
structure World (T : Pow.Config) (P : PalletConfig) where
  pow : Pow.State T
  registry : Storage P

/-- Inside a block: anything the proof-of-work pallet does, a call of the registry, or a
change of the registry's balances by other code. `turn` ends the block and begins the next. -/
inductive Input (T : Pow.Config) (P : PalletConfig) where
  | pow (action : Pow.Action T)
  | registry (canReserve : P.AccountId → Nat → Bool) (debugAssertions : Bool) (origin : Origin P) (call : Call)
  | external (balances : Balances P)
  | turn (pay : T.AccountId → Nat → Nat) (skipped : Nat) (parentHash : T.Hash)

/-- `on_finalize` of the proof-of-work pallet; it never fails. -/
def finish (s : Pow.State T) (pay : T.AccountId → Nat → Nat) : Pow.State T :=
  Pow.committed s (Pow.onFinalize s pay s.blockNumber)

/-- The first moment of the block after a finished one. -/
def beginBlock (w : World T P) (skipped : Nat) (parentHash : T.Hash) : World T P :=
  let pow := Pow.initialised w.pow { skipped, parentHash, actions := [], pay := fun _ _ => 0 }
  { pow, registry := { w.registry with blockNumber := pow.blockNumber } }

/-- What the registry sees of the rest of the runtime. -/
def World.env (w : World T P) (canReserve : P.AccountId → Nat → Bool) (debugAssertions : Bool) : Env P :=
  { latestQBlockId := Pow.latestQblockId w.pow, canReserve, debugAssertions }

/-- `candidate_qblock_id` as the runtime wires it. -/
def World.candidate (w : World T P) : Nat := candidateQBlockId (Pow.latestQblockId w.pow)

def Input.next (w : World T P) : Input T P → World T P
  | .pow action => { w with pow := (Pow.body T).next w.pow action }
  | .registry canReserve debugAssertions origin call =>
    { w with registry := committed w.registry (execute w.registry (w.env canReserve debugAssertions) origin call) }
  | .external balances => { w with registry := { w.registry with balances } }
  | .turn pay skipped parentHash => beginBlock { w with pow := finish w.pow pay } skipped parentHash

def machine (T : Pow.Config) (P : PalletConfig) : Machine (World T P) (Input T P) Unit where
  next w input := input.next w
  report _ _ := []

/-- The input is not a `clear_descriptor` of the account. -/
def Keeps (who : P.AccountId) : Input T P → Prop
  | .registry _ _ origin .clearDescriptor => origin ≠ .signed who
  | _ => True

/-- Where a stored declaration lies: its qblock is past or current, the previous qblock is
of an earlier block, and its own, once it exists, of no earlier one. -/
structure InWindow (s : Pow.State T) (qblockId : Nat) (record : ParticipationRecord) : Prop where
  first : 1 ≤ qblockId
  current : qblockId ≤ s.qblockCount + 1
  after : 1 < qblockId → ∃ n, Pow.qblockBlockById s (qblockId - 1) = some n ∧ n < record.updatedAt
  upTo : ∀ n, Pow.qblockBlockById s qblockId = some n → record.updatedAt ≤ n

/-- The qblock counter and index inside a block: every id up to the counter has a block,
an earlier one, and no other id has one. -/
structure Numbered (s : Pow.State T) : Prop where
  few : s.qblockCount < s.blockNumber
  given : ∀ id, 1 ≤ id → id ≤ s.qblockCount → ∃ n, Pow.qblockBlockById s id = some n ∧ n < s.blockNumber
  ungiven : ∀ id n, Pow.qblockBlockById s id = some n → id ≤ s.qblockCount

/-- The invariant inside a block. -/
structure Placed (w : World T P) : Prop where
  sameBlock : w.registry.blockNumber = w.pow.blockNumber
  numbered : Numbered w.pow
  windows : ∀ qblockId who record, w.registry.participantsByQBlock.get qblockId who = some record →
    InWindow w.pow qblockId record
  past : ∀ qblockId who record, w.registry.participantsByQBlock.get qblockId who = some record →
    record.updatedAt ≤ w.pow.blockNumber
  latest : ∀ who record, w.registry.latestParticipation.lookup who = some record → record.qblockId ≤ w.candidate

section Pow
variable {s s' : Pow.State T}

/-- Nothing inside a block moves the counter, the index or the block number. -/
theorem body_keeps_index (s : Pow.State T) (action : Pow.Action T) :
    ((Pow.body T).next s action).blockNumber = s.blockNumber ∧
      ((Pow.body T).next s action).qblockCount = s.qblockCount ∧
      ((Pow.body T).next s action).qblockBlockById = s.qblockBlockById := by
  rcases Pow.body_cases s action with ⟨_, _, _, _, _, next, _⟩ | ⟨_, ⟨_, next⟩ | ⟨_, _, _, aside⟩⟩
  · rw [next]
    exact ⟨rfl, rfl, rfl⟩
  · rw [next]
    exact ⟨rfl, rfl, rfl⟩
  · exact ⟨aside.blockNumber, aside.qblockCount, aside.qblockBlockById⟩

/-- The end of a block: nothing, or one more qblock at this block. -/
theorem finish_cases (s : Pow.State T) (pay : T.AccountId → Nat → Nat) :
    finish s pay = s ∨ ((finish s pay).blockNumber = s.blockNumber ∧
      (finish s pay).qblockCount = Pow.nextQblockId s ∧
      (finish s pay).qblockBlockById = s.qblockBlockById.insert (Pow.nextQblockId s) s.blockNumber) := by
  obtain ⟨after, ran, ended⟩ := Pow.onFinalize_cases s pay s.blockNumber
  have same : finish s pay = after := by
    simp only [finish, ran, Pow.committed]
  rw [same]
  rcases ended with ⟨_, kept⟩ | ⟨_, _, _, settled⟩
  · exact .inl kept
  · exact .inr ⟨settled.blockNumber, settled.qblockCount, settled.qblockBlockById⟩

theorem nextQblockId_eq (numbered : Numbered s) (fits : s.blockNumber ≤ u64Max) :
    Pow.nextQblockId s = s.qblockCount + 1 := by
  have few := numbered.few
  exact saturatingAdd_of_le (by omega)

theorem candidate_eq (numbered : Numbered s) (fits : s.blockNumber ≤ u64Max) :
    candidateQBlockId (Pow.latestQblockId s) = s.qblockCount + 1 := by
  have few := numbered.few
  have count : (Pow.latestQblockId s).getD 0 = s.qblockCount := by
    unfold Pow.latestQblockId
    split
    · rfl
    · simp only [Option.getD_none]
      omega
  rw [candidateQBlockId, count]
  exact saturatingAdd_of_le (by omega)

theorem InWindow.same_index {qblockId : Nat} {record : ParticipationRecord} (window : InWindow s qblockId record)
    (count : s'.qblockCount = s.qblockCount) (index : s'.qblockBlockById = s.qblockBlockById) :
    InWindow s' qblockId record := by
  have byId : ∀ id, Pow.qblockBlockById s' id = Pow.qblockBlockById s id := by
    intro id
    rw [Pow.qblockBlockById, index, Pow.qblockBlockById]
  refine ⟨window.first, by rw [count]; exact window.current, ?_, ?_⟩
  · intro later
    rw [byId]
    exact window.after later
  · intro n found
    rw [byId] at found
    exact window.upTo n found

theorem Numbered.same_index (numbered : Numbered s) (number : s'.blockNumber = s.blockNumber)
    (count : s'.qblockCount = s.qblockCount) (index : s'.qblockBlockById = s.qblockBlockById) : Numbered s' := by
  refine ⟨by rw [count, number]; exact numbered.few, ?_, ?_⟩
  · rw [count, number]
    simp only [Pow.qblockBlockById, index]
    exact numbered.given
  · rw [count]
    simp only [Pow.qblockBlockById, index]
    exact numbered.ungiven

/-- The counter and the index once a block is finished: the same, or one more qblock. -/
private theorem finish_index (numbered : Numbered s) (fits : s.blockNumber ≤ u64Max) (pay : T.AccountId → Nat → Nat) :
    (finish s pay).blockNumber = s.blockNumber ∧
      (((finish s pay).qblockCount = s.qblockCount ∧
        ∀ id, Pow.qblockBlockById (finish s pay) id = Pow.qblockBlockById s id) ∨
      ((finish s pay).qblockCount = s.qblockCount + 1 ∧ ∀ id, Pow.qblockBlockById (finish s pay) id =
        if id = s.qblockCount + 1 then some s.blockNumber else Pow.qblockBlockById s id)) := by
  rcases finish_cases s pay with same | ⟨number, count, index⟩
  · rw [same]
    exact ⟨rfl, .inl ⟨rfl, fun _ => rfl⟩⟩
  · rw [nextQblockId_eq numbered fits] at count index
    refine ⟨number, .inr ⟨count, fun id => ?_⟩⟩
    rw [Pow.qblockBlockById, index, StorageMap.lookup_insert_ite]
    rfl

/-- The end of a block closes the window of the current qblock at that block. -/
theorem InWindow.finish {qblockId : Nat} {record : ParticipationRecord} (window : InWindow s qblockId record)
    (numbered : Numbered s) (fits : s.blockNumber ≤ u64Max) (past : record.updatedAt ≤ s.blockNumber)
    (pay : T.AccountId → Nat → Nat) : InWindow (Windows.finish s pay) qblockId record := by
  have current := window.current
  rcases (finish_index numbered fits pay).2 with ⟨count, index⟩ | ⟨count, index⟩
  · refine ⟨window.first, by rw [count]; exact current, ?_, ?_⟩
    · rw [index]
      exact window.after
    · rw [index]
      exact window.upTo
  · refine ⟨window.first, by rw [count]; omega, ?_, ?_⟩
    · intro later
      rw [index, if_neg (by omega)]
      exact window.after later
    · intro n found
      rw [index] at found
      split at found
      · cases found
        exact past
      · exact window.upTo n found

/-- The index at the start of a block that follows. -/
theorem Numbered.begun (numbered : Numbered s) (fits : s.blockNumber ≤ u64Max) (pay : T.AccountId → Nat → Nat)
    (number : s.blockNumber < s'.blockNumber) (count : s'.qblockCount = (Windows.finish s pay).qblockCount)
    (index : s'.qblockBlockById = (Windows.finish s pay).qblockBlockById) : Numbered s' := by
  have few := numbered.few
  have byId : ∀ id, Pow.qblockBlockById s' id = Pow.qblockBlockById (Windows.finish s pay) id := by
    intro id
    rw [Pow.qblockBlockById, index, Pow.qblockBlockById]
  rcases (finish_index numbered fits pay).2 with ⟨same, lookup⟩ | ⟨same, lookup⟩
  · rw [same] at count
    refine ⟨by omega, ?_, ?_⟩
    · intro id positive within
      obtain ⟨n, found, earlier⟩ := numbered.given id positive (by omega)
      exact ⟨n, by rw [byId, lookup]; exact found, by omega⟩
    · intro id n found
      rw [byId, lookup] at found
      rw [count]
      exact numbered.ungiven id n found
  · rw [same] at count
    refine ⟨by omega, ?_, ?_⟩
    · intro id positive within
      rw [byId, lookup]
      by_cases newest : id = s.qblockCount + 1
      · exact ⟨s.blockNumber, if_pos newest, number⟩
      · obtain ⟨n, found, earlier⟩ := numbered.given id positive (by omega)
        exact ⟨n, by rw [if_neg newest]; exact found, by omega⟩
    · intro id n found
      rw [byId, lookup] at found
      split at found
      · omega
      · have bound := numbered.ungiven id n found
        omega

end Pow

section Steps
variable {w : World T P}

private theorem beginBlock_index (w : World T P) (skipped : Nat) (parentHash : T.Hash) :
    (beginBlock w skipped parentHash).pow.blockNumber = w.pow.blockNumber + skipped + 1 ∧
      (beginBlock w skipped parentHash).pow.qblockCount = w.pow.qblockCount ∧
      (beginBlock w skipped parentHash).pow.qblockBlockById = w.pow.qblockBlockById := by
  have begun := Pow.initialised_spec w.pow { skipped, parentHash, actions := [], pay := fun _ _ => 0 }
  exact ⟨begun.blockNumber, begun.qblockCount, begun.qblockBlockById⟩

/-- The first block of a chain without qblocks and participations. -/
theorem placed_first {s₀ : Pow.State T} {r₀ : Storage P} (fresh : Pow.NoQBlocks s₀) (unused : Fresh r₀) (skipped : Nat)
    (parentHash : T.Hash) : Placed (beginBlock ⟨s₀, r₀⟩ skipped parentHash) := by
  obtain ⟨number, count, index⟩ := beginBlock_index ⟨s₀, r₀⟩ skipped parentHash
  have zero : (beginBlock ⟨s₀, r₀⟩ skipped parentHash).pow.qblockCount = 0 := count.trans fresh.qblockCount
  constructor
  · rfl
  · refine ⟨by rw [zero, number]; omega, ?_, ?_⟩
    · intro id positive within
      rw [zero] at within
      omega
    · intro id n found
      rw [Pow.qblockBlockById, index, fresh.qblockBlockById] at found
      cases found
  · intro qblockId who record stored
    simp [beginBlock, unused.participants] at stored
  · intro qblockId who record stored
    simp [beginBlock, unused.participants] at stored
  · intro who record found
    simp [beginBlock, unused.latest] at found

private theorem Placed.act (placed : Placed w) (action : Pow.Action T) :
    Placed { w with pow := (Pow.body T).next w.pow action } := by
  obtain ⟨number, count, index⟩ := body_keeps_index w.pow action
  have candidate : Pow.latestQblockId ((Pow.body T).next w.pow action) = Pow.latestQblockId w.pow := by
    rw [Pow.latestQblockId, count, Pow.latestQblockId]
  constructor
  · exact placed.sameBlock.trans number.symm
  · exact placed.numbered.same_index number count index
  · exact fun qblockId who record stored => (placed.windows qblockId who record stored).same_index count index
  · intro qblockId who record stored
    rw [number]
    exact placed.past qblockId who record stored
  · intro who record found
    rw [World.candidate, candidate]
    exact placed.latest who record found

private theorem Placed.move (placed : Placed w) (fits : w.pow.blockNumber ≤ u64Max)
    {canReserve : P.AccountId → Nat → Bool} {debugAssertions : Bool} {origin : Origin P} {call : Call}
    {after : Storage P} (move : Move (w.env canReserve debugAssertions) w.registry origin call after) :
    Placed { w with registry := after } := by
  cases move with
  | files => exact { placed with }
  | clears =>
    refine { placed with latest := ?_ }
    intro who record found
    rw [StorageMap.lookup_erase_ite] at found
    split at found
    · cases found
    · exact placed.latest who record found
  | @declares who qblockId kind budgetSeconds _ current _ =>
    have current : qblockId = w.pow.qblockCount + 1 := by
      rw [current, World.env, candidate_eq placed.numbered fits]
    have opened : InWindow w.pow qblockId ⟨qblockId, kind, budgetSeconds, w.registry.blockNumber⟩ := by
      refine ⟨by omega, by omega, ?_, ?_⟩
      · intro later
        obtain ⟨n, found, earlier⟩ := placed.numbered.given (qblockId - 1) (by omega) (by omega)
        exact ⟨n, found, by rw [placed.sameBlock]; exact earlier⟩
      · intro n found
        have bound := placed.numbered.ungiven qblockId n found
        omega
    refine ⟨placed.sameBlock, placed.numbered, ?_, ?_, ?_⟩
    · intro probe account record stored
      rw [StorageDoubleMap.get_insert] at stored
      split at stored
      · rename_i same
        cases stored
        rw [same.1]
        exact opened
      · exact placed.windows probe account record stored
    · intro probe account record stored
      rw [StorageDoubleMap.get_insert] at stored
      split at stored
      · cases stored
        exact placed.sameBlock.le
      · exact placed.past probe account record stored
    · intro account record found
      rw [StorageMap.lookup_insert_ite] at found
      split at found
      · cases found
        exact (current.trans (candidate_eq placed.numbered fits).symm).le
      · exact placed.latest account record found

private theorem Placed.turn (placed : Placed w) (fits : w.pow.blockNumber ≤ u64Max) (pay : T.AccountId → Nat → Nat)
    (skipped : Nat) (parentHash : T.Hash)
    (later : (beginBlock { w with pow := finish w.pow pay } skipped parentHash).pow.blockNumber ≤ u64Max) :
    Placed (beginBlock { w with pow := finish w.pow pay } skipped parentHash) := by
  obtain ⟨number, count, index⟩ := beginBlock_index { w with pow := finish w.pow pay } skipped parentHash
  have ended := (finish_index placed.numbered fits pay).1
  have numbered : Numbered (beginBlock { w with pow := finish w.pow pay } skipped parentHash).pow := by
    refine placed.numbered.begun fits pay ?_ count index
    rw [number, ended]
    omega
  constructor
  · rfl
  · exact numbered
  · intro qblockId who record stored
    have closed := (placed.windows qblockId who record stored).finish placed.numbered fits
      (placed.past qblockId who record stored) pay
    exact closed.same_index count index
  · intro qblockId who record stored
    have past := placed.past qblockId who record stored
    rw [number, ended]
    omega
  · intro who record found
    have bound := placed.latest who record found
    rw [World.candidate, candidate_eq placed.numbered fits] at bound
    rw [World.candidate, candidate_eq numbered later, count]
    refine bound.trans ?_
    rcases (finish_index placed.numbered fits pay).2 with ⟨same, _⟩ | ⟨same, _⟩ <;> simp only [same] <;> omega

theorem blockNumber_le_next (w : World T P) (input : Input T P) : w.pow.blockNumber ≤ (input.next w).pow.blockNumber := by
  cases input with
  | pow action => exact (body_keeps_index w.pow action).1.ge
  | registry => exact Nat.le_refl _
  | external => exact Nat.le_refl _
  | turn pay skipped parentHash =>
    have number := (beginBlock_index { w with pow := finish w.pow pay } skipped parentHash).1
    have ended : (finish w.pow pay).blockNumber = w.pow.blockNumber := by
      rcases finish_cases w.pow pay with same | ⟨number, _⟩
      · rw [same]
      · exact number
    simp only [Input.next, number, ended]
    omega

theorem Placed.next (placed : Placed w) (input : Input T P) (fits : (input.next w).pow.blockNumber ≤ u64Max) :
    Placed (input.next w) := by
  have before : w.pow.blockNumber ≤ u64Max := (blockNumber_le_next w input).trans fits
  cases input with
  | pow action => exact placed.act action
  | registry canReserve debugAssertions origin call =>
    rcases committed_move w.registry (w.env canReserve debugAssertions) origin call with same | move
    · simp only [Input.next, same]
      exact placed
    · exact placed.move before move
  | external => exact { placed with }
  | turn pay skipped parentHash => exact placed.turn before pay skipped parentHash fits

/-- Only a `clear_descriptor` of the account makes its latest qblock go back. -/
theorem Placed.latest_grows (placed : Placed w) {input : Input T P} {who : P.AccountId} (keeps : Keeps who input) {record : ParticipationRecord}
    (found : w.registry.latestParticipation.lookup who = some record) :
    ∃ later, (input.next w).registry.latestParticipation.lookup who = some later ∧ record.qblockId ≤ later.qblockId := by
  cases input with
  | pow | external | turn => exact ⟨record, found, Nat.le_refl _⟩
  | registry canReserve debugAssertions origin call =>
    simp only [Input.next]
    rcases committed_move w.registry (w.env canReserve debugAssertions) origin call with same | move
    · rw [same]
      exact ⟨record, found, Nat.le_refl _⟩
    generalize committed w.registry (execute w.registry (w.env canReserve debugAssertions) origin call) = after at move ⊢
    cases move with
    | files => exact ⟨record, found, Nat.le_refl _⟩
    | @clears caller _ _ =>
      have other : who ≠ caller := fun same => keeps (by rw [same])
      exact ⟨record, by rw [StorageMap.lookup_erase_ite, if_neg other]; exact found, Nat.le_refl _⟩
    | @declares caller qblockId kind budgetSeconds _ current _ =>
      rw [StorageMap.lookup_insert_ite]
      by_cases same : who = caller
      · refine ⟨_, if_pos same, ?_⟩
        exact (placed.latest who record found).trans current.ge
      · exact ⟨record, by rw [if_neg same]; exact found, Nat.le_refl _⟩

end Steps

theorem run_placed {w₀ : World T P} (placed : Placed w₀) (inputs : List (Input T P))
    (fits : ((machine T P).run w₀ inputs).pow.blockNumber ≤ u64Max) : Placed ((machine T P).run w₀ inputs) := by
  refine @Machine.run_relation _ _ _ (machine T P) (fun w => w.pow.blockNumber ≤ u64Max) (fun _ w => Placed w) w₀ ?_
    placed ?_ inputs fits
  · exact fun w input later => (blockNumber_le_next w input).trans later
  · exact fun w _ input held later => held.next input later

/-- Between two clears the latest qblock of an account never goes back. -/
private theorem run_latest_grows {w : World T P} (placed : Placed w) {who : P.AccountId} (later : List (Input T P))
    (keeps : ∀ input ∈ later, Keeps who input) (fits : ((machine T P).run w later).pow.blockNumber ≤ u64Max)
    {record : ParticipationRecord} (found : w.registry.latestParticipation.lookup who = some record) :
    ∃ newest, ((machine T P).run w later).registry.latestParticipation.lookup who = some newest ∧
      record.qblockId ≤ newest.qblockId := by
  induction later generalizing w record with
  | nil => exact ⟨record, found, Nat.le_refl _⟩
  | cons input rest ih =>
    have soon : (input.next w).pow.blockNumber ≤ u64Max :=
      (machine T P).guard_backwards (fun w input later => (blockNumber_le_next w input).trans later) fits
    obtain ⟨next, held, grown⟩ := placed.latest_grows (keeps input List.mem_cons_self) found
    obtain ⟨newest, last, more⟩ := ih (placed.next input soon)
      (fun input member => keeps input (List.mem_cons_of_mem _ member)) fits held
    exact ⟨newest, last, grown.trans more⟩

/-- The participation windows, at any moment of any chain from a fresh genesis (block
numbers are at most `u32`, so they stay below `2 ^ 64`): every stored declaration is in
the window of its qblock, also once the running block is finished; the latest qblock of
an account is at most the current one, and does not go back between two clears. -/
theorem participation_windows {s₀ : Pow.State T} {r₀ : Storage P} (fresh : Pow.NoQBlocks s₀) (unused : Fresh r₀)
    (skipped : Nat) (parentHash : T.Hash) (inputs : List (Input T P)) {w : World T P}
    (ran : (machine T P).run (beginBlock ⟨s₀, r₀⟩ skipped parentHash) inputs = w)
    (fits : w.pow.blockNumber ≤ u64Max) :
    (∀ qblockId who record, w.registry.participantsByQBlock.get qblockId who = some record →
      InWindow w.pow qblockId record ∧ ∀ pay, InWindow (finish w.pow pay) qblockId record) ∧
    (∀ who record, w.registry.latestParticipation.lookup who = some record → record.qblockId ≤ w.candidate) ∧
    ∀ who later record, (∀ input ∈ later, Keeps who input) →
      ((machine T P).run w later).pow.blockNumber ≤ u64Max →
      w.registry.latestParticipation.lookup who = some record →
      ∃ newest, ((machine T P).run w later).registry.latestParticipation.lookup who = some newest ∧
        record.qblockId ≤ newest.qblockId := by
  subst ran
  have placed := run_placed (placed_first fresh unused skipped parentHash) inputs fits
  refine ⟨?_, placed.latest, ?_⟩
  · intro qblockId who record stored
    have window := placed.windows qblockId who record stored
    exact ⟨window, fun pay => window.finish placed.numbered fits (placed.past qblockId who record stored) pay⟩
  · exact fun who later record keeps bounded found => run_latest_grows placed later keeps bounded found

/-- A registry call of the small miner. -/
def tinyInput (call : Call) : Input Pow.tinyConfig tinyPallet :=
  .registry (fun _ _ => true) true (.signed tinyMiner) call

/-- A declaration in block 1, which is won, and one for the next qblock in block 2. -/
def tinyInputs : List (Input Pow.tinyConfig tinyPallet) :=
  [tinyInput (.setDescriptor tinyPayload), tinyInput (.participate 1 .cpu none)] ++ Pow.tinyOpening.map .pow ++
    [.turn (fun _ amount => amount) 0 (4 : Nat), tinyInput (.participate 2 .cpu none)]

theorem participation_windows_tinyInputs :
    ∃ record, ((machine Pow.tinyConfig tinyPallet).run (beginBlock ⟨Pow.tinyGenesis, tinyWorld.storage⟩ 0 (3 : Nat))
        tinyInputs).registry.participantsByQBlock.get 2 tinyMiner = some record ∧
      InWindow ((machine Pow.tinyConfig tinyPallet).run (beginBlock ⟨Pow.tinyGenesis, tinyWorld.storage⟩ 0 (3 : Nat))
        tinyInputs).pow 2 record ∧ record.updatedAt = 2 := by
  have stored : ((machine Pow.tinyConfig tinyPallet).run
      (beginBlock ⟨Pow.tinyGenesis, tinyWorld.storage⟩ 0 (3 : Nat)) tinyInputs).registry.participantsByQBlock.get 2
      tinyMiner = some ⟨2, .cpu, none, 2⟩ := by decide +kernel
  have windows := (participation_windows Pow.tinyGenesis_noQBlocks tinyWorld_fresh 0 (3 : Nat) tinyInputs rfl
    (by decide +kernel)).1
  exact ⟨_, stored, (windows 2 tinyMiner _ stored).1, rfl⟩

end QuipValidator.Windows
