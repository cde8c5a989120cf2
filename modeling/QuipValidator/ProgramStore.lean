import QuipValidator.Machine
import QuipValidator.XqvmPallet

/-! The program store over whole runs. A successful dispatch stores one program, clears
one, or only deposits an event; the three maps and the hold are then kept in step by one
invariant, and the events tell which deposit each program still stands for. -/
namespace QuipValidator.Xqvm
open Fallible

variable {T : Config}

/-- The container decodes, both bounds of the shape hold and the verifier accepts. -/
def Admitted (T : Config) (bytes : List UInt8) : Prop :=
  ∃ program, T.decode bytes = some program ∧
    (ControlFlowShape.of T (T.code program)).blocks ≤ T.maxProgramBlocks ∧
    (ControlFlowShape.of T (T.code program)).loopDepth ≤ T.maxLoopDepth ∧
    T.verify program = .ok ()

/-- The deposit taken for these bytes. -/
def priceOf (T : Config) (bytes : List UInt8) : Nat := depositFor T (asU32 bytes.length)

/-- The state after a program was stored. -/
def State.store (s : State T) (who : T.AccountId) (bytecode : BoundedVec UInt8 T.maxProgramSize) : State T :=
  { programs := s.programs.insert (T.hash bytecode.val) bytecode
    programOwner := s.programOwner.insert (T.hash bytecode.val) who
    programDeposit := s.programDeposit.insert (T.hash bytecode.val) (priceOf T bytecode.val)
    events := s.events ++
      [.programStored (T.hash bytecode.val) who (asU32 bytecode.val.length) (priceOf T bytecode.val)]
    holdings :=
      { free := Holdings.set s.holdings.free who (s.holdings.free who - priceOf T bytecode.val)
        held := Holdings.set s.holdings.held who (s.holdings.held who + priceOf T bytecode.val) } }

/-- The state after a program was cleared and `released` went back to its owner. -/
def State.clear (s : State T) (programHash : T.Hash) (owner : T.AccountId) (released : Nat) (event : Event T) :
    State T :=
  { programs := s.programs.erase programHash
    programOwner := s.programOwner.erase programHash
    programDeposit := s.programDeposit.erase programHash
    events := s.events ++ [event]
    holdings :=
      { free := Holdings.set s.holdings.free owner (s.holdings.free owner + released)
        held := Holdings.set s.holdings.held owner (s.holdings.held owner - released) } }

/-- The amount a best-effort release of the recorded deposit frees. -/
def State.releasable (s : State T) (programHash : T.Hash) (owner : T.AccountId) : Nat :=
  min ((s.programDeposit.lookup programHash).getD 0) (s.holdings.held owner)

/-- The event clears this program, naming this owner and this deposit. -/
def Event.Clears (event : Event T) (programHash : T.Hash) (owner : T.AccountId) (deposit : Nat) : Prop :=
  event = .programRemoved programHash owner deposit ∨ event = .programEvicted programHash owner deposit

/-- What one successful dispatch can do. -/
inductive Move (s : State T) : State T → Prop where
  | stores (who : T.AccountId) (bytecode : BoundedVec UInt8 T.maxProgramSize) (admitted : Admitted T bytecode.val)
      (absent : s.programs.lookup (T.hash bytecode.val) = none)
      (affordable : priceOf T bytecode.val ≤ s.holdings.free who) : Move s (s.store who bytecode)
  | clears (programHash : T.Hash) (owner : T.AccountId) (event : Event T)
      (owned : s.programOwner.lookup programHash = some owner)
      (named : event.Clears programHash owner (s.releasable programHash owner)) :
      Move s (s.clear programHash owner (s.releasable programHash owner) event)
  | reports (caller : T.AccountId) (programHash : T.Hash) (stepsUsed : Nat) (outputs : List Int) :
      Move s (s.deposit (.programExecuted caller programHash stepsUsed outputs))

private theorem verified_success {program : T.Program} {result : Unit} (ran : verified T program = .ok result) :
    T.verify program = .ok () := by
  unfold verified at ran
  split at ran
  · assumption
  · cases ran

private theorem storeProgram_move {s after : State T} {env : Env T} {origin : Origin T.AccountId}
    {bytecode : BoundedVec UInt8 T.maxProgramSize} (ran : storeProgram s env origin bytecode = .ok after) :
    Move s after := by
  unfold storeProgram at ran
  obtain ⟨who, -, ran⟩ := bind_success.mp ran
  obtain ⟨program, decoded, ran⟩ := bind_success.mp ran
  obtain ⟨_, blocks, ran⟩ := bind_success.mp ran
  obtain ⟨_, loopDepth, ran⟩ := bind_success.mp ran
  obtain ⟨_, accepted, ran⟩ := bind_success.mp ran
  obtain ⟨_, absent, ran⟩ := bind_success.mp ran
  obtain ⟨holdings, held, ran⟩ := bind_success.mp ran
  obtain ⟨_, affordable, held⟩ := bind_success.mp held
  cases held
  cases ran
  exact .stores who bytecode
    ⟨program, okOr_success.mp decoded, ensure_success.mp blocks, ensure_success.mp loopDepth, verified_success accepted⟩
    (ensure_success.mp absent) (ensure_success.mp affordable).1

private theorem doRemove_success {s after : State T} {env : Env T} {programHash : T.Hash} {owner : T.AccountId}
    {size released : Nat} (ran : doRemove s env programHash owner = .ok (size, released, after)) :
    released = s.releasable programHash owner ∧ ∀ event,
      after.deposit event = s.clear programHash owner (s.releasable programHash owner) event := by
  unfold doRemove at ran
  obtain ⟨bytecode, -, ran⟩ := bind_success.mp ran
  obtain ⟨⟨amount, holdings⟩, paid, ran⟩ := bind_success.mp ran
  obtain ⟨_, -, paid⟩ := bind_success.mp paid
  cases paid
  cases ran
  exact ⟨rfl, fun event => rfl⟩

private theorem removeProgram_move {s after : State T} {env : Env T} {origin : Origin T.AccountId}
    {programHash : T.Hash} (ran : removeProgram s env origin programHash = .ok after) : Move s after := by
  unfold removeProgram at ran
  obtain ⟨who, -, ran⟩ := bind_success.mp ran
  obtain ⟨owner, owned, ran⟩ := bind_success.mp ran
  obtain ⟨_, -, ran⟩ := bind_success.mp ran
  obtain ⟨⟨size, released, rest⟩, removed, ran⟩ := bind_success.mp ran
  obtain ⟨rfl, cleared⟩ := doRemove_success removed
  cases ran
  rw [cleared]
  exact .clears programHash owner _ (okOr_success.mp owned) (.inl rfl)

private theorem evictProgram_move {s after : State T} {env : Env T} {origin : Origin T.AccountId}
    {programHash : T.Hash} (ran : evictProgram s env origin programHash = .ok after) : Move s after := by
  unfold evictProgram at ran
  obtain ⟨_, -, ran⟩ := bind_success.mp ran
  obtain ⟨owner, owned, ran⟩ := bind_success.mp ran
  obtain ⟨⟨size, released, rest⟩, removed, ran⟩ := bind_success.mp ran
  obtain ⟨rfl, cleared⟩ := doRemove_success removed
  cases ran
  rw [cleared]
  exact .clears programHash owner _ (okOr_success.mp owned) (.inr rfl)

private theorem executeProgram_move {s after : State T} {origin : Origin T.AccountId} {programHash : T.Hash}
    {calldata : BoundedVec Int T.maxCallDataLen} {outputSlots stepLimit : Nat}
    (ran : executeProgram s origin programHash calldata outputSlots stepLimit = .ok after) : Move s after := by
  unfold executeProgram at ran
  obtain ⟨who, -, ran⟩ := bind_success.mp ran
  obtain ⟨_, -, ran⟩ := bind_success.mp ran
  obtain ⟨_, -, ran⟩ := bind_success.mp ran
  obtain ⟨_, -, ran⟩ := bind_success.mp ran
  obtain ⟨bytecode, -, ran⟩ := bind_success.mp ran
  obtain ⟨program, -, ran⟩ := bind_success.mp ran
  obtain ⟨finished, -, ran⟩ := bind_success.mp ran
  obtain ⟨outputs, -, ran⟩ := bind_success.mp ran
  cases ran
  exact .reports who programHash finished.steps outputs.val

/-- Every successful dispatch is one of the moves. -/
theorem dispatch_move {s after : State T} {env : Env T} {origin : Origin T.AccountId} {call : Call T}
    (ran : dispatch s env origin call = .ok after) : Move s after := by
  cases call with
  | storeProgram bytecode => exact storeProgram_move ran
  | execute programHash calldata outputSlots stepLimit => exact executeProgram_move ran
  | removeProgram programHash => exact removeProgram_move ran
  | evictProgram programHash => exact evictProgram_move ran

/-- The sum of `ProgramDeposit` over the programs an account owns. -/
def State.owed (s : State T) (who : T.AccountId) : Nat :=
  s.programDeposit.sum fun programHash deposit => if s.programOwner.lookup programHash = some who then deposit else 0

/-- What one event does to the deposits that programs stand for. -/
def Event.book (standing : T.Hash → Option (T.AccountId × Nat)) : Event T → T.Hash → Option (T.AccountId × Nat)
  | .programStored programHash owner _ deposit =>
    fun probe => if probe = programHash then some (owner, deposit) else standing probe
  | .programRemoved programHash _ _ | .programEvicted programHash _ _ =>
    fun probe => if probe = programHash then none else standing probe
  | .programExecuted .. => standing

/-- Who paid which deposit for a program that was stored and not removed since, read off the events. -/
def standing (events : List (Event T)) : T.Hash → Option (T.AccountId × Nat) :=
  events.foldl Event.book fun _ => none

private theorem standing_concat (events : List (Event T)) (event : Event T) :
    standing (events ++ [event]) = event.book (standing events) := by
  simp [standing, List.foldl_append]

private theorem Event.Clears.book {event : Event T} {programHash : T.Hash} {owner : T.AccountId} {deposit : Nat}
    (clears : event.Clears programHash owner deposit) (before : T.Hash → Option (T.AccountId × Nat)) :
    event.book before = fun probe => if probe = programHash then none else before probe := by
  rcases clears with rfl | rfl <;> rfl

/-- The store is in step with itself and with the hold. -/
structure Consistent (s : State T) : Prop where
  /-- The three maps have the same keys. -/
  owned : ∀ programHash, programHash ∈ s.programOwner ↔ programHash ∈ s.programs
  deposited : ∀ programHash, programHash ∈ s.programDeposit ↔ programHash ∈ s.programs
  /-- Programs are addressed by the hash of their bytes. -/
  addressed : ∀ programHash bytecode, s.programs.lookup programHash = some bytecode →
    programHash = T.hash bytecode.val
  /-- Nothing that a check of `store_program` refuses is stored. -/
  admitted : ∀ programHash bytecode, s.programs.lookup programHash = some bytecode → Admitted T bytecode.val
  /-- The recorded deposit is the price of the bytes. -/
  priced : ∀ programHash bytecode, s.programs.lookup programHash = some bytecode →
    s.programDeposit.lookup programHash = some (priceOf T bytecode.val)
  /-- The hold is the sum of the deposits. -/
  covered : ∀ who, s.holdings.held who = s.owed who

/-- The events account for every recorded deposit, and every clearing event names the
owner and the deposit of the storing event it undoes. -/
structure Accounted (s : State T) : Prop where
  recorded : ∀ programHash, standing s.events programHash =
    (s.programOwner.lookup programHash).bind fun owner =>
      (s.programDeposit.lookup programHash).map fun deposit => (owner, deposit)
  returned : ∀ earlier event later programHash owner deposit, s.events = earlier ++ event :: later →
    event.Clears programHash owner deposit → standing earlier programHash = some (owner, deposit)

/-- The owner's deposit is still on hold when its program is cleared. -/
theorem Consistent.deposit_held {s : State T} (consistent : Consistent s) {programHash : T.Hash} {owner : T.AccountId}
    (owned : s.programOwner.lookup programHash = some owner) :
    ∃ deposit, s.programDeposit.lookup programHash = some deposit ∧ deposit ≤ s.holdings.held owner ∧
      s.releasable programHash owner = deposit := by
  have stored : programHash ∈ s.programs :=
    (consistent.owned programHash).mp (AList.lookup_isSome.mp (by rw [owned]; rfl))
  have present : (s.programDeposit.lookup programHash).isSome :=
    AList.lookup_isSome.mpr ((consistent.deposited programHash).mpr stored)
  obtain ⟨deposit, found⟩ := Option.isSome_iff_exists.mp present
  have counted := StorageMap.weight_le_sum
    (fun programHash deposit => if s.programOwner.lookup programHash = some owner then deposit else 0) found
  rw [if_pos owned] at counted
  have covered : s.holdings.held owner = s.owed owner := consistent.covered owner
  unfold State.owed at covered
  refine ⟨deposit, found, by omega, ?_⟩
  unfold State.releasable
  rw [found]
  simp only [Option.getD_some]
  omega

private theorem owed_store {s : State T} (consistent : Consistent s) (who : T.AccountId)
    (bytecode : BoundedVec UInt8 T.maxProgramSize) (absent : s.programs.lookup (T.hash bytecode.val) = none)
    (probe : T.AccountId) :
    (s.store who bytecode).owed probe = s.owed probe + if who = probe then priceOf T bytecode.val else 0 := by
  have vacant : s.programDeposit.lookup (T.hash bytecode.val) = none := by
    apply AList.lookup_eq_none.mpr
    rw [consistent.deposited]
    exact AList.lookup_eq_none.mp absent
  have written := StorageMap.sum_insert s.programDeposit
    (fun programHash deposit => if (s.store who bytecode).programOwner.lookup programHash = some probe then deposit else 0)
    (T.hash bytecode.val) (priceOf T bytecode.val)
  have unchanged : s.programDeposit.sum (fun programHash deposit =>
      if (s.store who bytecode).programOwner.lookup programHash = some probe then deposit else 0) = s.owed probe := by
    apply StorageMap.sum_congr
    intro programHash deposit found
    have other : programHash ≠ T.hash bytecode.val := by
      rintro rfl
      rw [vacant] at found
      cases found
    simp only [State.store, StorageMap.lookup_insert_ite, if_neg other]
  rw [vacant, unchanged] at written
  simp only [Option.elim_none, Nat.add_zero] at written
  have shared : (s.store who bytecode).programOwner.lookup (T.hash bytecode.val) = some who := AList.lookup_insert _
  rw [shared] at written
  simp only [Option.some.injEq] at written
  exact written

private theorem owed_clear {s : State T} {programHash : T.Hash} {owner : T.AccountId} {deposit : Nat}
    (owned : s.programOwner.lookup programHash = some owner)
    (found : s.programDeposit.lookup programHash = some deposit) (released : Nat) (event : Event T)
    (probe : T.AccountId) :
    (s.clear programHash owner released event).owed probe + (if owner = probe then deposit else 0) = s.owed probe := by
  have erased := StorageMap.sum_erase s.programDeposit
    (fun programHash deposit => if s.programOwner.lookup programHash = some probe then deposit else 0) programHash
  have unchanged : (s.clear programHash owner released event).owed probe =
      StorageMap.sum (s.programDeposit.erase programHash) fun programHash deposit =>
        if s.programOwner.lookup programHash = some probe then deposit else 0 := by
    apply StorageMap.sum_congr
    intro key amount kept
    have other : key ≠ programHash := by
      rintro rfl
      simp [State.clear] at kept
    simp only [State.clear, StorageMap.lookup_erase_ite, if_neg other]
  rw [found] at erased
  simp only [Option.elim_some, owned, Option.some.injEq] at erased
  rw [unchanged]
  exact erased

private theorem Consistent.store {s : State T} (consistent : Consistent s) (who : T.AccountId)
    (bytecode : BoundedVec UInt8 T.maxProgramSize) (admitted : Admitted T bytecode.val)
    (absent : s.programs.lookup (T.hash bytecode.val) = none) : Consistent (s.store who bytecode) where
  owned programHash := by
    simp only [State.store, AList.mem_insert, consistent.owned]
  deposited programHash := by
    simp only [State.store, AList.mem_insert, consistent.deposited]
  addressed programHash held found := by
    simp only [State.store, StorageMap.lookup_insert_ite] at found
    split at found
    · cases found
      assumption
    · exact consistent.addressed programHash held found
  admitted programHash held found := by
    simp only [State.store, StorageMap.lookup_insert_ite] at found
    split at found
    · cases found
      exact admitted
    · exact consistent.admitted programHash held found
  priced programHash held found := by
    simp only [State.store, StorageMap.lookup_insert_ite] at found ⊢
    split at found
    · rename_i same
      cases found
      rw [if_pos same]
    · rename_i other
      rw [if_neg other]
      exact consistent.priced programHash held found
  covered probe := by
    rw [owed_store consistent who bytecode absent, ← consistent.covered]
    simp only [State.store, Holdings.set]
    by_cases same : probe = who
    · subst same
      simp
    · simp [same, Ne.symm same]

private theorem Consistent.clear {s : State T} (consistent : Consistent s) {programHash : T.Hash} {owner : T.AccountId}
    (owned : s.programOwner.lookup programHash = some owner) (event : Event T) :
    Consistent (s.clear programHash owner (s.releasable programHash owner) event) where
  owned probe := by
    simp only [State.clear, AList.mem_erase, consistent.owned]
  deposited probe := by
    simp only [State.clear, AList.mem_erase, consistent.deposited]
  addressed probe held found := by
    simp only [State.clear, StorageMap.lookup_erase_ite] at found
    split at found
    · cases found
    · exact consistent.addressed probe held found
  admitted probe held found := by
    simp only [State.clear, StorageMap.lookup_erase_ite] at found
    split at found
    · cases found
    · exact consistent.admitted probe held found
  priced probe held found := by
    simp only [State.clear, StorageMap.lookup_erase_ite] at found ⊢
    split at found
    · cases found
    · rename_i other
      rw [if_neg other]
      exact consistent.priced probe held found
  covered probe := by
    obtain ⟨deposit, found, held, released⟩ := consistent.deposit_held owned
    have rest := owed_clear owned found (s.releasable programHash owner) event probe
    rw [← consistent.covered] at rest
    simp only [State.clear, Holdings.set, released] at rest ⊢
    by_cases same : probe = owner
    · subst same
      simp only [if_true] at rest ⊢
      omega
    · simp only [if_neg same, if_neg (Ne.symm same)] at rest ⊢
      omega

/-- Every move keeps the store in step. -/
theorem Move.consistent {s after : State T} (moved : Move s after) (consistent : Consistent s) : Consistent after := by
  cases moved with
  | stores who bytecode admitted absent affordable => exact consistent.store who bytecode admitted absent
  | clears programHash owner event owned named => exact consistent.clear owned event
  | reports caller programHash stepsUsed outputs =>
    exact ⟨consistent.owned, consistent.deposited, consistent.addressed, consistent.admitted, consistent.priced,
      consistent.covered⟩

-- A split of an extended history falls on the new event or within the old one.
private theorem split_concat {events earlier later : List (Event T)} {last event : Event T}
    (split : events ++ [last] = earlier ++ event :: later) :
    (earlier = events ∧ event = last) ∨ ∃ rest, events = earlier ++ event :: rest := by
  rcases later.eq_nil_or_concat with rfl | ⟨front, final, rfl⟩
  · obtain ⟨rfl, same⟩ := List.append_inj' split rfl
    exact .inl ⟨rfl, (List.singleton_inj.mp same).symm⟩
  · rw [List.concat_eq_append, ← List.cons_append, ← List.append_assoc] at split
    obtain ⟨rfl, _⟩ := List.append_inj' split rfl
    exact .inr ⟨front, rfl⟩

private theorem returned_concat {s : State T} (accounted : Accounted s) {last : Event T}
    (undoes : ∀ programHash owner deposit, last.Clears programHash owner deposit →
      standing s.events programHash = some (owner, deposit)) :
    ∀ earlier event later programHash owner deposit, s.events ++ [last] = earlier ++ event :: later →
      event.Clears programHash owner deposit → standing earlier programHash = some (owner, deposit) := by
  intro earlier event later programHash owner deposit split clears
  rcases split_concat split with ⟨rfl, rfl⟩ | ⟨rest, before⟩
  · exact undoes programHash owner deposit clears
  · exact accounted.returned earlier event rest programHash owner deposit before clears

private theorem Event.Clears.same {event : Event T} {programHash other : T.Hash} {owner account : T.AccountId}
    {deposit amount : Nat} (first : event.Clears programHash owner deposit) (second : event.Clears other account amount) :
    other = programHash ∧ account = owner ∧ amount = deposit := by
  rcases first with rfl | rfl <;> rcases second with same | same <;> cases same <;> exact ⟨rfl, rfl, rfl⟩

/-- Every move keeps the events and the maps in agreement. -/
theorem Move.accounted {s after : State T} (moved : Move s after) (consistent : Consistent s)
    (accounted : Accounted s) : Accounted after := by
  cases moved with
  | stores who bytecode admitted absent affordable =>
    refine ⟨?_, returned_concat accounted ?_⟩
    · intro probe
      simp only [State.store, standing_concat, Event.book, StorageMap.lookup_insert_ite]
      split
      · rfl
      · exact accounted.recorded probe
    · rintro programHash owner deposit (impossible | impossible) <;> cases impossible
  | clears programHash owner event owned named =>
    obtain ⟨deposit, found, _, released⟩ := consistent.deposit_held owned
    refine ⟨?_, returned_concat accounted ?_⟩
    · intro probe
      simp only [State.clear, standing_concat, named.book, StorageMap.lookup_erase_ite]
      split
      · rfl
      · exact accounted.recorded probe
    · intro other account amount clears
      obtain ⟨rfl, rfl, rfl⟩ := named.same clears
      rw [accounted.recorded, owned, found, released]
      rfl
  | reports caller programHash stepsUsed outputs =>
    refine ⟨?_, returned_concat accounted ?_⟩
    · intro probe
      simp only [State.deposit, standing_concat, Event.book]
      exact accounted.recorded probe
    · rintro other owner deposit (impossible | impossible) <;> cases impossible

/-- The currency side of one dispatch: storing a program puts its deposit on hold, and
clearing one releases the recorded deposit whole, on the owner's account only. -/
structure Exact (s after : State T) : Prop where
  taken : ∀ programHash owner size deposit, after.events = s.events ++ [.programStored programHash owner size deposit] →
    after.programOwner.lookup programHash = some owner ∧ after.programDeposit.lookup programHash = some deposit ∧
      deposit ≤ s.holdings.free owner ∧
      after.holdings = { free := Holdings.set s.holdings.free owner (s.holdings.free owner - deposit)
                         held := Holdings.set s.holdings.held owner (s.holdings.held owner + deposit) }
  released : ∀ event programHash owner deposit, after.events = s.events ++ [event] →
    event.Clears programHash owner deposit →
    s.programOwner.lookup programHash = some owner ∧ s.programDeposit.lookup programHash = some deposit ∧
      deposit ≤ s.holdings.held owner ∧
      after.holdings = { free := Holdings.set s.holdings.free owner (s.holdings.free owner + deposit)
                         held := Holdings.set s.holdings.held owner (s.holdings.held owner - deposit) }

private theorem last_event {events : List (Event T)} {event last : Event T}
    (same : events ++ [event] = events ++ [last]) : event = last :=
  List.singleton_inj.mp (List.append_cancel_left same)

theorem Move.exact {s after : State T} (moved : Move s after) (consistent : Consistent s) : Exact s after := by
  cases moved with
  | stores who bytecode admitted absent affordable =>
    constructor
    · intro programHash owner size deposit reported
      cases last_event reported
      exact ⟨AList.lookup_insert _, AList.lookup_insert _, affordable, rfl⟩
    · intro event programHash owner deposit reported clears
      cases last_event reported
      rcases clears with impossible | impossible <;> cases impossible
  | clears programHash owner event owned named =>
    constructor
    · intro other account size deposit reported
      cases last_event reported
      rcases named with impossible | impossible <;> cases impossible
    · intro event other account deposit reported clears
      cases last_event reported
      obtain ⟨rfl, rfl, rfl⟩ := named.same clears
      obtain ⟨deposit, found, held, released⟩ := consistent.deposit_held owned
      rw [released]
      exact ⟨owned, found, held, rfl⟩
  | reports caller programHash stepsUsed outputs =>
    constructor
    · intro other owner size deposit reported
      cases last_event reported
    · intro event other owner deposit reported clears
      cases last_event reported
      rcases clears with impossible | impossible <;> cases impossible

/-- One input: a dispatch, or anything else that happens to free balances. -/
inductive Input (T : Config) where
  | dispatch (env : Env T) (origin : Origin T.AccountId) (call : Call T)
  | outside (free : T.AccountId → Nat)

/-- A dispatch that fails takes back its writes. -/
def Input.next (s : State T) : Input T → State T
  | .dispatch env origin call => (Xqvm.dispatch s env origin call).toOption.getD s
  | .outside free => { s with holdings := { s.holdings with free } }

def machine (T : Config) : Machine (State T) (Input T) Unit where
  next s input := input.next s
  report _ _ := []

/-- No program has been stored and nothing is on hold. -/
structure Fresh (s : State T) : Prop where
  programs : s.programs = ∅
  programOwner : s.programOwner = ∅
  programDeposit : s.programDeposit = ∅
  events : s.events = []
  held : ∀ who, s.holdings.held who = 0

private theorem Fresh.consistent {s : State T} (fresh : Fresh s) : Consistent s := by
  refine ⟨?_, ?_, ?_, ?_, ?_, ?_⟩
  · simp [fresh.programs, fresh.programOwner]
  · simp [fresh.programs, fresh.programDeposit]
  · simp [fresh.programs]
  · simp [fresh.programs]
  · simp [fresh.programs]
  · intro who
    simp [fresh.held, State.owed, fresh.programDeposit, StorageMap.sum]

private theorem Fresh.accounted {s : State T} (fresh : Fresh s) : Accounted s := by
  constructor
  · simp [fresh.events, fresh.programOwner, standing]
  · simp [fresh.events]

private theorem next_keeps (s : State T) (input : Input T) (kept : Consistent s ∧ Accounted s) :
    Consistent (input.next s) ∧ Accounted (input.next s) := by
  obtain ⟨consistent, accounted⟩ := kept
  cases input with
  | dispatch env origin call =>
    cases ran : Xqvm.dispatch s env origin call with
    | error fault =>
      simp only [Input.next, ran, Except.toOption, Option.getD_none]
      exact ⟨consistent, accounted⟩
    | ok after =>
      simp only [Input.next, ran, Except.toOption, Option.getD_some]
      have moved := dispatch_move ran
      exact ⟨moved.consistent consistent, moved.accounted consistent accounted⟩
  | outside free =>
    exact ⟨⟨consistent.owned, consistent.deposited, consistent.addressed, consistent.admitted, consistent.priced,
      consistent.covered⟩, accounted.recorded, accounted.returned⟩

/-- After every run of the pallet's calls by any accounts the three maps have the same
keys, each key is the hash of its bytes, each program passed every check, and what an
account has on hold is the sum of the deposits of the programs it owns. Each clearing
event names the deposit the program's storing event took, and the dispatch releases
exactly that. -/
theorem program_store_consistent {s₀ s : State T} (fresh : Fresh s₀) {inputs : List (Input T)}
    (ran : (machine T).run s₀ inputs = s) :
    Consistent s ∧ Accounted s ∧
      ∀ env origin call after, dispatch s env origin call = .ok after → Exact s after := by
  subst ran
  have kept := (machine T).run_follows (fun _ s => Consistent s ∧ Accounted s)
    ⟨fresh.consistent, fresh.accounted⟩ (fun s _ input => next_keeps s input) inputs
  refine ⟨kept.1, kept.2, ?_⟩
  intro env origin call after dispatched
  exact (dispatch_move dispatched).exact kept.1

/-- A small runtime whose programs are single bytes. -/
def tinyConfig : Config where
  AccountId := Nat
  Hash := List UInt8
  decEqAccountId := inferInstance
  decEqHash := inferInstance
  depositBase := 10
  depositPerByte := 2
  maxProgramSize := 4
  maxProgramBlocks := 2
  maxLoopDepth := 1
  maxCallDataLen := 1
  maxOutputSlots := 1
  maxVmMemory := 16
  maxStepLimit := 8
  hash := id
  Program := List UInt8
  decode := fun bytes => if bytes.length = 1 then some bytes else none
  code := id
  instructionStream := fun code => code.map fun byte => if byte = 0 then none else some ⟨0, 1, .plain⟩
  verify := fun _ => .ok ()
  run := fun _ _ => .ok { steps := 1, outputs := [] }

def tinyState : State tinyConfig where
  programs := ∅
  programOwner := ∅
  programDeposit := ∅
  events := []
  holdings := { free := fun _ => 100, held := fun _ => 0 }

def tinyStorer : tinyConfig.AccountId := (7 : Nat)
def tinyOther : tinyConfig.AccountId := (8 : Nat)
def tinyHash : tinyConfig.Hash := ([5] : List UInt8)
def tinyEnv : Env tinyConfig := { canHold := fun _ _ => true, canRelease := fun _ _ => true }

/-- Stored, evicted, and stored again by another account. -/
def tinyInputs : List (Input tinyConfig) :=
  [.dispatch tinyEnv (.signed tinyStorer) (.storeProgram ⟨[5], by decide⟩),
    .dispatch tinyEnv .root (.evictProgram tinyHash),
    .dispatch tinyEnv (.signed tinyOther) (.storeProgram ⟨[5], by decide⟩)]

theorem program_store_consistent_restored :
    ((machine tinyConfig).run tinyState tinyInputs).owed tinyStorer = 0 ∧
      ((machine tinyConfig).run tinyState tinyInputs).owed tinyOther = 12 := by
  have fresh : Fresh tinyState := ⟨rfl, rfl, rfl, rfl, fun _ => rfl⟩
  obtain ⟨consistent, _, _⟩ := @program_store_consistent tinyConfig tinyState _ fresh tinyInputs rfl
  exact ⟨(consistent.covered tinyStorer).symm, (consistent.covered tinyOther).symm⟩

end QuipValidator.Xqvm
