import QuipValidator.AdmissionElection
import QuipValidator.Machine

/-! `pallet-validator-admission`: which validators are approved, and in which
mode admission is. What else of the runtime a removal touches is a parameter. -/
namespace QuipValidator.AdmissionData.BoundedBTreeSet

/-- The equality that membership is decided with is the order's own. -/
scoped instance lawfulBEq_of_linearOrder {α : Type} [LinearOrder α] : LawfulBEq α := inferInstance

section Insertion
variable {α : Type} [LinearOrder α]

theorem ascending_orderedInsert {item : α} {members : List α} (ascending : members.Pairwise (· < ·))
    (absent : item ∉ members) : (members.orderedInsert (· < ·) item).Pairwise (· < ·) := by
  induction members with
  | nil => exact List.pairwise_singleton _ _
  | cons first rest ih =>
    obtain ⟨above, later⟩ := List.pairwise_cons.mp ascending
    rw [List.mem_cons, not_or] at absent
    rw [List.orderedInsert_cons]
    split
    · rename_i smaller
      refine List.pairwise_cons.mpr ⟨?_, ascending⟩
      intro other member
      rcases List.mem_cons.mp member with rfl | among
      · exact smaller
      · exact smaller.trans (above other among)
    · rename_i larger
      refine List.pairwise_cons.mpr ⟨?_, ih later absent.2⟩
      intro other member
      rcases (List.mem_orderedInsert _).mp member with rfl | among
      · exact lt_of_le_of_ne (not_lt.mp larger) (Ne.symm absent.1)
      · exact above other among

end Insertion

variable {α : Type} [LinearOrder α] {bound : Nat}

def empty : BoundedBTreeSet α bound := ⟨[], .nil, Nat.zero_le bound⟩

theorem length_orderedInsert_le {item : α} {members : List α} (room : members.length < bound) :
    (members.orderedInsert (· < ·) item).length ≤ bound := by
  rw [List.orderedInsert_length]
  exact room

/-- `try_insert`: whether the item is new, unless there is no place for it. -/
def tryInsert (set : BoundedBTreeSet α bound) (item : α) : Option (Bool × BoundedBTreeSet α bound) :=
  if present : item ∈ set.members then some (false, set)
  else if room : set.members.length < bound then
    some (true, ⟨set.members.orderedInsert (· < ·) item, ascending_orderedInsert set.ascending present,
      length_orderedInsert_le room⟩)
  else none

/-- `remove`: whether the item was there. -/
def remove (set : BoundedBTreeSet α bound) (item : α) : Bool × BoundedBTreeSet α bound :=
  (decide (item ∈ set.members), ⟨set.members.erase item, set.ascending.sublist List.erase_sublist,
    List.erase_sublist.length_le.trans set.bounded⟩)

variable {set : BoundedBTreeSet α bound} {item : α}

theorem nodup (set : BoundedBTreeSet α bound) : set.members.Nodup :=
  set.ascending.imp fun smaller => ne_of_lt smaller

/-- A set that took a new item holds it besides what it held. -/
theorem tryInsert_new {after : BoundedBTreeSet α bound} (absent : item ∉ set.members) {fresh : Bool}
    (inserted : set.tryInsert item = some (fresh, after)) :
    fresh = true ∧ (∀ other, other ∈ after.members ↔ other = item ∨ other ∈ set.members) ∧
      after.members.length = set.members.length + 1 := by
  simp only [tryInsert, absent, dite_false] at inserted
  split at inserted
  · obtain ⟨rfl, rfl⟩ := Prod.mk.inj (Option.some.inj inserted)
    exact ⟨rfl, fun other => List.mem_orderedInsert _, List.orderedInsert_length _ _ _⟩
  · cases inserted

theorem mem_remove {other : α} : other ∈ (set.remove item).2.members ↔ other ≠ item ∧ other ∈ set.members :=
  set.nodup.mem_erase_iff

theorem length_remove (present : item ∈ set.members) :
    (set.remove item).2.members.length + 1 = set.members.length := by
  have length := List.length_erase_of_mem present
  have some := List.length_pos_of_mem present
  simp only [remove]
  omega

end QuipValidator.AdmissionData.BoundedBTreeSet

namespace QuipValidator.Admission
open Fallible AdmissionData

/-- `AdmissionMode`. -/
inductive Mode where
  | fixedTestnet
  | foundationOnly
  | permissionlessEligibility
  deriving DecidableEq, Repr

/-- The runtime configuration. `Rest` is the storage of everything else. -/
structure Config where
  AccountId : Type
  order : LinearOrder AccountId
  RuntimeOrigin : Type
  foundationOrigin : RuntimeOrigin → Bool
  /-- Whether `ensure_signed` accepts an origin. -/
  ensureSigned : RuntimeOrigin → Bool
  maxAuthorities : Nat
  Rest : Type
  /-- `Graduation::ready`. -/
  graduationReady : Rest → Bool
  RemovalError : Type
  /-- `OnRemoval::on_removal`. -/
  onRemoval : Rest → Fallible RemovalError Rest

instance (T : Config) : LinearOrder T.AccountId := T.order

inductive Error where
  | wrongMode
  | alreadyApproved
  | notApproved
  | tooManyAuthorities
  | invalidTransition
  | graduationNotReady
  deriving DecidableEq

inductive DispatchError (T : Config) where
  | badOrigin
  | module (error : Error)
  | removal (error : T.RemovalError)

instance (T : Config) : Coe Error (DispatchError T) := ⟨.module⟩

inductive Event (T : Config) where
  | approved (who : T.AccountId)
  | removed (who : T.AccountId)
  | modeAdvanced (mode : Mode)

structure State (T : Config) where
  mode : Mode
  approved : BoundedBTreeSet T.AccountId T.maxAuthorities
  rest : T.Rest

variable {T : Config}

/-- `GenesisConfig`. -/
structure Genesis (T : Config) where
  mode : Mode
  approved : List T.AccountId

/-- One turn of the loop of the genesis build. -/
def approveAtGenesis (approved : BoundedBTreeSet T.AccountId T.maxAuthorities) (who : T.AccountId) :
    Fallible Empty (BoundedBTreeSet T.AccountId T.maxAuthorities) := do
  let (fresh, approved) ← expect (approved.tryInsert who) "too many approved validators"
  asserts (fresh = true) "duplicate approved validator"
  pure approved

def Genesis.build (genesis : Genesis T) (rest : T.Rest) : Fallible Empty (State T) := do
  asserts (genesis.mode ≠ .permissionlessEligibility)
    "permissionless genesis requires a future eligibility implementation"
  let approved ← genesis.approved.foldlM approveAtGenesis .empty
  pure { mode := genesis.mode, approved, rest }

/-- A call that succeeds deposits one event. -/
abbrev Outcome (T : Config) := Fallible (DispatchError T) (State T × Event T)

def approve (s : State T) (origin : T.RuntimeOrigin) (who : T.AccountId) : Outcome T := do
  ensure (T.foundationOrigin origin = true) DispatchError.badOrigin
  ensure (s.mode = .foundationOnly) (Error.wrongMode : DispatchError T)
  ensure (who ∉ s.approved.members) (Error.alreadyApproved : DispatchError T)
  let (_, approved) ← okOr (s.approved.tryInsert who) (Error.tooManyAuthorities : DispatchError T)
  pure ({ s with approved }, .approved who)

def remove (s : State T) (origin : T.RuntimeOrigin) (who : T.AccountId) : Outcome T := do
  ensure (T.foundationOrigin origin = true) DispatchError.badOrigin
  ensure (s.mode = .foundationOnly) (Error.wrongMode : DispatchError T)
  let (present, approved) := s.approved.remove who
  ensure (present = true) (Error.notApproved : DispatchError T)
  let rest ← mapErr DispatchError.removal (T.onRemoval s.rest)
  pure ({ s with approved, rest }, .removed who)

/-- The match of `advance`: which moves there are, and who may make them. -/
def checkAdvance (s : State T) (origin : T.RuntimeOrigin) : Mode → Mode → Fallible (DispatchError T) Unit
  | .fixedTestnet, .foundationOnly => ensure (T.foundationOrigin origin = true) DispatchError.badOrigin
  | .foundationOnly, .permissionlessEligibility => do
    -- Anyone may trigger it once it is ready.
    ensure (T.ensureSigned origin = true) DispatchError.badOrigin
    ensure (T.graduationReady s.rest = true) (Error.graduationNotReady : DispatchError T)
  | _, _ => fail (Error.invalidTransition : DispatchError T)

def advance (s : State T) (origin : T.RuntimeOrigin) (mode : Mode) : Outcome T := do
  checkAdvance s origin s.mode mode
  pure ({ s with mode }, .modeAdvanced mode)

/-- The `try_state` check. -/
structure TryState (s : State T) : Prop where
  bounded : s.approved.members.length ≤ T.maxAuthorities
  graduated : s.mode ≠ .permissionlessEligibility ∨ T.graduationReady s.rest = true

inductive Call (T : Config) where
  | approve (who : T.AccountId)
  | remove (who : T.AccountId)
  | advance (mode : Mode)

def execute (s : State T) (origin : T.RuntimeOrigin) : Call T → Outcome T
  | .approve who => approve s origin who
  | .remove who => remove s origin who
  | .advance mode => advance s origin mode

/-- A call by any origin, or a change of everything else. A call that a root
dispatch makes is a step of its own. -/
inductive Step (T : Config) where
  | dispatch (origin : T.RuntimeOrigin) (call : Call T)
  | elsewhere (rest : T.Rest)

/-- The pallet with the events it deposits. A call that fails changes nothing. -/
def machine (T : Config) : Machine (State T) (Step T) (Event T) where
  next s step :=
    match step with
    | .dispatch origin call =>
      match execute s origin call with
      | .ok (after, _) => after
      | .error _ => s
    | .elsewhere rest => { s with rest }
  report s step :=
    match step with
    | .dispatch origin call =>
      match execute s origin call with
      | .ok (_, event) => [event]
      | .error _ => []
    | .elsewhere _ => []

/-! What a call that succeeds did. -/

theorem approve_success {s after : State T} {origin : T.RuntimeOrigin} {who : T.AccountId} {event : Event T}
    (ran : approve s origin who = .ok (after, event)) :
    s.mode = .foundationOnly ∧ who ∉ s.approved.members ∧ event = .approved who ∧
      after.mode = s.mode ∧ after.rest = s.rest ∧
      (∀ other, other ∈ after.approved.members ↔ other = who ∨ other ∈ s.approved.members) ∧
      after.approved.members.length = s.approved.members.length + 1 := by
  simp only [approve, bind_success, ensure_success, okOr_success] at ran
  obtain ⟨_, _, _, mode, _, absent, ⟨fresh, approved⟩, inserted, same⟩ := ran
  cases same
  obtain ⟨_, members, length⟩ := BoundedBTreeSet.tryInsert_new absent inserted
  exact ⟨mode, absent, rfl, rfl, rfl, members, length⟩

theorem remove_success {s after : State T} {origin : T.RuntimeOrigin} {who : T.AccountId} {event : Event T}
    (ran : remove s origin who = .ok (after, event)) :
    s.mode = .foundationOnly ∧ who ∈ s.approved.members ∧ event = .removed who ∧
      after.mode = s.mode ∧ T.onRemoval s.rest = .ok after.rest ∧
      (∀ other, other ∈ after.approved.members ↔ other ≠ who ∧ other ∈ s.approved.members) ∧
      after.approved.members.length + 1 = s.approved.members.length := by
  simp only [remove, bind_success, ensure_success, mapErr_success] at ran
  obtain ⟨_, _, _, mode, _, present, rest, cleaned, same⟩ := ran
  cases same
  have member : who ∈ s.approved.members := of_decide_eq_true present
  exact ⟨mode, member, rfl, rfl, cleaned, fun _ => BoundedBTreeSet.mem_remove, BoundedBTreeSet.length_remove member⟩

/-- The two moves of the mode. -/
inductive Advances (ready : Prop) : Mode → Mode → Prop where
  | foundation : Advances ready .fixedTestnet .foundationOnly
  | graduation (objective : ready) : Advances ready .foundationOnly .permissionlessEligibility

theorem Advances.mono {ready sooner : Prop} {current mode : Mode} (implies : ready → sooner)
    (moves : Advances ready current mode) : Advances sooner current mode := by
  cases moves with
  | foundation => exact .foundation
  | graduation objective => exact .graduation (implies objective)

theorem checkAdvance_success {s : State T} {origin : T.RuntimeOrigin} {current mode : Mode}
    (ran : checkAdvance s origin current mode = .ok ()) : Advances (T.graduationReady s.rest = true) current mode := by
  unfold checkAdvance at ran
  split at ran
  · exact .foundation
  · simp only [bind_success, ensure_success] at ran
    obtain ⟨_, _, ready⟩ := ran
    exact .graduation ready
  · cases ran

theorem advance_success {s after : State T} {origin : T.RuntimeOrigin} {mode : Mode} {event : Event T}
    (ran : advance s origin mode = .ok (after, event)) :
    Advances (T.graduationReady s.rest = true) s.mode mode ∧ event = .modeAdvanced mode ∧
      after = { s with mode } := by
  simp only [advance, bind_success] at ran
  obtain ⟨_, checked, same⟩ := ran
  cases same
  exact ⟨checkAdvance_success checked, rfl, rfl⟩

end QuipValidator.Admission
