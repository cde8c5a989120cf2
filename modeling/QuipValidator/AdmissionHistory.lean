import Mathlib.Data.List.Chain
import QuipValidator.ValidatorAdmission

/-! The admission pallet against the log of its events. The log alone says who is
approved and which mode admission is in, over every run from genesis: decisions
about one account alternate, none is made outside `FoundationOnly`, and the mode
never goes back. -/
namespace QuipValidator.Admission
open Fallible AdmissionData

variable {T : Config} {genesis : Genesis T} {s : State T} {log : List (Event T)}

/-- A chain grows by a successor of its last member. -/
theorem isChain_concat {α : Type} {R : α → α → Prop} {first next : α} {rest : List α}
    (chain : (first :: rest).IsChain R) (follows : R (rest.getLastD first) next) :
    (first :: (rest ++ [next])).IsChain R := by
  induction rest generalizing first with
  | nil => exact List.isChain_pair.mpr follows
  | cons second later ih =>
    obtain ⟨step, tail⟩ := List.isChain_cons_cons.mp chain
    rw [List.getLastD_cons] at follows
    exact List.isChain_cons_cons.mpr ⟨step, ih tail follows⟩

/-- What an event decides about an account. -/
def decides (who : T.AccountId) : Event T → Option Bool
  | .approved other => if other = who then some true else none
  | .removed other => if other = who then some false else none
  | .modeAdvanced _ => none

def decisions (who : T.AccountId) (log : List (Event T)) : List Bool := log.filterMap (decides who)

/-- The mode an event moves to. -/
def advancedTo : Event T → Option Mode
  | .modeAdvanced mode => some mode
  | .approved _ | .removed _ => none

def advances (log : List (Event T)) : List Mode := log.filterMap advancedTo

def approvals (log : List (Event T)) : Nat :=
  log.countP fun event => match event with | .approved _ => true | _ => false

def removals (log : List (Event T)) : Nat :=
  log.countP fun event => match event with | .removed _ => true | _ => false

/-- The state as the log tells it. -/
structure History (genesis : Genesis T) (s : State T) (log : List (Event T)) : Prop where
  /-- Nobody is approved twice in a row, or removed twice. -/
  alternates : ∀ who, (decide (who ∈ genesis.approved) :: decisions who log).IsChain (· ≠ ·)
  /-- The last decision stands. -/
  stands : ∀ who, decide (who ∈ s.approved.members) =
    (decisions who log).getLastD (decide (who ∈ genesis.approved))
  counted : s.approved.members.length + removals log = genesis.approved.length + approvals log
  modes : (genesis.mode :: advances log).IsChain (Advances (∃ rest, T.graduationReady rest = true))
  mode : s.mode = (advances log).getLastD genesis.mode
  /-- Decisions are made in `FoundationOnly` alone. -/
  governed : ∀ earlier event later, log = earlier ++ event :: later → advancedTo event = none →
    (advances earlier).getLastD genesis.mode = .foundationOnly

theorem approveAtGenesis_success {approved after : BoundedBTreeSet T.AccountId T.maxAuthorities} {who : T.AccountId}
    (ran : approveAtGenesis approved who = .ok after) :
    who ∉ approved.members ∧ (∀ other, other ∈ after.members ↔ other = who ∨ other ∈ approved.members) ∧
      after.members.length = approved.members.length + 1 := by
  simp only [approveAtGenesis, bind_success, expect_success, asserts_success] at ran
  obtain ⟨⟨fresh, set⟩, inserted, _, new, same⟩ := ran
  cases same
  have absent : who ∉ approved.members := by
    intro present
    simp only [BoundedBTreeSet.tryInsert, present, dite_true] at inserted
    cases inserted
    cases new
  exact ⟨absent, (BoundedBTreeSet.tryInsert_new absent inserted).2⟩

private theorem foldlM_approveAtGenesis {accounts : List T.AccountId}
    {approved after : BoundedBTreeSet T.AccountId T.maxAuthorities}
    (ran : accounts.foldlM approveAtGenesis approved = .ok after) :
    (∀ who, who ∈ after.members ↔ who ∈ accounts ∨ who ∈ approved.members) ∧
      after.members.length = approved.members.length + accounts.length := by
  induction accounts generalizing approved with
  | nil =>
    cases ran
    exact ⟨by simp, rfl⟩
  | cons first rest ih =>
    rw [List.foldlM_cons, bind_success] at ran
    obtain ⟨next, inserted, continued⟩ := ran
    obtain ⟨_, members, length⟩ := approveAtGenesis_success inserted
    obtain ⟨all, total⟩ := ih continued
    refine ⟨?_, ?_⟩
    · intro who
      rw [all, members, List.mem_cons]
      tauto
    · rw [total, length, List.length_cons]
      omega

/-- A genesis that builds approves exactly the accounts it lists. -/
theorem build_success {rest : T.Rest} (built : genesis.build rest = .ok s) :
    genesis.mode ≠ .permissionlessEligibility ∧ s.mode = genesis.mode ∧
      (∀ who, who ∈ s.approved.members ↔ who ∈ genesis.approved) ∧
      s.approved.members.length = genesis.approved.length := by
  simp only [Genesis.build, bind_success, asserts_success] at built
  obtain ⟨_, objective, approved, inserted, same⟩ := built
  cases same
  obtain ⟨members, length⟩ := foldlM_approveAtGenesis inserted
  refine ⟨objective, rfl, ?_, ?_⟩
  · intro who
    simpa [BoundedBTreeSet.empty] using members who
  · simpa [BoundedBTreeSet.empty] using length

theorem history_start {rest : T.Rest} (built : genesis.build rest = .ok s) : History genesis s [] := by
  obtain ⟨_, mode, members, length⟩ := build_success built
  refine ⟨fun _ => List.isChain_singleton _, ?_, length, List.isChain_singleton _, mode, ?_⟩
  · intro who
    simp only [members]
    rfl
  · intro earlier event later split
    cases earlier <;> cases split

theorem decisions_concat (who : T.AccountId) (log : List (Event T)) (event : Event T) :
    decisions who (log ++ [event]) = decisions who log ++ (decides who event).toList := by
  rw [decisions, List.filterMap_append]
  cases decided : decides who event <;> simp [decisions, decided]

theorem advances_concat (log : List (Event T)) (event : Event T) :
    advances (log ++ [event]) = advances log ++ (advancedTo event).toList := by
  rw [advances, List.filterMap_append]
  cases moved : advancedTo event <;> simp [advances, moved]

/-- A decision that changes who is approved, made in `FoundationOnly`, continues the history. -/
theorem history_decision {after : State T} {event : Event T} (who : T.AccountId) (verdict : Bool)
    (held : History genesis s log) (foundation : s.mode = .foundationOnly) (unmoved : advancedTo event = none)
    (decided : ∀ other, decides other event = if other = who then some verdict else none)
    (mode : after.mode = s.mode) (changes : decide (who ∈ s.approved.members) = !verdict)
    (members : ∀ other, decide (other ∈ after.approved.members) =
      if other = who then verdict else decide (other ∈ s.approved.members))
    (counted : after.approved.members.length + removals (log ++ [event]) =
      genesis.approved.length + approvals (log ++ [event])) :
    History genesis after (log ++ [event]) := by
  have moves : advances (log ++ [event]) = advances log := by
    rw [advances_concat, unmoved, Option.toList_none, List.append_nil]
  refine ⟨?_, ?_, counted, moves ▸ held.modes, by rw [moves, mode, held.mode], ?_⟩
  · intro other
    rw [decisions_concat, decided]
    split
    · rename_i same
      refine isChain_concat (held.alternates other) ?_
      rw [← held.stands, same, changes]
      cases verdict <;> decide
    · rw [Option.toList_none, List.append_nil]
      exact held.alternates other
  · intro other
    rw [decisions_concat, members, decided]
    split
    · exact List.getLastD_concat.symm
    · rw [Option.toList_none, List.append_nil]
      exact held.stands other
  · intro earlier other later split plain
    rcases Machine.concat_split split with ⟨_, rfl, rfl⟩ | ⟨rest, _, among⟩
    · rw [← held.mode, foundation]
    · exact held.governed earlier other rest among plain

theorem history_approve {after : State T} {origin : T.RuntimeOrigin} {who : T.AccountId} {event : Event T}
    (held : History genesis s log) (ran : approve s origin who = .ok (after, event)) :
    History genesis after (log ++ [event]) := by
  obtain ⟨foundation, absent, rfl, mode, _, members, length⟩ := approve_success ran
  have counted := held.counted
  refine history_decision who true held foundation rfl ?_ mode (by simp [absent]) ?_ ?_
  · intro other
    simp only [decides, eq_comm]
  · intro other
    by_cases same : other = who <;> simp [members, same]
  · simp only [removals, approvals, List.countP_append, List.countP_singleton] at counted ⊢
    simp only [Bool.false_eq_true, ↓reduceIte, Nat.add_zero]
    omega

theorem history_remove {after : State T} {origin : T.RuntimeOrigin} {who : T.AccountId} {event : Event T}
    (held : History genesis s log) (ran : remove s origin who = .ok (after, event)) :
    History genesis after (log ++ [event]) := by
  obtain ⟨foundation, present, rfl, mode, _, members, length⟩ := remove_success ran
  have counted := held.counted
  refine history_decision who false held foundation rfl ?_ mode (by simp [present]) ?_ ?_
  · intro other
    simp only [decides, eq_comm]
  · intro other
    by_cases same : other = who <;> simp [members, same]
  · simp only [removals, approvals, List.countP_append, List.countP_singleton] at counted ⊢
    simp only [Bool.false_eq_true, ↓reduceIte, Nat.add_zero]
    omega

theorem history_advance {after : State T} {origin : T.RuntimeOrigin} {mode : Mode} {event : Event T}
    (held : History genesis s log) (ran : advance s origin mode = .ok (after, event)) :
    History genesis after (log ++ [event]) := by
  obtain ⟨moves, rfl, rfl⟩ := advance_success ran
  have quiet : ∀ who, decisions who (log ++ [.modeAdvanced mode]) = decisions who log := by
    intro who
    rw [decisions_concat]
    exact List.append_nil _
  have moved : advances (log ++ [.modeAdvanced mode]) = advances log ++ [mode] := advances_concat log _
  refine ⟨?_, ?_, ?_, ?_, ?_, ?_⟩
  · intro who
    rw [quiet]
    exact held.alternates who
  · intro who
    rw [quiet]
    exact held.stands who
  · simpa [removals, approvals, List.countP_append] using held.counted
  · rw [moved]
    refine isChain_concat held.modes ?_
    rw [← held.mode]
    exact moves.mono fun ready => ⟨s.rest, ready⟩
  · rw [moved]
    exact List.getLastD_concat.symm
  · intro earlier other later split plain
    rcases Machine.concat_split split with ⟨_, rfl, rfl⟩ | ⟨rest, _, among⟩
    · cases plain
    · exact held.governed earlier other rest among plain

theorem history_step (held : History genesis s log) (step : Step T) :
    History genesis ((machine T).next s step) (log ++ (machine T).report s step) := by
  cases step with
  | elsewhere rest =>
    simp only [machine, List.append_nil]
    exact ⟨held.alternates, held.stands, held.counted, held.modes, held.mode, held.governed⟩
  | dispatch origin call =>
    cases ran : execute s origin call with
    | error fault =>
      simp only [machine, ran, List.append_nil]
      exact held
    | ok outcome =>
      simp only [machine, ran]
      cases call with
      | approve who => exact history_approve held ran
      | remove who => exact history_remove held ran
      | advance mode => exact history_advance held ran

theorem getLastD_ne_permissionless {ready : Prop} {first : Mode} {later : List Mode}
    (chain : (first :: later).IsChain (Advances ready)) (fixed : first ≠ .permissionlessEligibility)
    (never : ¬ ready) : later.getLastD first ≠ .permissionlessEligibility := by
  induction later generalizing first with
  | nil => exact fixed
  | cons second rest ih =>
    obtain ⟨move, tail⟩ := List.isChain_cons_cons.mp chain
    rw [List.getLastD_cons]
    refine ih tail ?_
    cases move with
    | foundation => decide
    | graduation objective => exact absurd objective never

/-- Without an objective graduation no move leads to the last mode. -/
theorem History.never_permissionless (held : History genesis s log)
    (fixed : genesis.mode ≠ .permissionlessEligibility) (never : ∀ rest, T.graduationReady rest = false) :
    s.mode ≠ .permissionlessEligibility := by
  rw [held.mode]
  refine getLastD_ne_permissionless held.modes fixed ?_
  rintro ⟨rest, ready⟩
  rw [never] at ready
  cases ready

/-- The log tells the state of every run from a genesis that builds, and nothing
but an objective graduation opens admission to everyone. -/
theorem admission_follows_its_log (rest : T.Rest) (built : genesis.build rest = .ok s) (steps : List (Step T)) :
    History genesis ((machine T).run s steps) ((machine T).trace s steps) ∧
      ((∀ rest, T.graduationReady rest = false) →
        ((machine T).run s steps).mode ≠ .permissionlessEligibility) := by
  have held : History genesis ((machine T).run s steps) ((machine T).trace s steps) :=
    (machine T).run_follows (fun log s => History genesis s log) (history_start built)
      (fun _ _ step held => history_step held step) steps
  exact ⟨held, held.never_permissionless (build_success built).1⟩

/-- Accounts are numbers, and an origin is the council or not. -/
def tinyConfig : Config where
  AccountId := Nat
  order := inferInstance
  RuntimeOrigin := Bool
  foundationOrigin := id
  ensureSigned _ := true
  maxAuthorities := 3
  Rest := Unit
  graduationReady _ := false
  RemovalError := Empty
  onRemoval := .ok

def tinyGenesis : Genesis tinyConfig := ⟨.fixedTestnet, [(1 : Nat)]⟩

def tinyStart : State tinyConfig := ⟨.fixedTestnet, ⟨[(1 : Nat)], List.pairwise_singleton _ _, by decide⟩, ()⟩

def tinySteps : List (Step tinyConfig) :=
  [.dispatch true (.approve (2 : Nat)), .dispatch true (.advance .foundationOnly), .dispatch true (.approve (2 : Nat)),
   .dispatch true (.remove (1 : Nat)), .dispatch false (.advance .permissionlessEligibility)]

theorem admission_follows_its_log_tiny :
    History tinyGenesis ((machine tinyConfig).run tinyStart tinySteps) ((machine tinyConfig).trace tinyStart tinySteps) ∧
      ((∀ rest, tinyConfig.graduationReady rest = false) →
        ((machine tinyConfig).run tinyStart tinySteps).mode ≠ .permissionlessEligibility) :=
  admission_follows_its_log () rfl tinySteps

end QuipValidator.Admission
