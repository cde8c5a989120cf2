import QuipValidator.ValidatorAdmission

/-! Elections among the approved validators: the data provider's targets, the
election provider that staking asks, the scheduler of rounds, and what a removal
does to the round in progress. The multi-block election pallet and staking are
not part of this repository; they are parameters. -/
namespace QuipValidator.AdmissionData
open Fallible

def MaxValidatorSetCap : Nat := 50
def TargetSnapshotPerBlock : Nat := 64

section Targets
variable {AccountId : Type} [LinearOrder AccountId] (account : AccountId → Scale.FixedBytes 32)

/-- `bounds.slice_exhausted(targets)`; sizes and counts are `u32`. -/
def DataProviderBounds.sliceExhausted (bounds : DataProviderBounds) (targets : List AccountId) : Bool :=
  (bounds.count.any fun count => count < asU32 targets.length) ||
    bounds.size.any fun size => size < asU32 (Scale.encodeVec (fun who => (account who).val) targets).length

def electableTargets (bounds : DataProviderBounds) (page : Nat) (chain : Chain AccountId) :
    Fallible String (List AccountId) := do
  ensure (page = 0) "only one election page is supported"
  let targets := candidates chain
  ensure (bounds.sliceExhausted account targets = false) "approved target snapshot exceeds bounds"
  pure targets

/-- `desired_targets`; staking's own answer is its validator count. -/
def desiredTargets (validatorCount : Nat) (chain : Chain AccountId) : Fallible String Nat := do
  ensure (validatorCount ≤ MaxValidatorSetCap) "requested validator count exceeds the admitted validator set cap"
  pure (min validatorCount (asU32 (candidates chain).length))

end Targets
end QuipValidator.AdmissionData

namespace QuipValidator.Election
open Fallible AdmissionData
open scoped AdmissionData.BoundedBTreeSet

/-- Zero-based offset of the planning session within an era. -/
def PlanningSession : Nat := 3
def UnsignedPhase : Nat := 300

/-- `pallet_staking::Forcing`. -/
inductive Forcing where
  | notForcing
  | forceNew
  | forceNone
  | forceAlways
  deriving DecidableEq

/-- `multi_block::Phase`. -/
inductive Phase where
  | off
  | snapshot (page : Nat)
  | signed (left : Nat)
  | signedValidation (left : Nat)
  | unsigned (left : Nat)
  | done
  | export (page : Nat)
  | emergency
  deriving DecidableEq

/-- What a snapshot block asks the data provider for. -/
structure SnapshotData (AccountId : Type) where
  targets : Fallible String (List AccountId)
  voters : Fallible String (List (Voter AccountId) × Option ElectionVotersTruncated)
  desired : Fallible String Nat

/-- The multi-block election pallet, as far as the runtime uses it. -/
structure MultiBlock (AccountId : Type) where
  State : Type
  Error : Type
  Support : Type
  /-- A submission of an unsigned or signed solution. -/
  Solution : Type
  currentPhase : State → Phase
  /-- `status().is_ok()`: a round is in progress. -/
  status : State → Bool
  /-- `PagedTargetSnapshot` of the current round. -/
  targetSnapshot : State → Option (List AccountId)
  start : State → Except Error State
  /-- `manage(Root, ForceRotateRound)`. -/
  forceRotateRound : State → Except Error State
  onPoll : SnapshotData AccountId → State → State
  submit : Solution → State → Except Error State
  /-- `elect(page)`; an error keeps the writes made before it. -/
  elect : Nat → State → Except Error (List (AccountId × Support)) × State

variable {AccountId : Type} [LinearOrder AccountId]

/-- What is relied on of that pallet. Only a poll takes a snapshot, of the targets the
provider has then; rotating or exporting a round drops it; and there is none while no
round is in progress. The winners are among the targets of the snapshot. -/
structure MultiBlock.Lawful (M : MultiBlock AccountId) : Prop where
  idle : ∀ engine, M.status engine = false → M.targetSnapshot engine = none
  start : ∀ engine after, M.start engine = .ok after → M.targetSnapshot after = M.targetSnapshot engine
  rotated : ∀ engine after, M.forceRotateRound engine = .ok after → M.targetSnapshot after = none
  submit : ∀ solution engine after, M.submit solution engine = .ok after →
    M.targetSnapshot after = M.targetSnapshot engine
  poll : ∀ data engine targets, M.targetSnapshot (M.onPoll data engine) = some targets →
    M.targetSnapshot engine = some targets ∨ data.targets = .ok targets
  exported : ∀ page engine, M.targetSnapshot (M.elect page engine).2 = none
  winners : ∀ page engine supports, (M.elect page engine).1 = .ok supports →
    ∃ targets, M.targetSnapshot engine = some targets ∧ ∀ support ∈ supports, support.1 ∈ targets

/-- What the runtime reads of staking and of the session pallet. -/
structure Staking (AccountId : Type) where
  /-- The keys of `Validators`. -/
  validators : Finset AccountId
  /-- The keys of the session pallet's `NextKeys`. -/
  nextKeys : Finset AccountId
  nominators : StorageMap AccountId (Nominations AccountId)
  weightOf : AccountId → Nat
  validatorCount : Nat
  forceEra : Forcing
  currentEra : Option Nat
  erasStartSessionIndex : Nat → Option Nat
  /-- `CurrentIndex` of the session pallet. -/
  currentIndex : Nat

/-- The storage next to that of the admission pallet. -/
structure Storage (M : MultiBlock AccountId) where
  staking : Staking AccountId
  multiBlock : M.State

variable {M : MultiBlock AccountId}

inductive RemovalError (M : MultiBlock AccountId) where
  | multiBlock (error : M.Error)
  | other (text : String)

/-- `result.map_err(convert)?`. -/
def converted {ε δ α : Type} (convert : ε → δ) : Except ε α → Fallible δ α
  | .ok value => .ok value
  | .error reason => fail (convert reason)

/-- `InvalidateAdmissionRound::on_removal`. -/
def onRemoval (rest : Storage M) : Fallible (RemovalError M) (Storage M) :=
  if M.status rest.multiBlock = true then do
    let rotated ← converted RemovalError.multiBlock (M.forceRotateRound rest.multiBlock)
    if rest.staking.forceEra ≠ .forceNone then
      let started ← converted (fun _ => RemovalError.other "could not restart admission election") (M.start rotated)
      pure { rest with multiBlock := started }
    else pure { rest with multiBlock := rotated }
  else .ok rest

/-- The origins the admission calls tell apart. -/
structure Origins where
  RuntimeOrigin : Type
  /-- `FoundationOrigin`: two thirds of the council. -/
  foundation : RuntimeOrigin → Bool
  signed : RuntimeOrigin → Bool

/-- The admission pallet as the runtime configures it: `Graduation` is `()`. -/
def admission (O : Origins) (M : MultiBlock AccountId) : Admission.Config where
  AccountId
  order := inferInstance
  RuntimeOrigin := O.RuntimeOrigin
  foundationOrigin := O.foundation
  ensureSigned := O.signed
  maxAuthorities := MaxAdmittedAuthorities
  Rest := Storage M
  graduationReady _ := false
  RemovalError := RemovalError M
  onRemoval := onRemoval

/-- The approved set of the runtime. -/
abbrev Approved (AccountId : Type) [LinearOrder AccountId] := BoundedBTreeSet AccountId MaxAdmittedAuthorities

/-- The chain as the data provider reads it. -/
def Staking.chain (staking : Staking AccountId) (approved : Approved AccountId) : Chain AccountId where
  approved
  validators := staking.validators
  nextKeys := staking.nextKeys
  nominators := staking.nominators
  weightOf := staking.weightOf

/-- The provider's answers, with the bounds of the runtime. -/
def snapshotData (account : AccountId → Scale.FixedBytes 32) (staking : Staking AccountId)
    (approved : Approved AccountId) : SnapshotData AccountId :=
  let chain := staking.chain approved
  { targets := electableTargets account ⟨some TargetSnapshotPerBlock, none⟩ 0 chain
    voters := electingVoters account ⟨some VoterSnapshotPerBlock, none⟩ 0 chain
    desired := desiredTargets staking.validatorCount chain }

/-- `multi_block::ElectionError`, with the texts the runtime puts into it. -/
inductive ElectionError (M : MultiBlock AccountId) where
  | other (text : String)
  | multiBlock (error : M.Error)

/-- A round that has not had its snapshot and its first unsigned block yet. -/
def Phase.unripe : Phase → Option String
  | .snapshot _ => some "snapshot not ready"
  | .unsigned left => if UnsignedPhase - 1 ≤ left then some "unsigned phase just opened" else none
  | _ => none

def notAdmitted : String := "election winner no longer admitted"

/-- The check on the winners, after the pallet's own `elect`. A solved set is never
trimmed: with a winner that is no longer approved the round starts again. -/
def screened (approved : Approved AccountId) :
    Except M.Error (List (AccountId × M.Support)) × M.State →
      Except (ElectionError M) (List (AccountId × M.Support)) × M.State
  | (.error reason, engine) => (.error (.multiBlock reason), engine)
  | (.ok supports, engine) =>
    if supports.any fun support => support.1 ∉ approved.members then
      match M.start engine with
      | .error reason => (.error (.multiBlock reason), engine)
      | .ok restarted => (.error (.other notAdmitted), restarted)
    else (.ok supports, engine)

/-- `AdmissionMultiBlockElection::elect`, with the state it leaves whatever it answers. -/
def elect (page : Nat) (approved : Approved AccountId) (engine : M.State) :
    Except (ElectionError M) (List (AccountId × M.Support)) × M.State :=
  match (M.currentPhase engine).unripe with
  | some reason => (.error (.other reason), engine)
  | none => screened approved (M.elect page engine)

/-- `let _ = result`: the state after an operation whose error is dropped. -/
def kept {ε σ : Type} (before : σ) : Except ε σ → σ
  | .ok after => after
  | .error _ => before

/-- The planning offset of the current era is reached, or an era is forced. -/
def Staking.due (staking : Staking AccountId) : Prop :=
  PlanningSession ≤ staking.currentIndex - (staking.currentEra.bind staking.erasStartSessionIndex).getD 0 ∨
    staking.forceEra = .forceNew ∨ staking.forceEra = .forceAlways

instance (staking : Staking AccountId) : Decidable staking.due := by
  unfold Staking.due
  infer_instance

/-- `ElectionScheduler::maybe_start`. -/
def maybeStart (rest : Storage M) : Storage M :=
  if rest.staking.forceEra = .forceNone then
    if M.status rest.multiBlock = true then
      { rest with multiBlock := kept rest.multiBlock (M.forceRotateRound rest.multiBlock) }
    else rest
  else if rest.staking.due ∧ M.status rest.multiBlock = false then
    { rest with multiBlock := kept rest.multiBlock (M.start rest.multiBlock) }
  else rest

/-- How staking plans at a session rotation: whether it asks its election provider, which
of the winners it makes validators, and what it writes. -/
structure Plan (M : MultiBlock AccountId) where
  asks : Bool
  validators : List (AccountId × M.Support) → Option (List AccountId)
  among : ∀ supports chosen, validators supports = some chosen → ∀ who ∈ chosen, ∃ support ∈ supports, support.1 = who
  /-- The storage after the plan; no supports when it did not ask or was refused. -/
  writes : Option (List (AccountId × M.Support)) → Staking AccountId → Staking AccountId

/-- What a session rotation saw and planned. -/
structure Rotation (M : MultiBlock AccountId) where
  approved : Approved AccountId
  /-- The provider's answer, if staking asked. -/
  outcome : Option (Except (ElectionError M) (List (AccountId × M.Support)))
  validators : Option (List AccountId)

/-- What staking makes of the provider's answer. -/
def Plan.answered (plan : Plan M) (approved : Approved AccountId) (staking : Staking AccountId) :
    Except (ElectionError M) (List (AccountId × M.Support)) × M.State → Rotation M × Storage M
  | (.ok supports, engine) =>
    (⟨approved, some (.ok supports), plan.validators supports⟩,
      { staking := plan.writes (some supports) staking, multiBlock := engine })
  | (.error reason, engine) =>
    (⟨approved, some (.error reason), none⟩, { staking := plan.writes none staking, multiBlock := engine })

/-- `HistoricalStaking::new_session`. -/
def Plan.newSession (plan : Plan M) (approved : Approved AccountId) (rest : Storage M) : Rotation M × Storage M :=
  if plan.asks then plan.answered approved rest.staking (elect 0 approved rest.multiBlock)
  else (⟨approved, none, none⟩, { rest with staking := plan.writes none rest.staking })

/-- `ElectionScheduler::new_session`. -/
def newSession (plan : Plan M) (approved : Approved AccountId) (rest : Storage M) : Rotation M × Storage M :=
  let (rotation, rest) := plan.newSession approved rest
  (rotation, maybeStart rest)

/-! Runs of the runtime around its elections. -/

abbrev World (O : Origins) (M : MultiBlock AccountId) := Admission.State (admission O M)

inductive Step (O : Origins) (M : MultiBlock AccountId) where
  | admission (origin : O.RuntimeOrigin) (call : Admission.Call (admission O M))
  | poll
  | submit (solution : M.Solution)
  /-- The council or root forces a rotation. -/
  | forceRotateRound
  | newSession (plan : Plan M)
  /-- Anything else that staking and the session pallet do. -/
  | staking (after : Staking AccountId)

variable {O : Origins}

def World.withEngine (w : World O M) (engine : M.State) : World O M :=
  { w with rest := { staking := w.rest.staking, multiBlock := engine } }

def World.engine (w : World O M) : M.State := w.rest.multiBlock

def Step.next (account : AccountId → Scale.FixedBytes 32) (w : World O M) : Step O M → World O M
  | .admission origin call => (Admission.machine (Election.admission O M)).next w (.dispatch origin call)
  | .poll => w.withEngine (M.onPoll (snapshotData account w.rest.staking w.approved) w.engine)
  | .submit solution => w.withEngine (kept w.engine (M.submit solution w.engine))
  | .forceRotateRound => w.withEngine (kept w.engine (M.forceRotateRound w.engine))
  | .newSession plan => { w with rest := (Election.newSession plan w.approved w.rest).2 }
  | .staking after => { w with rest := { staking := after, multiBlock := w.engine } }

def machine (account : AccountId → Scale.FixedBytes 32) (O : Origins) (M : MultiBlock AccountId) :
    Machine (World O M) (Step O M) (Rotation M) where
  next := Step.next account
  report w step :=
    match step with
    | .newSession plan => [(Election.newSession plan w.approved w.rest).1]
    | _ => []

end QuipValidator.Election
