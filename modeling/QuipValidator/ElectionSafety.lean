import QuipValidator.ElectionRounds

/-! A removed validator leaves the election in progress. The snapshot of a round
names approved validators only, in every state of every run, so the check on the
winners never has a round to throw away; and the snapshot an election uses was
taken after the last removal, the last pause of the eras and the last export. -/
namespace QuipValidator.Election
open Fallible AdmissionData

variable {AccountId : Type} {M : MultiBlock AccountId}

/-- The engine has no snapshot that it did not have before. -/
def Keeps (before after : M.State) : Prop :=
  ∀ targets, M.targetSnapshot after = some targets → M.targetSnapshot before = some targets

theorem Keeps.rfl {engine : M.State} : Keeps (M := M) engine engine := fun _ => id

theorem Keeps.of_none {before after : M.State} (dropped : M.targetSnapshot after = none) :
    Keeps (M := M) before after := by
  intro targets taken
  rw [dropped] at taken
  cases taken

theorem Keeps.of_eq {before after : M.State} (same : M.targetSnapshot after = M.targetSnapshot before) :
    Keeps (M := M) before after := by
  intro targets taken
  rw [← same, taken]

theorem Keeps.none {before after : M.State} (keeps : Keeps (M := M) before after)
    (dropped : M.targetSnapshot before = none) : M.targetSnapshot after = none := by
  rw [Option.eq_none_iff_forall_ne_some]
  intro targets taken
  have earlier := keeps targets taken
  rw [dropped] at earlier
  cases earlier

theorem Keeps.trans {before middle after : M.State} (first : Keeps (M := M) before middle)
    (second : Keeps (M := M) middle after) : Keeps (M := M) before after :=
  fun targets taken => first targets (second targets taken)

section Engine
variable (lawful : M.Lawful)
include lawful

theorem keeps_start (engine : M.State) : Keeps (M := M) engine (kept engine (M.start engine)) := by
  cases started : M.start engine with
  | error reason => exact .rfl
  | ok after => exact .of_eq (lawful.start engine after started)

theorem keeps_rotate (engine : M.State) : Keeps (M := M) engine (kept engine (M.forceRotateRound engine)) := by
  cases rotated : M.forceRotateRound engine with
  | error reason => exact .rfl
  | ok after => exact .of_none (lawful.rotated engine after rotated)

theorem keeps_submit (solution : M.Solution) (engine : M.State) :
    Keeps (M := M) engine (kept engine (M.submit solution engine)) := by
  cases submitted : M.submit solution engine with
  | error reason => exact .rfl
  | ok after => exact .of_eq (lawful.submit solution engine after submitted)

variable [LinearOrder AccountId]

theorem screened_drops (approved : Approved AccountId)
    {outcome : Except M.Error (List (AccountId × M.Support)) × M.State}
    (dropped : M.targetSnapshot outcome.2 = none) : M.targetSnapshot (screened approved outcome).2 = none := by
  obtain ⟨reason | supports, engine⟩ := outcome
  · exact dropped
  · simp only [screened]
    split
    · cases started : M.start engine with
      | error reason => exact dropped
      | ok restarted => exact (lawful.start engine restarted started).trans dropped
    · exact dropped

/-- An election that the pallet was asked for leaves no snapshot behind. -/
theorem elect_drops {page : Nat} {approved : Approved AccountId} {engine : M.State}
    (ripe : (M.currentPhase engine).unripe = none) :
    M.targetSnapshot (elect page approved engine).2 = none := by
  simp only [elect, ripe]
  exact screened_drops lawful approved (lawful.exported page engine)

theorem keeps_elect (page : Nat) (approved : Approved AccountId) (engine : M.State) :
    Keeps (M := M) engine (elect page approved engine).2 := by
  cases ripe : (M.currentPhase engine).unripe with
  | none => exact .of_none (elect_drops lawful ripe)
  | some reason =>
    simp only [elect, ripe]
    exact .rfl

omit [LinearOrder AccountId] in
theorem keeps_maybeStart (rest : Storage M) : Keeps (M := M) rest.multiBlock (maybeStart rest).multiBlock := by
  unfold maybeStart
  split_ifs
  · exact keeps_rotate lawful _
  · exact .rfl
  · exact keeps_start lawful _
  · exact .rfl

omit lawful in
theorem answered_multiBlock (plan : Plan M) (approved : Approved AccountId) (staking : Staking AccountId)
    (answer : Except (ElectionError M) (List (AccountId × M.Support)) × M.State) :
    (plan.answered approved staking answer).2.multiBlock = answer.2 := by
  obtain ⟨reason | supports, engine⟩ := answer <;> rfl

theorem keeps_planned (plan : Plan M) (approved : Approved AccountId) (rest : Storage M) :
    Keeps (M := M) rest.multiBlock (plan.newSession approved rest).2.multiBlock := by
  unfold Plan.newSession
  split
  · rw [answered_multiBlock]
    exact keeps_elect lawful 0 approved rest.multiBlock
  · exact .rfl

/-- A plan that had the round exported leaves no snapshot behind. -/
theorem planned_drops {plan : Plan M} (approved : Approved AccountId) {rest : Storage M} (asks : plan.asks = true)
    (ripe : (M.currentPhase rest.multiBlock).unripe = none) :
    M.targetSnapshot (plan.newSession approved rest).2.multiBlock = none := by
  simp only [Plan.newSession, asks, if_true]
  rw [answered_multiBlock]
  exact elect_drops lawful ripe

theorem keeps_newSession (plan : Plan M) (approved : Approved AccountId) (rest : Storage M) :
    Keeps (M := M) rest.multiBlock (newSession plan approved rest).2.multiBlock :=
  (keeps_planned lawful plan approved rest).trans (keeps_maybeStart lawful _)

omit [LinearOrder AccountId] in
/-- A removal that succeeds leaves no snapshot behind, whether or not eras are paused. -/
theorem onRemoval_drops {rest after : Storage M} (cleaned : onRemoval rest = .ok after) :
    M.targetSnapshot after.multiBlock = none := by
  unfold onRemoval at cleaned
  split at cleaned
  · obtain ⟨rotated, rotation, cleaned⟩ := bind_success.mp cleaned
    have dropped : M.targetSnapshot rotated = none := by
      cases ran : M.forceRotateRound rest.multiBlock with
      | error reason =>
        rw [ran] at rotation
        cases rotation
      | ok engine =>
        rw [ran] at rotation
        cases rotation
        exact lawful.rotated _ _ ran
    split at cleaned
    · obtain ⟨started, restart, same⟩ := bind_success.mp cleaned
      cases same
      cases ran : M.start rotated with
      | error reason =>
        rw [ran] at restart
        cases restart
      | ok engine =>
        rw [ran] at restart
        cases restart
        exact (lawful.start _ _ ran).trans dropped
    · cases cleaned
      exact dropped
  · rename_i off
    cases cleaned
    exact lawful.idle _ (Bool.eq_false_iff.mpr off)

end Engine

variable [LinearOrder AccountId] {O : Origins} {account : AccountId → Scale.FixedBytes 32}

theorem electableTargets_success {bounds : DataProviderBounds} {page : Nat} {chain : Chain AccountId}
    {targets : List AccountId} (ran : electableTargets account bounds page chain = .ok targets) :
    targets = candidates chain := by
  simp only [electableTargets, bind_success, ensure_success] at ran
  obtain ⟨_, _, _, _, same⟩ := ran
  cases same
  rfl

/-- The targets of the snapshot are approved. -/
def Sound (w : World O M) : Prop :=
  ∀ targets, M.targetSnapshot w.engine = some targets → ∀ who ∈ targets, who ∈ w.approved.members

/-- A world whose engine has no new snapshot and in which nobody was removed. -/
theorem Sound.keep {w after : World O M} (sound : Sound w) (keeps : Keeps (M := M) w.engine after.engine)
    (members : ∀ who ∈ w.approved.members, who ∈ after.approved.members) : Sound after := by
  intro targets taken who member
  exact members who (sound targets (keeps targets taken) who member)

section Runs
variable (lawful : M.Lawful)
include lawful

theorem sound_admission {w : World O M} (sound : Sound w) (origin : O.RuntimeOrigin)
    (call : Admission.Call (admission O M)) : Sound ((machine account O M).next w (.admission origin call)) := by
  change Sound ((Admission.machine (admission O M)).next w (.dispatch origin call))
  cases ran : Admission.execute w origin call with
  | error fault =>
    simp only [Admission.machine, ran]
    exact sound
  | ok outcome =>
    obtain ⟨after, event⟩ := outcome
    simp only [Admission.machine, ran]
    cases call with
    | approve who =>
      obtain ⟨_, _, _, _, rest, members, _⟩ := Admission.approve_success ran
      refine sound.keep ?_ fun other member => (members other).mpr (.inr member)
      unfold World.engine
      rw [rest]
      exact .rfl
    | remove who =>
      obtain ⟨_, _, _, _, cleaned, _, _⟩ := Admission.remove_success ran
      intro targets taken
      have dropped : M.targetSnapshot after.rest.multiBlock = none := onRemoval_drops lawful cleaned
      rw [World.engine, dropped] at taken
      cases taken
    | advance mode =>
      obtain ⟨_, _, rfl⟩ := Admission.advance_success ran
      exact sound

theorem sound_step {w : World O M} (sound : Sound w) (step : Step O M) :
    Sound ((machine account O M).next w step) := by
  cases step with
  | admission origin call => exact sound_admission lawful sound origin call
  | poll =>
    intro targets taken who member
    rcases lawful.poll _ _ targets taken with before | fresh
    · exact sound targets before who member
    · rw [electableTargets_success fresh] at member
      exact (List.mem_filter.mp member).1
  | submit solution => exact sound.keep (keeps_submit lawful solution _) fun _ member => member
  | forceRotateRound => exact sound.keep (keeps_rotate lawful _) fun _ member => member
  | newSession plan => exact sound.keep (keeps_newSession lawful plan _ _) fun _ member => member
  | staking after => exact sound.keep .rfl fun _ member => member

omit lawful in
theorem unripe_ne_notAdmitted {phase : Phase} {reason : String} (unripe : phase.unripe = some reason) :
    reason ≠ notAdmitted := by
  unfold Phase.unripe at unripe
  split at unripe
  · exact ne_of_eq_of_ne (Option.some.inj unripe).symm (by decide)
  · split at unripe
    · exact ne_of_eq_of_ne (Option.some.inj unripe).symm (by decide)
    · cases unripe
  · cases unripe

/-- An answer that wastes no round and names approved winners. -/
def Screened (approved : Approved AccountId) (answer : Except (ElectionError M) (List (AccountId × M.Support))) : Prop :=
  answer ≠ .error (.other notAdmitted) ∧
    ∀ supports, answer = .ok supports → ∀ support ∈ supports, support.1 ∈ approved.members

/-- With approved targets the check on the winners finds nobody. -/
theorem elect_admitted {page : Nat} {approved : Approved AccountId} {engine : M.State}
    (sound : ∀ targets, M.targetSnapshot engine = some targets → ∀ who ∈ targets, who ∈ approved.members) :
    Screened approved (elect page approved engine).1 := by
  unfold elect
  split
  · rename_i reason unripe
    refine ⟨?_, ?_⟩
    · intro same
      cases same
      exact unripe_ne_notAdmitted unripe rfl
    · intro supports answered
      cases answered
  · have winners := lawful.winners page engine
    generalize M.elect page engine = outcome at winners
    obtain ⟨reason | supports, after⟩ := outcome
    · refine ⟨?_, ?_⟩
      · intro same
        cases same
      · intro supports answered
        cases answered
    · obtain ⟨targets, taken, among⟩ := winners supports rfl
      have admitted : ∀ support ∈ supports, support.1 ∈ approved.members :=
        fun support member => sound targets taken _ (among support member)
      have clean : (supports.any fun support => support.1 ∉ approved.members) = false := by
        rw [List.any_eq_false]
        intro support member
        simpa using admitted support member
      simp only [screened, clean]
      refine ⟨?_, ?_⟩
      · intro same
        cases same
      · intro others answered
        cases answered
        exact admitted

/-- A rotation in which no round was wasted and every validator planned is approved. -/
structure Admitted (rotation : Rotation M) : Prop where
  unwasted : rotation.outcome ≠ some (.error (.other notAdmitted))
  approved : ∀ validators, rotation.validators = some validators → ∀ who ∈ validators, who ∈ rotation.approved.members

omit lawful in
theorem admitted_answered (plan : Plan M) {approved : Approved AccountId} {staking : Staking AccountId}
    {answer : Except (ElectionError M) (List (AccountId × M.Support)) × M.State}
    (screened : Screened approved answer.1) : Admitted (plan.answered approved staking answer).1 := by
  obtain ⟨unwasted, winners⟩ := screened
  obtain ⟨reason | supports, engine⟩ := answer
  · refine ⟨?_, ?_⟩
    · intro same
      exact unwasted (Option.some.inj same)
    · intro validators planned
      cases planned
  · refine ⟨?_, ?_⟩
    · intro same
      cases Option.some.inj same
    · intro validators planned who member
      obtain ⟨support, chosen, rfl⟩ := plan.among supports validators planned who member
      exact winners supports rfl support chosen

theorem admitted_planned (plan : Plan M) {approved : Approved AccountId} {rest : Storage M}
    (sound : ∀ targets, M.targetSnapshot rest.multiBlock = some targets → ∀ who ∈ targets, who ∈ approved.members) :
    Admitted (plan.newSession approved rest).1 := by
  unfold Plan.newSession
  split
  · exact admitted_answered plan (elect_admitted lawful sound)
  · refine ⟨?_, ?_⟩
    · intro same
      cases same
    · intro validators planned
      cases planned

/-- In every run the snapshot names approved validators, every validator planned is
approved, and no election fails because a winner no longer is. -/
theorem removed_validators_leave_the_election {w : World O M} (fresh : M.targetSnapshot w.engine = none)
    (steps : List (Step O M)) :
    Sound ((machine account O M).run w steps) ∧ ∀ rotation ∈ (machine account O M).trace w steps, Admitted rotation := by
  have start : Sound w := by
    intro targets taken
    rw [fresh] at taken
    cases taken
  refine (machine account O M).run_follows
    (fun rotations w => Sound w ∧ ∀ rotation ∈ rotations, Admitted rotation) ⟨start, by simp⟩ ?_ steps
  rintro w rotations step ⟨sound, admitted⟩
  refine ⟨sound_step lawful sound step, ?_⟩
  intro rotation member
  rcases List.mem_append.mp member with earlier | here
  · exact admitted rotation earlier
  · cases step with
    | newSession plan =>
      obtain rfl := List.mem_singleton.mp here
      exact admitted_planned lawful plan sound
    | _ => cases here

/-! When the snapshot was taken. -/

omit lawful in
/-- A removal that succeeds, a rotation of the round, a session rotation with the eras
paused, and one in which the round is exported. -/
def Discards (w : World O M) : Step O M → Prop
  | .admission origin (.remove who) => ∃ outcome, Admission.remove w origin who = .ok outcome
  | .forceRotateRound => True
  | .newSession plan =>
    (plan.newSession w.approved w.rest).2.staking.forceEra = .forceNone ∨
      plan.asks = true ∧ (M.currentPhase w.engine).unripe = none
  | _ => False

omit [LinearOrder AccountId] in
theorem paused_drops (rotates : ∀ engine, ∃ after, M.forceRotateRound engine = .ok after) {rest : Storage M}
    (paused : rest.staking.forceEra = .forceNone) : M.targetSnapshot (maybeStart rest).multiBlock = none := by
  obtain ⟨after, rotated⟩ := rotates rest.multiBlock
  simp only [maybeStart, paused, if_true]
  split
  · simp only [rotated, kept]
    exact lawful.rotated _ _ rotated
  · rename_i off
    exact lawful.idle _ (Bool.eq_false_iff.mpr off)

theorem discards_drops (rotates : ∀ engine, ∃ after, M.forceRotateRound engine = .ok after) {w : World O M}
    {step : Step O M} (discards : Discards w step) :
    M.targetSnapshot (World.engine ((machine account O M).next w step)) = none := by
  cases step with
  | admission origin call =>
    cases call with
    | remove who =>
      obtain ⟨⟨after, event⟩, ran⟩ := discards
      obtain ⟨_, _, _, _, cleaned, _, _⟩ := Admission.remove_success ran
      have next : (machine account O M).next w (.admission origin (.remove who)) = after := by
        simp only [machine, Step.next, Admission.machine, Admission.execute, ran]
      rw [next]
      exact onRemoval_drops lawful cleaned
    | approve who => exact discards.elim
    | advance mode => exact discards.elim
  | forceRotateRound =>
    obtain ⟨after, rotated⟩ := rotates w.engine
    simp only [machine, Step.next, World.withEngine, World.engine, kept] at rotated ⊢
    rw [rotated]
    exact lawful.rotated _ _ rotated
  | newSession plan =>
    change M.targetSnapshot (maybeStart (plan.newSession w.approved w.rest).2).multiBlock = none
    rcases discards with paused | ⟨asks, ripe⟩
    · exact paused_drops lawful rotates paused
    · exact (keeps_maybeStart lawful _).none (planned_drops lawful w.approved asks ripe)
  | poll => exact discards.elim
  | submit solution => exact discards.elim
  | staking after => exact discards.elim

theorem keeps_step {w : World O M} {step : Step O M} (still : step ≠ .poll) :
    Keeps (M := M) w.engine (World.engine ((machine account O M).next w step)) := by
  cases step with
  | poll => exact absurd rfl still
  | submit solution => exact keeps_submit lawful solution _
  | forceRotateRound => exact keeps_rotate lawful _
  | newSession plan => exact keeps_newSession lawful plan _ _
  | staking after => exact .rfl
  | admission origin call =>
    change Keeps w.engine (World.engine ((Admission.machine (admission O M)).next w (.dispatch origin call)))
    cases ran : Admission.execute w origin call with
    | error fault =>
      simp only [Admission.machine, ran]
      exact .rfl
    | ok outcome =>
      obtain ⟨after, event⟩ := outcome
      simp only [Admission.machine, ran]
      cases call with
      | approve who =>
        obtain ⟨_, _, _, _, rest, _⟩ := Admission.approve_success ran
        exact .of_eq (congrArg (fun rest : Storage M => M.targetSnapshot rest.multiBlock) rest)
      | remove who =>
        obtain ⟨_, _, _, _, cleaned, _, _⟩ := Admission.remove_success ran
        exact .of_none (onRemoval_drops lawful cleaned)
      | advance mode =>
        obtain ⟨_, _, rfl⟩ := Admission.advance_success ran
        exact .rfl

omit lawful in
/-- The targets are those of a poll of the run, and no later step discarded the round. -/
def TakenAt (account : AccountId → Scale.FixedBytes 32) (w : World O M) (steps : List (Step O M))
    (targets : List AccountId) : Prop :=
  ∃ earlier later, steps = earlier ++ .poll :: later ∧
    targets = candidates (((machine account O M).run w earlier).rest.staking.chain
      ((machine account O M).run w earlier).approved) ∧
    ∀ between step rest, later = between ++ step :: rest →
      ¬ Discards ((machine account O M).run w (earlier ++ .poll :: between)) step

omit lawful in
theorem TakenAt.later {w : World O M} {steps : List (Step O M)} {step : Step O M} {targets : List AccountId}
    (taken : TakenAt account w steps targets) (harmless : ¬ Discards ((machine account O M).run w steps) step) :
    TakenAt account w (steps ++ [step]) targets := by
  obtain ⟨earlier, later, rfl, provided, harmlessly⟩ := taken
  refine ⟨earlier, later ++ [step], by simp, provided, ?_⟩
  intro between other rest split
  rcases Machine.concat_split split with ⟨_, rfl, rfl⟩ | ⟨front, _, among⟩
  · exact harmless
  · exact harmlessly between other front among

/-- A snapshot that a run ends with was taken by a poll of that run, of the targets
electable then, after the last removal, the last forced rotation, the last session
rotation with the eras paused and the last export. -/
theorem snapshot_postdates_removals (rotates : ∀ engine, ∃ after, M.forceRotateRound engine = .ok after)
    {w : World O M} (fresh : M.targetSnapshot w.engine = none) (steps : List (Step O M)) {targets : List AccountId}
    (taken : M.targetSnapshot (World.engine ((machine account O M).run w steps)) = some targets) :
    TakenAt account w steps targets := by
  induction steps using List.reverseRecOn with
  | nil =>
    rw [Machine.run, List.foldl_nil, fresh] at taken
    cases taken
  | append_singleton steps step ih =>
    rw [Machine.run_concat] at taken
    have harmless : ¬ Discards ((machine account O M).run w steps) step := by
      intro discards
      rw [discards_drops lawful rotates discards] at taken
      cases taken
    by_cases polls : step = .poll
    · subst polls
      rcases lawful.poll _ _ targets taken with before | provided
      · exact (ih before).later harmless
      · exact ⟨steps, [], rfl, electableTargets_success provided, by simp⟩
    · exact (ih (keeps_step lawful polls targets taken)).later harmless

omit lawful in
/-- What a session rotation leaves. Paused eras leave no round. Otherwise a round that is
not ripe yet is left alone, and where planning is due there is a round afterwards, whether
or not staking asked for one and whatever became of it. -/
theorem rotation_schedules
    (rotates : ∀ engine, ∃ after, M.forceRotateRound engine = .ok after ∧ M.status after = false)
    (starts : ∀ engine, M.status engine = false → ∃ after, M.start engine = .ok after ∧ M.status after = true)
    (plan : Plan M) (approved : Approved AccountId) (rest : Storage M) :
    ((newSession plan approved rest).2.staking.forceEra = .forceNone →
      M.status (newSession plan approved rest).2.multiBlock = false) ∧
    ((newSession plan approved rest).2.staking.forceEra ≠ .forceNone →
      ((M.currentPhase rest.multiBlock).unripe ≠ none → M.status rest.multiBlock = true →
        (newSession plan approved rest).2.multiBlock = rest.multiBlock) ∧
      ((newSession plan approved rest).2.staking.due →
        M.status (newSession plan approved rest).2.multiBlock = true)) := by
  have untouched : (newSession plan approved rest).2.staking = (plan.newSession approved rest).2.staking := by
    simp only [newSession, maybeStart]
    split_ifs <;> rfl
  rw [untouched]
  have unripe : (M.currentPhase rest.multiBlock).unripe ≠ none →
      (plan.newSession approved rest).2.multiBlock = rest.multiBlock := by
    intro early
    obtain ⟨reason, early⟩ := Option.ne_none_iff_exists'.mp early
    simp only [Plan.newSession]
    split
    · simp only [answered_multiBlock, elect, early]
    · rfl
  change (_ → M.status (maybeStart (plan.newSession approved rest).2).multiBlock = false) ∧
    (_ → (_ → _ → (maybeStart (plan.newSession approved rest).2).multiBlock = _) ∧
      (_ → M.status (maybeStart (plan.newSession approved rest).2).multiBlock = true))
  generalize (plan.newSession approved rest).2 = planned at unripe
  unfold maybeStart
  refine ⟨?_, ?_⟩
  · intro paused
    obtain ⟨after, rotated, off⟩ := rotates planned.multiBlock
    rw [if_pos paused]
    split
    · simp only [rotated, kept, off]
    · rename_i off
      exact Bool.eq_false_iff.mpr off
  · intro running
    rw [if_neg running]
    refine ⟨?_, ?_⟩
    · intro early active
      have same := unripe early
      rw [if_neg (by rw [same, active]; simp), same]
    · intro due
      split
      · rename_i idle
        obtain ⟨after, started, active⟩ := starts planned.multiBlock idle.2
        simp only [started, kept, active]
      · rename_i busy
        exact (Bool.eq_false_or_eq_true _).resolve_right fun off => busy ⟨due, off⟩

end Runs

/-! A small runtime: accounts are numbers, and the pallet solves a round by electing
every target of its snapshot. -/

def tinyEngine : MultiBlock Nat where
  State := Phase × List Nat
  Error := Unit
  Support := Unit
  Solution := Unit
  currentPhase := Prod.fst
  status engine := decide (engine.1 ≠ .off)
  targetSnapshot engine := if engine.1 = .off ∨ engine.1 = .snapshot 1 then none else some engine.2
  start engine := if engine.1 = .off then .ok (.snapshot 1, []) else .error ()
  forceRotateRound _ := .ok (.off, [])
  onPoll data engine :=
    match engine.1, data.targets with
    | .snapshot 1, .ok targets => (.snapshot 0, targets)
    | .snapshot 1, .error _ => (.off, [])
    | .snapshot _, _ => (.unsigned (UnsignedPhase - 1), engine.2)
    | .unsigned 0, _ => (.done, engine.2)
    | .unsigned (left + 1), _ => (.unsigned left, engine.2)
    | _, _ => engine
  submit _ engine := .ok engine
  elect _ engine :=
    if engine.1 = .off ∨ engine.1 = .snapshot 1 then (.error (), (.off, []))
    else (.ok (engine.2.map fun who => (who, ())), (.off, []))

theorem tinyEngine_lawful : tinyEngine.Lawful where
  idle engine off := by
    have phase : engine.1 = .off := by simpa [tinyEngine] using off
    simp [tinyEngine, phase]
  start engine after started := by
    simp only [tinyEngine] at started ⊢
    split at started
    · rename_i phase
      cases started
      simp [phase]
    · cases started
  rotated engine after rotated := by
    cases rotated
    rfl
  submit solution engine after submitted := by
    cases submitted
    rfl
  poll data engine targets taken := by
    obtain ⟨phase, held⟩ := engine
    simp only [tinyEngine] at taken ⊢
    split at taken
    · rename_i provided
      simpa [provided] using taken
    · simp at taken
    · rename_i page _ _
      by_cases first : page = 1
      · subst first
        cases provided : data.targets <;> simp_all
      · left
        simpa [first] using taken
    all_goals simp_all
  exported page engine := by
    simp only [tinyEngine]
    split <;> simp
  winners page engine supports answered := by
    simp only [tinyEngine] at answered ⊢
    split at answered
    · cases answered
    · rename_i active
      cases answered
      refine ⟨engine.2, if_neg active, ?_⟩
      intro support member
      obtain ⟨who, listed, rfl⟩ := List.mem_map.mp member
      exact listed

/-- The council or not. -/
def tinyOrigins : Origins := ⟨Bool, id, fun _ => true⟩

def tinyAccount (_ : Nat) : Scale.FixedBytes 32 := ⟨List.replicate 32 0, List.length_replicate⟩

def tinyApproved : Approved Nat := ⟨[1, 2], by simp, by decide⟩

/-- Two approved validators, no round, and an era forced at every rotation. -/
def tinyWorld : World tinyOrigins tinyEngine where
  mode := .foundationOnly
  approved := tinyApproved
  rest :=
    { staking :=
        { validators := {1, 2}, nextKeys := {1, 2}, nominators := ∅, weightOf := fun _ => 10, validatorCount := 2,
          forceEra := .forceAlways, currentEra := none, erasStartSessionIndex := fun _ => none, currentIndex := 0 }
      multiBlock := ((.off, []) : Phase × List Nat) }

/-- Staking asks and makes every winner a validator. -/
def tinyPlan : Plan tinyEngine where
  asks := true
  validators supports := some (supports.map Prod.fst)
  among supports chosen planned who member := by
    cases planned
    simpa using member
  writes _ staking := staking

/-- A round is started, its snapshot taken, a validator removed, and the round started
with the removal polled again. -/
def tinySteps : List (Step tinyOrigins tinyEngine) :=
  [.newSession tinyPlan, .poll, .poll, .admission true (.remove (1 : Nat)), .poll, .poll, .poll]

theorem tinyWorld_fresh : tinyEngine.targetSnapshot tinyWorld.engine = none := rfl

/-- The same steps, and the session rotation that elects the other validator. -/
def tinyRotations : List (Step tinyOrigins tinyEngine) := tinySteps ++ [.newSession tinyPlan]

theorem removed_validators_leave_the_election_tiny :
    Sound ((machine tinyAccount tinyOrigins tinyEngine).run tinyWorld tinyRotations) ∧
      ∀ rotation ∈ (machine tinyAccount tinyOrigins tinyEngine).trace tinyWorld tinyRotations, Admitted rotation :=
  removed_validators_leave_the_election tinyEngine_lawful tinyWorld_fresh tinyRotations

theorem tinySteps_snapshot :
    tinyEngine.targetSnapshot (World.engine ((machine tinyAccount tinyOrigins tinyEngine).run tinyWorld tinySteps)) =
      some [2] := by
  decide +kernel

theorem snapshot_postdates_removals_tiny : TakenAt tinyAccount tinyWorld tinySteps [2] := by
  have rotates : ∀ engine, ∃ after, tinyEngine.forceRotateRound engine = .ok after := fun _ => ⟨(.off, []), rfl⟩
  exact snapshot_postdates_removals tinyEngine_lawful rotates tinyWorld_fresh tinySteps tinySteps_snapshot

theorem rotation_schedules_tiny :
    tinyEngine.status (newSession tinyPlan tinyWorld.approved tinyWorld.rest).2.multiBlock = true :=
  ((rotation_schedules (fun _ => ⟨(.off, []), rfl, rfl⟩)
    (fun engine idle => ⟨(.snapshot 1, []), if_pos (by simpa [tinyEngine] using idle), rfl⟩)
    tinyPlan tinyWorld.approved tinyWorld.rest).2 (by decide)).2 (.inr (.inr rfl))

end QuipValidator.Election
