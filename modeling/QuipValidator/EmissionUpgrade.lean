import QuipValidator.EmissionAccounting
import QuipValidator.EmissionRebase

/-! The checks the two pallets run on their own storage. What `try_state` asks for is an
invariant of every operation, whatever state it is first met in. The checks around the
rebase pass whenever the new anchor can be computed. A faucet from a legacy chain is
closed, and a faucet that is not open never opens. -/
namespace QuipValidator.Emission
open Fallible Unsigned

variable {T : Config} {s s' : State T}

def tryState (s : State T) : Fallible String Unit := do
  ensure (validRoutes T s.routes.val s.enabled = true) "invalid emission routes"
  ensure (s.faucetIssued ≤ s.faucetBudget) "faucet budget exceeded"
  let total ← okOr (s.routes.val.foldlM (fun total route => checkedAdd u128Max total (s.issued route.1)) 0)
    "issuance overflow"
  ensure (total = s.scheduledIssued) "scheduled issuance mismatch"

/-- What `pre_upgrade` hands over to `post_upgrade`. -/
structure PreState where
  start : Option Nat
  issued : Nat
  issuance : Nat
  counters : List (Nat × Nat)

section Checks
variable (multiplyByRational : Nat → Nat → Nat → Option Nat)

def preUpgrade (now : Nat) (chain : OnChain T) : Fallible String PreState := do
  tryState chain.state
  let start ←
    if chain.version < VERSION then
      match rebasedStart multiplyByRational now chain.state with
      | .ok start => pure start
      | .error why => fail why
    else pure chain.state.startAt
  pure
    { start
      issued := chain.state.scheduledIssued
      issuance := chain.state.currency.totalIssuance
      counters := chain.state.routes.val.map fun route => (route.1, chain.state.issued route.1) }

def postUpgrade (before : PreState) (chain : OnChain T) : Fallible String Unit := do
  ensure (chain.version = VERSION) "rebase did not complete"
  ensure (chain.state.startAt = before.start) "incorrect rebase anchor"
  ensure (chain.state.scheduledIssued = before.issued) "rebase changed issued counter"
  ensure (chain.state.currency.totalIssuance = before.issuance) "rebase changed issuance"
  before.counters.forM fun (subnet, amount) =>
    ensure (chain.state.issued subnet = amount) "rebase changed subnet counter"
  tryState chain.state

end Checks

/-- What `try_state` asks for. -/
structure Sound (s : State T) : Prop where
  valid : validRoutes T s.routes.val s.enabled = true
  budget : s.faucetIssued ≤ s.faucetBudget
  fits : s.total ≤ u128Max
  scheduled : s.scheduledIssued = s.total

theorem tryState_ok : tryState s = .ok () ↔ Sound s := by
  have sum : (s.routes.val.map fun route => s.issued route.1).sum = s.total := by
    rw [State.total, State.ids, List.map_map]
    rfl
  simp only [tryState, bind_success, ensure_success, okOr_success, foldlM_checkedAdd_eq_some (Nat.zero_le _),
    Nat.zero_add, sum]
  constructor
  · rintro ⟨_, valid, _, budget, _, ⟨fits, rfl⟩, same⟩
    exact ⟨valid, budget, fits, same.symm⟩
  · intro sound
    exact ⟨(), sound.valid, (), sound.budget, _, ⟨sound.fits, rfl⟩, sound.scheduled.symm⟩

namespace Sound

theorem distinct (sound : Sound s) : s.ids.Nodup := (validRoutes_spec sound.valid).1

/-- The check reads the routes, the counters and the faucet's budget only. -/
theorem of_same (sound : Sound s) (enabled : s'.enabled = s.enabled) (routes : s'.routes = s.routes)
    (counters : s'.subnetIssued = s.subnetIssued) (scheduled : s'.scheduledIssued = s.scheduledIssued)
    (budget : s'.faucetIssued ≤ s'.faucetBudget) : Sound s' := by
  have issued : s'.issued = s.issued := funext fun subnet => by rw [State.issued, counters, State.issued]
  have total : s'.total = s.total := by rw [State.total, State.ids, routes, issued, State.total, State.ids]
  exact ⟨routes ▸ enabled ▸ sound.valid, budget, total ▸ sound.fits, by rw [scheduled, total]; exact sound.scheduled⟩

theorem advanced (sound : Sound s) (moved : Advanced s s') : Sound s' := by
  have scheduled := moved.scheduled
  have held := sound.scheduled
  have fits := sound.fits
  refine ⟨?_, ?_, ?_, ?_⟩
  · rw [moved.frame]
    exact sound.valid
  · rw [moved.frame]
    exact sound.budget
  · rcases moved.capped.1 with same | capped <;> omega
  · omega

end Sound

/-- No operation switches the schedule on or off. -/
theorem next_enabled (distinct : s.ids.Nodup) (step : Step T) : (step.next s).enabled = s.enabled := by
  cases step with
  | accrue now credits =>
    cases anchor : s.startAt with
    | none =>
      simp only [Step.next, accrue, anchor]
      split <;> rfl
    | some start =>
      rw [Step.next, (accrue_anchored anchor distinct now credits).1.frame]
  | mint credits origin who amount =>
    rcases mint_cases credits origin who amount s with ⟨reason, failed⟩ | ⟨_, _, minted⟩
    · rw [Step.next, failed]
    · rw [Step.next, minted]
      rfl
  | setAuthority origin authority =>
    by_cases allowed : T.authorityOrigin origin = true <;>
      simp [Step.next, setAuthority, transactional, State.deposit, allowed]
  | disable origin =>
    by_cases allowed : T.mintOrigin s.authority origin = true <;> by_cases running : s.faucetState = .enabled <;>
      simp [Step.next, disable, transactional, State.deposit, allowed, running]
  | pay refusal subnet who requested =>
    simp only [Step.next, pay]
    split
    · rfl
    · cases refusal <;> rfl
  | external currency => rfl

theorem Sound.step (sound : Sound s) (step : Step T) : Sound (step.next s) := by
  have enabled := next_enabled sound.distinct step
  have quiet : Uncounted s (step.next s) → Sound (step.next s) := fun same =>
    sound.of_same enabled same.routes same.subnetIssued same.scheduledIssued
      (by rw [same.faucetIssued, same.faucetBudget]; exact sound.budget)
  cases step with
  | accrue now credits =>
    cases anchor : s.startAt with
    | none =>
      simp only [Step.next, accrue, anchor]
      split
      · exact sound
      · exact sound.of_same rfl rfl rfl rfl sound.budget
    | some start => exact sound.advanced (accrue_anchored anchor sound.distinct now credits).1
  | mint credits origin who amount =>
    rcases mint_cases credits origin who amount s with ⟨reason, failed⟩ | ⟨_, within, minted⟩
    · rw [Step.next, failed]
      exact sound
    · rw [Step.next, minted]
      exact sound.of_same rfl rfl rfl rfl within
  | setAuthority origin authority => exact quiet (setAuthority_uncounted origin authority s)
  | disable origin => exact quiet (disable_uncounted origin s)
  | pay refusal subnet who requested => exact quiet (pay_uncounted refusal subnet who requested s)
  | external currency => exact sound.of_same rfl rfl rfl rfl sound.budget

theorem Sound.run (sound : Sound s) (inputs : List (Step T)) : Sound ((steps T).run s inputs) := by
  induction inputs generalizing s with
  | nil => exact sound
  | cons step rest ih => exact ih (sound.step step)

theorem asserted_success {condition : Prop} [Decidable condition] {message : String} {result : Unit} :
    asserted condition message = .ok result ↔ condition := by
  by_cases holds : condition <;> simp [asserted, holds]

theorem build_sound {config : GenesisConfig T} {currency : Currency T} (built : config.build currency = .ok s) :
    Sound s := by
  have scheduled := (build_accounted built).scheduled
  simp only [GenesisConfig.build, bind_success, asserted_success, expect_success, BoundedVec.tryFrom_eq_some] at built
  obtain ⟨_, valid, _, _, _, _, routes, bounded, _, _, same⟩ := built
  cases same
  exact ⟨bounded ▸ valid, Nat.zero_le _, scheduled ▸ Nat.zero_le _, scheduled⟩

/-- What the rebase leaves: the anchor is the one `pre_upgrade` found, the rest is as it was. -/
theorem upgrade_checked (multiplyByRational : Nat → Nat → Nat → Option Nat) {chain : OnChain T}
    (sound : Sound chain.state) (known : chain.version ≤ VERSION) (now : Nat) :
    ((∃ before, preUpgrade multiplyByRational now chain = .ok before ∧
        postUpgrade before (onRuntimeUpgrade multiplyByRational now chain) = .ok ()) ∨
      ((∃ why, preUpgrade multiplyByRational now chain = .error (.error why)) ∧
        onRuntimeUpgrade multiplyByRational now chain = chain)) ∧
      Sound (onRuntimeUpgrade multiplyByRational now chain).state := by
  have checked := tryState_ok.mpr sound
  have accepted : ∀ start after, after = (⟨VERSION, { chain.state with startAt := start }⟩ : OnChain T) →
      Sound after.state ∧ postUpgrade ⟨start, chain.state.scheduledIssued, chain.state.currency.totalIssuance,
        chain.state.routes.val.map fun route => (route.1, chain.state.issued route.1)⟩ after = .ok () := by
    rintro start _ rfl
    have moved : Sound { chain.state with startAt := start } := sound.of_same rfl rfl rfl rfl sound.budget
    refine ⟨moved, ?_⟩
    simp only [postUpgrade, bind_success, ensure_success]
    refine ⟨(), trivial, (), trivial, (), trivial, (), trivial, (), ?_, tryState_ok.mpr moved⟩
    refine forM_success.mpr fun entry member => ?_
    obtain ⟨route, _, rfl⟩ := List.mem_map.mp member
    exact ensure_success.mpr rfl
  by_cases current : VERSION ≤ chain.version
  · have same : onRuntimeUpgrade multiplyByRational now chain = chain := if_pos current
    rw [same]
    refine ⟨.inl ⟨_, ?_, (accepted chain.state.startAt chain ?_).2⟩, sound⟩
    · simp only [preUpgrade, checked, if_neg (Nat.not_lt.mpr current)]
      rfl
    · obtain ⟨version, state⟩ := chain
      exact congrArg (OnChain.mk · state) (Nat.le_antisymm known current)
  · cases rebased : rebasedStart multiplyByRational now chain.state with
    | ok start =>
      have moved : onRuntimeUpgrade multiplyByRational now chain = ⟨VERSION, { chain.state with startAt := start }⟩ := by
        rw [onRuntimeUpgrade, if_neg current, rebased]
      obtain ⟨still, passed⟩ := accepted start _ moved
      refine ⟨.inl ⟨_, ?_, passed⟩, still⟩
      simp only [preUpgrade, checked, if_pos (Nat.lt_of_not_le current), rebased]
      rfl
    | error why =>
      have same : onRuntimeUpgrade multiplyByRational now chain = chain := by
        rw [onRuntimeUpgrade, if_neg current, rebased]
      rw [same]
      refine ⟨.inr ⟨⟨why, ?_⟩, rfl⟩, sound⟩
      simp only [preUpgrade, checked, if_pos (Nat.lt_of_not_le current), rebased]
      rfl

theorem Sound.atRate {annual : Nat} {s : State (T.atRate annual)} (sound : Sound s) : Sound (s.atRate T) :=
  ⟨sound.valid, sound.budget, sound.fits, sound.scheduled⟩

/-- `try_state` on the life of a chain. It passes at any genesis that was built. If it
passes once, it does so after every run, at the old rate, across the upgrade and at the
new rate. Around the upgrade either `pre_upgrade` reports that there is no new anchor and
nothing is changed, or `post_upgrade` accepts what the upgrade did. -/
theorem try_state_survives_upgrade (T : Config) (multiplyByRational : Nat → Nat → Nat → Option Nat) :
    (∀ (config : GenesisConfig T) currency s, config.build currency = .ok s → tryState s = .ok ()) ∧
    ∀ annual version now (s : State (T.atRate annual)) (earlier : List (Step (T.atRate annual))) (chain : OnChain T),
      tryState s = .ok () → version ≤ VERSION → chain = ⟨version, ((steps _).run s earlier).atRate T⟩ →
      tryState ((steps _).run s earlier) = .ok () ∧
      ((∃ before, preUpgrade multiplyByRational now chain = .ok before ∧
          postUpgrade before (onRuntimeUpgrade multiplyByRational now chain) = .ok ()) ∨
        ((∃ why, preUpgrade multiplyByRational now chain = .error (.error why)) ∧
          onRuntimeUpgrade multiplyByRational now chain = chain)) ∧
      ∀ later : List (Step T),
        tryState ((steps T).run (onRuntimeUpgrade multiplyByRational now chain).state later) = .ok () := by
  refine ⟨fun config currency s built => tryState_ok.mpr (build_sound built), ?_⟩
  · rintro annual version now s earlier _ passed known rfl
    have sound := (tryState_ok.mp passed).run earlier
    have read : Sound (OnChain.mk version (((steps _).run s earlier).atRate T)).state := sound.atRate
    obtain ⟨checked, still⟩ := upgrade_checked multiplyByRational read known now
    exact ⟨tryState_ok.mpr sound, checked, fun later => tryState_ok.mpr (still.run later)⟩

/-- Ten seconds at four units a second, the upgrade, and a minute at three. -/
theorem try_state_survives_upgrade_tinyChain :
    (∃ before, preUpgrade tinyMultiply 20 tinyChain = .ok before ∧
      postUpgrade before (onRuntimeUpgrade tinyMultiply 20 tinyChain) = .ok ()) ∧
    tryState ((steps tinyConfig).run (onRuntimeUpgrade tinyMultiply 20 tinyChain).state [.accrue 80 fun _ => true]) =
      .ok () := by
  obtain ⟨_, checked, later⟩ := (try_state_survives_upgrade tinyConfig tinyMultiply).2 (4 * YEAR_SECONDS) 1 20 tinyOldStart
    [.accrue 11 fun _ => true] tinyChain (by decide +kernel) (by decide) rfl
  refine ⟨checked.resolve_right ?_, later _⟩
  rintro ⟨_, same⟩
  have version : (onRuntimeUpgrade tinyMultiply 20 tinyChain).version = 2 := by decide +kernel
  rw [same] at version
  cases version

/-- The storage of the faucet as an upgrade finds it; the legacy pallet had none. -/
structure FaucetStorage (T : Config) where
  version : Nat
  state : Option FaucetState
  authority : Option T.AccountId

/-- `VERSION` of the faucet. -/
def FAUCET_VERSION : Nat := 1

namespace FaucetStorage

/-- `on_runtime_upgrade` of the faucet. -/
def onRuntimeUpgrade (faucet : FaucetStorage T) : FaucetStorage T :=
  if faucet.version < FAUCET_VERSION then
    { version := FAUCET_VERSION
      state := if faucet.state ≠ some .permanentlyDisabled then some .paused else faucet.state
      authority := none }
  else faucet

/-- `pre_upgrade` of the faucet: whether it is a legacy one, and whether its fuse is blown. -/
def preUpgrade (faucet : FaucetStorage T) : Bool × Bool :=
  (faucet.version < FAUCET_VERSION, faucet.state = some .permanentlyDisabled)

/-- `State::get`. -/
def stateOrDefault (faucet : FaucetStorage T) : FaucetState := faucet.state.getD .permanentlyDisabled

/-- `post_upgrade` of the faucet. -/
def postUpgrade (before : Bool × Bool) (faucet : FaucetStorage T) : Fallible String Unit :=
  let (legacy, wasDisabled) := before
  if legacy then
    ensure (faucet.stateOrDefault = (if wasDisabled then .permanentlyDisabled else .paused) ∧ faucet.authority.isNone)
      "legacy faucet must fail closed"
  else .ok ()

end FaucetStorage

/-- The two pallets with this faucet. -/
def State.withFaucet (s : State T) (faucet : FaucetStorage T) : State T :=
  { s with faucetState := faucet.stateOrDefault, authority := faucet.authority }

/-- There is no way from a closed faucet to an open one. -/
theorem closed_step (closed : s.faucetState ≠ .enabled) (step : Step T) :
    (step.next s).faucetState = s.faucetState ∧ (step.next s).faucetIssued = s.faucetIssued := by
  cases step with
  | accrue now credits => exact accrue_faucet now credits s
  | mint credits origin who amount =>
    rcases mint_cases credits origin who amount s with ⟨reason, failed⟩ | ⟨running, _⟩
    · rw [Step.next, failed]
      exact ⟨rfl, rfl⟩
    · exact absurd running closed
  | setAuthority origin authority =>
    by_cases allowed : T.authorityOrigin origin = true <;>
      simp [Step.next, setAuthority, transactional, State.deposit, allowed]
  | disable origin =>
    by_cases allowed : T.mintOrigin s.authority origin = true <;>
      simp [Step.next, disable, transactional, allowed, closed]
  | pay refusal subnet who requested =>
    simp only [Step.next, pay]
    split
    · exact ⟨rfl, rfl⟩
    · cases refusal <;> exact ⟨rfl, rfl⟩
  | external currency => exact ⟨rfl, rfl⟩

theorem closed_run (closed : s.faucetState ≠ .enabled) (inputs : List (Step T)) :
    ((steps T).run s inputs).faucetState = s.faucetState ∧ ((steps T).run s inputs).faucetIssued = s.faucetIssued := by
  induction inputs generalizing s with
  | nil => exact ⟨rfl, rfl⟩
  | cons step rest ih =>
    obtain ⟨state, issued⟩ := closed_step closed step
    obtain ⟨later, counter⟩ := ih (state ▸ closed)
    exact ⟨later.trans state, counter.trans issued⟩

theorem closed_refuses (closed : s.faucetState ≠ .enabled) (credits : Bool) (origin : T.RuntimeOrigin)
    (who : T.AccountId) (amount : Nat) :
    (∃ reason, mint credits origin who amount s = (.error reason, s)) ∧
      ∃ reason, disable origin s = (.error reason, s) := by
  constructor
  · rcases mint_cases credits origin who amount s with failed | ⟨running, _⟩
    · exact failed
    · exact absurd running closed
  · by_cases allowed : T.mintOrigin s.authority origin = true
    · exact ⟨.faucet .disabled, by simp [disable, transactional, allowed, closed]⟩
    · exact ⟨.badOrigin, by simp [disable, transactional, allowed]⟩

/-- What an upgrade does to the faucet of a legacy chain, whatever was stored. Its own
check passes and another upgrade changes nothing. In every later run the faucet is in the
state the upgrade left it in, blown if it was blown and paused if not; it has issued
nothing more, and nobody can mint from it or blow its fuse. -/
theorem legacy_faucet_stays_closed {faucet : FaucetStorage T} (legacy : faucet.version < FAUCET_VERSION) (s : State T) :
    FaucetStorage.postUpgrade faucet.preUpgrade faucet.onRuntimeUpgrade = .ok () ∧
    faucet.onRuntimeUpgrade.onRuntimeUpgrade = faucet.onRuntimeUpgrade ∧
    faucet.onRuntimeUpgrade.authority = none ∧
    ∀ run after, (steps T).run (s.withFaucet faucet.onRuntimeUpgrade) run = after →
      after.faucetState = (if faucet.state = some .permanentlyDisabled then .permanentlyDisabled else .paused) ∧
      after.faucetIssued = s.faucetIssued ∧
      ∀ credits origin who amount,
        (∃ reason, mint credits origin who amount after = (.error reason, after)) ∧
        ∃ reason, disable origin after = (.error reason, after) := by
  have upgraded : faucet.onRuntimeUpgrade =
      { version := FAUCET_VERSION
        state := if faucet.state ≠ some .permanentlyDisabled then some .paused else faucet.state
        authority := none } := if_pos legacy
  have state : faucet.onRuntimeUpgrade.stateOrDefault =
      if faucet.state = some .permanentlyDisabled then .permanentlyDisabled else .paused := by
    rw [upgraded]
    by_cases blown : faucet.state = some .permanentlyDisabled <;> simp [FaucetStorage.stateOrDefault, blown]
  have closed : (s.withFaucet faucet.onRuntimeUpgrade).faucetState ≠ .enabled := by
    have held : (s.withFaucet faucet.onRuntimeUpgrade).faucetState = _ := state
    rw [held]
    split <;> decide
  refine ⟨?_, ?_, by rw [upgraded], ?_⟩
  · simp only [FaucetStorage.postUpgrade, FaucetStorage.preUpgrade, legacy, decide_true, if_true, ensure_success, state,
      decide_eq_true_eq, true_and]
    rw [upgraded]
    rfl
  · exact if_neg (by rw [upgraded]; exact Nat.lt_irrefl _)
  · rintro run _ rfl
    obtain ⟨kept, issued⟩ := closed_run closed run
    exact ⟨kept.trans state, issued, closed_refuses (kept ▸ closed)⟩

theorem legacy_faucet_stays_closed_tiny :
    ((steps tinyConfig).run (tinyStart.withFaucet (FaucetStorage.onRuntimeUpgrade ⟨0, none, none⟩)) tinyRun).faucetState =
      .paused := by
  obtain ⟨_, _, _, always⟩ := @legacy_faucet_stays_closed tinyConfig ⟨0, none, none⟩ (by decide) tinyStart
  exact (always tinyRun _ rfl).1

end QuipValidator.Emission
