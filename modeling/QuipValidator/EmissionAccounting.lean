import QuipValidator.EmissionMoves
import QuipValidator.Machine

/-! The supply the emission pallets create, over whole runs. Every step keeps the
issuance, the scheduled and the faucet counters in step, and every counter of a route
below its share of the entitlement at the last clock value. -/
namespace QuipValidator.Emission
open Fallible Unsigned

variable {T : Config} {s s' s₀ : State T}

/-- One operation of the two pallets, or whatever the others do to the currency between them. -/
inductive Step (T : Config) where
  | accrue (now : Nat) (credits : Nat → Bool)
  | mint (credits : Bool) (origin : T.RuntimeOrigin) (who : T.AccountId) (amount : Nat)
  | setAuthority (origin : T.RuntimeOrigin) (authority : Option T.AccountId)
  | disable (origin : T.RuntimeOrigin)
  | pay (refusal : Option DispatchError) (subnet : Nat) (who : T.AccountId) (requested : Nat)
  | external (currency : Currency T)

namespace Step

def next (s : State T) : Step T → State T
  | accrue now credits => Emission.accrue now credits s
  | mint credits origin who amount => (Emission.mint credits origin who amount s).2
  | setAuthority origin authority => (Emission.setAuthority origin authority s).2
  | disable origin => (Emission.disable origin s).2
  | pay refusal subnet who requested => (Emission.pay refusal subnet who requested s).2
  | external currency => { s with currency }

/-- The clock value of an accrual. -/
def clock : Step T → Option Nat
  | accrue now _ => some now
  | _ => none

def isExternal : Step T → Bool
  | external _ => true
  | _ => false

end Step

/-- The two pallets, reporting by how much each of their operations changed the issuance. -/
def steps (T : Config) : Machine (State T) (Step T) Int where
  next := fun s step => step.next s
  report := fun s step =>
    if step.isExternal then [] else [((step.next s).currency.totalIssuance : Int) - s.currency.totalIssuance]

/-- The clock values of a run. -/
def clocks (inputs : List (Step T)) : List Nat := inputs.filterMap Step.clock

/-- The storage after a successful faucet mint. -/
def State.minted (s : State T) (who : T.AccountId) (amount : Nat) : State T :=
  { s with
    currency := s.currency.credited who amount
    faucetIssued := s.faucetIssued + amount
    events := s.events ++ [.faucetMinted who amount] }

/-- All that a faucet mint can do. -/
theorem mintFaucet_cases (credits : Bool) (who : T.AccountId) (amount : Nat) (s : State T) :
    (∃ reason, mintFaucet credits who amount s = (.error reason, s)) ∨
      (s.faucetIssued + amount ≤ s.faucetBudget ∧ mintFaucet credits who amount s = (.ok (), s.minted who amount)) := by
  by_cases positive : amount = 0
  · exact .inl ⟨.emission .zeroAmount, by simp [mintFaucet, transactional, positive]⟩
  · by_cases counts : s.faucetIssued + amount ≤ u128Max
    · by_cases within : s.faucetIssued + amount ≤ s.faucetBudget
      · obtain ⟨reason, after, deposited⟩ := @depositExact_eq T credits who amount positive s
        split at deposited
        · refine .inr ⟨within, ?_⟩
          simp [mintFaucet, transactional, positive, checkedAdd, counts, Nat.not_lt.mpr within, deposited,
            State.minted, State.deposit]
        · refine .inl ⟨reason, ?_⟩
          simp [mintFaucet, transactional, positive, checkedAdd, counts, Nat.not_lt.mpr within, deposited]
      · exact .inl ⟨.emission .budgetExceeded, by
          simp [mintFaucet, transactional, positive, checkedAdd, counts, Nat.not_le.mp within]⟩
    · exact .inl ⟨.emission .overflow, by simp [mintFaucet, transactional, positive, checkedAdd, counts]⟩

/-- All that `mint` can do. -/
theorem mint_cases (credits : Bool) (origin : T.RuntimeOrigin) (who : T.AccountId) (amount : Nat) (s : State T) :
    (∃ reason, mint credits origin who amount s = (.error reason, s)) ∨
      (s.faucetState = .enabled ∧ s.faucetIssued + amount ≤ s.faucetBudget ∧
        mint credits origin who amount s = (.ok (), (s.minted who amount).deposit (.minted who amount))) := by
  by_cases allowed : T.mintOrigin s.authority origin = true
  · by_cases running : s.faucetState = .enabled
    · by_cases positive : amount = 0
      · exact .inl ⟨.faucet .zeroAmount, by simp [mint, transactional, allowed, running, positive]⟩
      · rcases mintFaucet_cases credits who amount s with ⟨reason, failed⟩ | ⟨within, minted⟩
        · exact .inl ⟨reason, by simp [mint, transactional, allowed, running, positive, failed]⟩
        · exact .inr ⟨running, within, by simp [mint, transactional, allowed, running, positive, minted]⟩
    · exact .inl ⟨.faucet .disabled, by simp [mint, transactional, allowed, running]⟩
  · exact .inl ⟨.badOrigin, by simp [mint, transactional, allowed]⟩

/-- The counters of both pallets and the issuance are as before; only the faucet's
authority, its fuse, balances and events may differ. -/
structure Uncounted (s s' : State T) : Prop where
  startAt : s'.startAt = s.startAt
  routes : s'.routes = s.routes
  subnetIssued : s'.subnetIssued = s.subnetIssued
  scheduledIssued : s'.scheduledIssued = s.scheduledIssued
  faucetBudget : s'.faucetBudget = s.faucetBudget
  faucetIssued : s'.faucetIssued = s.faucetIssued
  fuse : s.faucetState = .permanentlyDisabled → s'.faucetState = .permanentlyDisabled
  issuance : s'.currency.totalIssuance = s.currency.totalIssuance

private theorem Uncounted.refl (s : State T) : Uncounted s s := ⟨rfl, rfl, rfl, rfl, rfl, rfl, id, rfl⟩

theorem setAuthority_uncounted (origin : T.RuntimeOrigin) (authority : Option T.AccountId) (s : State T) :
    Uncounted s (setAuthority origin authority s).2 := by
  by_cases allowed : T.authorityOrigin origin = true
  · simp only [setAuthority, transactional, allowed]
    exact ⟨rfl, rfl, rfl, rfl, rfl, rfl, id, rfl⟩
  · simp only [setAuthority, transactional, allowed]
    exact .refl s

theorem disable_uncounted (origin : T.RuntimeOrigin) (s : State T) : Uncounted s (disable origin s).2 := by
  by_cases allowed : T.mintOrigin s.authority origin = true
  · by_cases running : s.faucetState = .enabled
    · simp only [disable, transactional, allowed, running]
      exact ⟨rfl, rfl, rfl, rfl, rfl, rfl, fun _ => rfl, rfl⟩
    · have refused : disable origin s = (.error (.faucet .disabled), s) := by
        simp [disable, transactional, allowed, running]
      rw [refused]
      exact .refl s
  · simp only [disable, transactional, allowed]
    exact .refl s

theorem pay_uncounted (refusal : Option DispatchError) (subnet : Nat) (who : T.AccountId) (requested : Nat)
    (s : State T) : Uncounted s (pay refusal subnet who requested s).2 := by
  unfold pay
  dsimp only
  split
  · exact ⟨rfl, rfl, rfl, rfl, rfl, rfl, id, rfl⟩
  · cases refusal with
    | some reason => exact ⟨rfl, rfl, rfl, rfl, rfl, rfl, id, rfl⟩
    | none => exact ⟨rfl, rfl, rfl, rfl, rfl, rfl, id, rfl⟩

/-- The invariant of a run: `last` is its last clock value and `caused` the change of
issuance by its operations. -/
structure Accounted (s : State T) (last : Nat) (caused : Int) : Prop where
  distinct : s.ids.Nodup
  shares : ((s.routes.val.map Prod.snd).map Perbill.parts).sum ≤ billion
  caused : caused = (s.scheduledIssued + s.faucetIssued : Nat)
  scheduled : s.scheduledIssued = s.total
  due : ∀ start, s.startAt = some start →
    ∀ route ∈ s.routes.val, s.issued route.1 ≤ route.2.mulFloor (exactEntitlement T (last - start))
  unanchored : s.startAt = none → ∀ subnet, s.issued subnet = 0
  budget : s.faucetIssued ≤ s.faucetBudget

/-- What is due at a clock value is due later. -/
private theorem Accounted.later {last now : Nat} {caused : Int} (held : Accounted s last caused) (ordered : last ≤ now) :
    Accounted s now caused := by
  refine { held with due := ?_ }
  intro start anchored route member
  refine (held.due start anchored route member).trans ?_
  apply route.2.mulFloor_mono
  exact exactEntitlement_mono T (by omega)

private theorem Accounted.uncounted {last : Nat} {caused : Int} (held : Accounted s last caused)
    (same : Uncounted s s') : Accounted s' last caused := by
  have ids : s'.ids = s.ids := by
    rw [State.ids, same.routes, State.ids]
  have issued : s'.issued = s.issued := by
    funext subnet
    rw [State.issued, same.subnetIssued, State.issued]
  have total : s'.total = s.total := by
    rw [State.total, ids, issued, State.total]
  refine ⟨ids ▸ held.distinct, same.routes ▸ held.shares, ?_, ?_, ?_, ?_, ?_⟩
  · rw [same.scheduledIssued, same.faucetIssued]
    exact held.caused
  · rw [same.scheduledIssued, total]
    exact held.scheduled
  · rw [same.startAt, same.routes, issued]
    exact held.due
  · rw [same.startAt, issued]
    exact held.unanchored
  · rw [same.faucetIssued, same.faucetBudget]
    exact held.budget

/-- One accrual, at a clock value no earlier than the last one. -/
private theorem Accounted.accrue {last now : Nat} {caused : Int} (held : Accounted s last caused) (ordered : last ≤ now)
    (credits : Nat → Bool) :
    Accounted (Emission.accrue now credits s) now
      (caused + (((Emission.accrue now credits s).currency.totalIssuance : Int) - s.currency.totalIssuance)) := by
  cases anchor : s.startAt with
  | none =>
    have kept : Accounted { s with startAt := some now } now caused := by
      refine { held with due := ?_, unanchored := ?_ }
      · intro start _ route _
        exact le_of_eq_of_le (held.unanchored anchor route.1) (Nat.zero_le _)
      · intro impossible
        cases impossible
    unfold Emission.accrue
    split
    · simpa using held.later ordered
    · simpa [anchor] using kept
  | some start =>
    obtain ⟨advanced, atMost, _⟩ := accrue_anchored anchor held.distinct now credits
    have scheduled := advanced.scheduled
    have issuance := advanced.issuance
    have matched := held.scheduled
    have before := held.caused
    have faucet : (Emission.accrue now credits s).faucetIssued = s.faucetIssued := by
      rw [advanced.frame]
    refine ⟨advanced.ids ▸ held.distinct, advanced.routes ▸ held.shares, ?_, ?_, ?_, ?_, ?_⟩
    · rw [faucet]
      omega
    · omega
    · intro other anchored route member
      rw [advanced.frame] at anchored
      cases anchor.symm.trans anchored
      rw [advanced.routes] at member
      have most := atMost route member
      have known := (held.later ordered).due start anchor route member
      omega
    · intro unanchored
      rw [advanced.frame] at unanchored
      cases anchor.symm.trans unanchored
    · rw [faucet, advanced.frame]
      exact held.budget

/-- One faucet mint. -/
private theorem Accounted.minted {last amount : Nat} {caused : Int} (held : Accounted s last caused)
    (who : T.AccountId) (within : s.faucetIssued + amount ≤ s.faucetBudget) :
    Accounted ((s.minted who amount).deposit (.minted who amount)) last (caused + amount) := by
  have before := held.caused
  refine { held with caused := ?_, budget := within }
  simp only [State.deposit, State.minted]
  omega

/-- Every step keeps the accounts. -/
theorem Accounted.step {last : Nat} {caused : Int} (held : Accounted s last caused) (step : Step T)
    (ordered : ∀ now, step.clock = some now → last ≤ now) :
    Accounted (step.next s) (step.clock.getD last) (caused + ((steps T).report s step).sum) := by
  have silent : ∀ step : Step T, step.isExternal = false → step.clock = none → Uncounted s (step.next s) →
      Accounted (step.next s) (step.clock.getD last) (caused + ((steps T).report s step).sum) := by
    intro step own idle same
    have quiet : ((steps T).report s step).sum = 0 := by
      simp [steps, own, same.issuance]
    rw [quiet, idle, Int.add_zero]
    exact held.uncounted same
  cases step with
  | accrue now credits =>
    have accrued := held.accrue (ordered now rfl) credits
    simpa [steps, Step.isExternal, Step.next, Step.clock] using accrued
  | mint credits origin who amount =>
    rcases mint_cases credits origin who amount s with ⟨reason, failed⟩ | ⟨_, within, minted⟩
    · apply silent _ rfl rfl
      rw [Step.next, failed]
      exact .refl s
    · have grown := held.minted who within
      simp only [steps, Step.isExternal, Step.next, minted, Step.clock, Option.getD_none]
      have delta : (((s.minted who amount).deposit (.minted who amount)).currency.totalIssuance : Int) -
          s.currency.totalIssuance = amount := by
        simp [State.deposit, State.minted, Currency.credited]
      simpa [delta] using grown
  | setAuthority origin authority => exact silent _ rfl rfl (setAuthority_uncounted origin authority s)
  | disable origin => exact silent _ rfl rfl (disable_uncounted origin s)
  | pay refusal subnet who requested => exact silent _ rfl rfl (pay_uncounted refusal subnet who requested s)
  | external currency =>
    have same : Accounted { s with currency } last caused := { held with }
    simpa [steps, Step.isExternal, Step.next, Step.clock] using same

theorem build_accounted {config : GenesisConfig T} {currency : Currency T}
    (built : config.build currency = .ok s₀) : Accounted s₀ 0 0 := by
  have asserted_success : ∀ {condition : Prop} [Decidable condition] {message : String} {result : Unit},
      asserted condition message = .ok result → condition := by
    intro condition _ message result passed
    by_contra refused
    rw [asserted, if_neg refused] at passed
    cases passed
  simp only [GenesisConfig.build, bind_success, expect_success] at built
  obtain ⟨_, valid, _, _, _, _, routes, bounded, _, _, same⟩ := built
  cases same
  rw [BoundedVec.tryFrom_eq_some] at bounded
  obtain ⟨distinct, shares⟩ := validRoutes_spec (asserted_success valid)
  refine ⟨?_, ?_, rfl, ?_, ?_, fun _ _ => rfl, Nat.zero_le _⟩
  · rw [State.ids, bounded]
    exact distinct
  · rw [bounded]
    exact shares
  · exact (List.sum_eq_zero (by simp [State.issued])).symm
  · intro _ _ route _
    exact Nat.zero_le _

/-- The accounts after any run. -/
theorem run_accounted (held : Accounted s₀ 0 0) (inputs : List (Step T)) (ordered : (clocks inputs).Pairwise (· ≤ ·)) :
    Accounted ((steps T).run s₀ inputs) ((clocks inputs).getLastD 0) ((steps T).trace s₀ inputs).sum := by
  apply (steps T).run_timed Step.clock (fun reports last s => Accounted s last reports.sum) held _ inputs ordered
  intro s reports last step accounted later
  rw [List.sum_append]
  exact accounted.step step later

/-- The schedule has issued at most what is due at the last clock value. -/
theorem Accounted.scheduledIssued_le {last : Nat} {caused : Int} (held : Accounted s last caused) {start : Nat}
    (anchored : s.startAt = some start) : s.scheduledIssued ≤ exactEntitlement T (last - start) := by
  have due := held.due start anchored
  calc s.scheduledIssued = (s.routes.val.map fun route => s.issued route.1).sum := by
        rw [held.scheduled, State.total, State.ids, List.map_map]
        rfl
    _ ≤ (s.routes.val.map fun route => route.2.mulFloor (exactEntitlement T (last - start))).sum :=
        List.sum_le_sum due
    _ = ((s.routes.val.map Prod.snd).map fun share => share.mulFloor (exactEntitlement T (last - start))).sum := by
        rw [List.map_map]
        rfl
    _ ≤ exactEntitlement T (last - start) := Perbill.sum_mulFloor_le _ held.shares _

/-- Nothing has been issued before the schedule is anchored. -/
theorem Accounted.unissued {last : Nat} {caused : Int} (held : Accounted s last caused) (idle : s.startAt = none) :
    s.scheduledIssued = 0 := by
  rw [held.scheduled, State.total]
  apply List.sum_eq_zero
  intro amount member
  obtain ⟨subnet, _, rfl⟩ := List.mem_map.mp member
  exact held.unanchored idle subnet

theorem accrue_faucet (now : Nat) (credits : Nat → Bool) (s : State T) :
    (accrue now credits s).faucetState = s.faucetState ∧ (accrue now credits s).faucetIssued = s.faucetIssued := by
  have loop : ∀ (total : Nat) (routes : List Route) (s : State T),
      (routes.foldl (accrueRoute credits total) s).faucetState = s.faucetState ∧
        (routes.foldl (accrueRoute credits total) s).faucetIssued = s.faucetIssued := by
    intro total routes
    induction routes with
    | nil => exact fun s => ⟨rfl, rfl⟩
    | cons route rest ih =>
      intro s
      obtain ⟨fuse, counter⟩ := ih (accrueRoute credits total s route)
      rw [List.foldl_cons, fuse, counter]
      rcases accrueRoute_cases credits total s route.1 route.2 with ⟨_, same⟩ | ⟨_, _, same⟩ | ⟨_, _, _, same⟩ <;>
        rw [same] <;> exact ⟨rfl, rfl⟩
  unfold accrue
  split
  · exact ⟨rfl, rfl⟩
  · split
    · exact ⟨rfl, rfl⟩
    · split
      · exact ⟨rfl, rfl⟩
      · exact loop _ _ s

/-- A blown fuse stays blown and the faucet counter stays with it. -/
private theorem fuse_step (blown : s.faucetState = .permanentlyDisabled) (step : Step T) :
    (step.next s).faucetState = .permanentlyDisabled ∧ (step.next s).faucetIssued = s.faucetIssued := by
  have quiet : ∀ {s' : State T}, Uncounted s s' →
      s'.faucetState = .permanentlyDisabled ∧ s'.faucetIssued = s.faucetIssued :=
    fun same => ⟨same.fuse blown, same.faucetIssued⟩
  cases step with
  | accrue now credits =>
    have kept := accrue_faucet now credits s
    exact ⟨kept.1.trans blown, kept.2⟩
  | mint credits origin who amount =>
    rcases mint_cases credits origin who amount s with ⟨reason, failed⟩ | ⟨running, _⟩
    · rw [Step.next, failed]
      exact ⟨blown, rfl⟩
    · rw [blown] at running
      cases running
  | setAuthority origin authority => exact quiet (setAuthority_uncounted origin authority s)
  | disable origin => exact quiet (disable_uncounted origin s)
  | pay refusal subnet who requested => exact quiet (pay_uncounted refusal subnet who requested s)
  | external currency => exact ⟨blown, rfl⟩

private theorem fuse_run (blown : s.faucetState = .permanentlyDisabled) (later : List (Step T)) :
    ((steps T).run s later).faucetIssued = s.faucetIssued := by
  induction later generalizing s with
  | nil => rfl
  | cons step rest ih =>
    obtain ⟨still, same⟩ := fuse_step blown step
    exact (ih still).trans same

/-- The accounts of the emission pallets, after any run from a genesis that was
built, at clock values that never go back. The issuance their operations caused is
what they count; the scheduled counter is the sum over the routes; each route is
within its share of the entitlement, so all of them together are within it; the faucet
is within its budget and frozen once its fuse is blown; a funding or a mint that fails
leaves the storage as it was. -/
theorem emission_accounting {config : GenesisConfig T} {currency : Currency T} (built : config.build currency = .ok s₀)
    (inputs : List (Step T)) (ordered : (clocks inputs).Pairwise (· ≤ ·)) {s : State T}
    (ran : (steps T).run s₀ inputs = s) :
    ((steps T).trace s₀ inputs).sum = (s.scheduledIssued + s.faucetIssued : Nat) ∧
      s.scheduledIssued = (s.routes.val.map fun route => s.issued route.1).sum ∧
      (∀ now start total, (clocks inputs).getLast? = some now → s.startAt = some start →
        entitlement T (now - start) = some total →
        (∀ route ∈ s.routes.val, s.issued route.1 ≤ route.2.mulFloor total) ∧ s.scheduledIssued ≤ total) ∧
      s.faucetIssued ≤ s.faucetBudget ∧
      (s.faucetState = .permanentlyDisabled → ∀ later, ((steps T).run s later).faucetIssued = s.faucetIssued) ∧
      (∀ (s after : State T) credits subnet amount reason,
        fundSubnet credits subnet amount s = (.error reason, after) → after = s) ∧
      ∀ (s after : State T) credits origin who amount reason,
        mint credits origin who amount s = (.error reason, after) → after = s := by
  have held := run_accounted (build_accounted built) inputs ordered
  rw [ran] at held
  have scheduled : s.scheduledIssued = (s.routes.val.map fun route => s.issued route.1).sum := by
    rw [held.scheduled, State.total, State.ids, List.map_map]
    rfl
  refine ⟨held.caused, scheduled, ?_, held.budget, fun blown later => fuse_run blown later, ?_, ?_⟩
  · intro now start total last anchored defined
    have due := held.due start anchored
    have issued := held.scheduledIssued_le anchored
    rw [List.getLastD_eq_getLast?, last, Option.getD_some, ← (entitlement_exact defined).1] at due issued
    exact ⟨due, issued⟩
  · intro s after credits subnet amount reason failed
    exact transactional_error failed
  · intro s after credits origin who amount reason failed
    exact transactional_error failed

/-- Two accruals around a mint, a reward and the end of the faucet. -/
def tinyRun : List (Step tinyConfig) :=
  [.accrue 5 fun subnet => subnet = 0, .mint true (7 : Nat) (3 : Nat) 4, .disable (7 : Nat),
   .mint true (7 : Nat) (3 : Nat) 4, .accrue 11 fun _ => true, .pay none 0 (3 : Nat) 6]

theorem emission_accounting_tinyRun :
    ((steps tinyConfig).trace tinyStart tinyRun).sum = 33 ∧
      ((steps tinyConfig).run tinyStart tinyRun).scheduledIssued = 29 ∧
      ((steps tinyConfig).run tinyStart tinyRun).scheduledIssued ≤ 30 := by
  obtain ⟨caused, _, due, _⟩ :=
    emission_accounting tinyGenesis_build tinyRun (by decide) (s := (steps tinyConfig).run tinyStart tinyRun) rfl
  have scheduled : ((steps tinyConfig).run tinyStart tinyRun).scheduledIssued = 29 := by decide +kernel
  have faucet : ((steps tinyConfig).run tinyStart tinyRun).faucetIssued = 4 := by decide +kernel
  rw [scheduled, faucet] at caused
  refine ⟨caused, scheduled, (due 11 1 30 ?_ ?_ ?_).2⟩
  · rfl
  · decide +kernel
  · decide +kernel

end QuipValidator.Emission
