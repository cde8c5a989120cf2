import QuipValidator.EmissionController

/-! What each operation of the emission pallets does to the counters, said once. A
funding either leaves no trace or moves its amount into the pot, the counter of the
subnet and the two totals together, so whatever is funded in a call the totals grow
by what the counters of the routes grow. -/
namespace QuipValidator.Emission
open Fallible Unsigned

variable {T : Config} {s s' s₀ : State T}

theorem YEAR_SECONDS_pos : 0 < YEAR_SECONDS := by decide

/-- The annual emission for a time span, rounded down once. -/
def exactEntitlement (T : Config) (elapsed : Nat) : Nat := T.annualEmission * elapsed / YEAR_SECONDS

theorem exactEntitlement_mono (T : Config) {less more : Nat} (le : less ≤ more) :
    exactEntitlement T less ≤ exactEntitlement T more := by
  apply Nat.div_le_div_right
  exact Nat.mul_le_mul_left T.annualEmission le

/-- Whole years and the rest of a year round to the same value as the single division. -/
theorem entitlement_exact {elapsed total : Nat} (defined : entitlement T elapsed = some total) :
    total = exactEntitlement T elapsed ∧ total ≤ u128Max := by
  simp only [entitlement, Option.bind_eq_bind, Option.bind_eq_some_iff, checkedMul_eq_some, checkedAdd_eq_some]
    at defined
  obtain ⟨_, ⟨_, rfl⟩, _, ⟨_, rfl⟩, fits, rfl⟩ := defined
  refine ⟨?_, fits⟩
  calc T.annualEmission * (elapsed / YEAR_SECONDS) + T.annualEmission * (elapsed % YEAR_SECONDS) / YEAR_SECONDS
      = (YEAR_SECONDS * (T.annualEmission * (elapsed / YEAR_SECONDS)) +
          T.annualEmission * (elapsed % YEAR_SECONDS)) / YEAR_SECONDS := by
        rw [Nat.mul_add_div YEAR_SECONDS_pos]
    _ = T.annualEmission * (YEAR_SECONDS * (elapsed / YEAR_SECONDS) + elapsed % YEAR_SECONDS) / YEAR_SECONDS := by
        rw [Nat.mul_add, Nat.mul_left_comm]
    _ = exactEntitlement T elapsed := by rw [Nat.div_add_mod, exactEntitlement]

private theorem validRoutesFrom_spec (seen : List Nat) (sum : Nat) (routes : List Route)
    (valid : validRoutesFrom seen sum routes = true) :
    (routes.map Prod.fst).Nodup ∧ (∀ id ∈ routes.map Prod.fst, id ∉ seen) ∧
      sum + (routes.map fun route => route.2.parts).sum = billion := by
  induction routes generalizing seen sum with
  | nil => simpa [validRoutesFrom] using valid
  | cons route rest ih =>
    obtain ⟨id, share⟩ := route
    simp only [validRoutesFrom] at valid
    split at valid
    · cases valid
    · rename_i accepted
      obtain ⟨distinct, apart, whole⟩ := ih _ _ valid
      simp only [List.mem_append, List.mem_singleton, not_or] at apart
      refine ⟨?_, ?_, ?_⟩
      · rw [List.map_cons, List.nodup_cons]
        exact ⟨fun again => (apart id again).2 rfl, distinct⟩
      · intro other member
        rcases List.mem_cons.mp member with rfl | later
        · exact fun held => accepted (.inr held)
        · exact (apart other later).1
      · rw [List.map_cons, List.sum_cons, ← Nat.add_assoc]
        exact whole

/-- Valid routes name distinct subnets and share out at most the whole. -/
theorem validRoutes_spec {routes : List Route} {enabled : Bool} (valid : validRoutes T routes enabled = true) :
    (routes.map Prod.fst).Nodup ∧ ((routes.map Prod.snd).map Perbill.parts).sum ≤ billion := by
  unfold validRoutes at valid
  split at valid
  · cases valid
  · split at valid
    · rename_i empty
      rw [List.isEmpty_iff.mp empty]
      simp
    · obtain ⟨distinct, _, whole⟩ := validRoutesFrom_spec [] 0 routes valid
      refine ⟨distinct, ?_⟩
      rw [List.map_map]
      exact le_of_eq ((Nat.zero_add _).symm.trans whole)

/-- The currency after a credited deposit. -/
def Currency.credited (currency : Currency T) (who : T.AccountId) (amount : Nat) : Currency T where
  free := fun account => currency.free account + if account = who then amount else 0
  totalIssuance := currency.totalIssuance + amount

/-- The storage after a successful funding. -/
def State.funded (s : State T) (subnet amount : Nat) : State T :=
  { s with
    currency := s.currency.credited (T.pot subnet) amount
    subnetIssued := s.subnetIssued.insert subnet (s.issued subnet + amount)
    scheduledIssued := s.scheduledIssued + amount
    events := s.events ++ [.subnetFunded subnet amount] }

/-- A funding goes through: the currency credits it and no counter overflows. -/
def Fundable (s : State T) (credits : Bool) (subnet amount : Nat) : Prop :=
  credits = true ∧ s.issued subnet + amount ≤ u128Max ∧ s.scheduledIssued + amount ≤ u128Max ∧
    s.currency.totalIssuance + amount ≤ u128Max

instance (s : State T) (credits : Bool) (subnet amount : Nat) : Decidable (Fundable s credits subnet amount) :=
  inferInstanceAs (Decidable (_ ∧ _))

theorem depositExact_eq {credits : Bool} {who : T.AccountId} {amount : Nat} (positive : amount ≠ 0) (s : State T) :
    ∃ reason after, depositExact credits who amount s =
      if credits = true ∧ s.currency.totalIssuance + amount ≤ u128Max then
        (.ok (), { s with currency := s.currency.credited who amount })
      else (.error reason, after) := by
  by_cases fits : s.currency.totalIssuance + amount ≤ u128Max
  · cases credits with
    | true => exact ⟨.badOrigin, s, by simp [depositExact, checkedAdd, fits, Currency.depositCreating,
        Currency.dropImbalance, Currency.credited]⟩
    | false => exact ⟨.emission .depositFailed, s, by simp [depositExact, checkedAdd, fits,
        Currency.depositCreating, Currency.dropImbalance, Ne.symm positive]⟩
  · exact ⟨.emission .overflow, s, by simp [depositExact, checkedAdd, fits]⟩

/-- All that a funding can do. -/
theorem fundSubnet_eq {credits : Bool} {subnet amount : Nat} (positive : amount ≠ 0) (s : State T) :
    ∃ reason, fundSubnet credits subnet amount s =
      if Fundable s credits subnet amount then (.ok (), s.funded subnet amount) else (.error reason, s) := by
  obtain ⟨reason, after, deposited⟩ := @depositExact_eq T credits (T.pot subnet) amount positive s
  by_cases issued : s.issued subnet + amount ≤ u128Max
  · by_cases scheduled : s.scheduledIssued + amount ≤ u128Max
    · refine ⟨reason, ?_⟩
      by_cases credited : credits = true ∧ s.currency.totalIssuance + amount ≤ u128Max
      · rw [if_pos credited] at deposited
        rw [if_pos ⟨credited.1, issued, scheduled, credited.2⟩]
        simp [fundSubnet, transactional, checkedAdd, issued, scheduled, deposited, State.funded, State.deposit]
      · rw [if_neg credited] at deposited
        rw [if_neg fun fundable => credited ⟨fundable.1, fundable.2.2.2⟩]
        simp [fundSubnet, transactional, checkedAdd, issued, scheduled, deposited]
    · refine ⟨.emission .overflow, ?_⟩
      rw [if_neg fun fundable => scheduled fundable.2.2.1]
      simp [fundSubnet, transactional, checkedAdd, issued, scheduled]
  · refine ⟨.emission .overflow, ?_⟩
    rw [if_neg fun fundable => issued fundable.2.1]
    simp [fundSubnet, transactional, checkedAdd, issued]

/-- All that one round of the route loop can do. -/
theorem accrueRoute_cases (credits : Nat → Bool) (total : Nat) (s : State T) (subnet : Nat) (share : Perbill) :
    (share.mulFloor total ≤ s.issued subnet ∧ accrueRoute credits total s (subnet, share) = s) ∨
    (s.issued subnet < share.mulFloor total ∧
      Fundable s (credits subnet) subnet (share.mulFloor total - s.issued subnet) ∧
      accrueRoute credits total s (subnet, share) = s.funded subnet (share.mulFloor total - s.issued subnet)) ∨
    (s.issued subnet < share.mulFloor total ∧
      ¬ Fundable s (credits subnet) subnet (share.mulFloor total - s.issued subnet) ∧
      ∃ reason, accrueRoute credits total s (subnet, share) =
        s.deposit (.fundingFailed subnet (share.mulFloor total - s.issued subnet) reason)) := by
  by_cases reached : share.mulFloor total ≤ s.issued subnet
  · refine .inl ⟨reached, ?_⟩
    simp [accrueRoute, Nat.sub_eq_zero_of_le reached]
  · have positive : share.mulFloor total - s.issued subnet ≠ 0 := by omega
    obtain ⟨reason, funded⟩ := @fundSubnet_eq T (credits subnet) subnet _ positive s
    by_cases fundable : Fundable s (credits subnet) subnet (share.mulFloor total - s.issued subnet)
    · rw [if_pos fundable] at funded
      refine .inr (.inl ⟨by omega, fundable, ?_⟩)
      simp only [accrueRoute, positive, ne_eq, not_false_eq_true, if_true, funded]
    · rw [if_neg fundable] at funded
      refine .inr (.inr ⟨by omega, fundable, reason, ?_⟩)
      simp only [accrueRoute, positive, ne_eq, not_false_eq_true, if_true, funded]

/-- The subnets of the routes. -/
def State.ids (s : State T) : List Nat := s.routes.val.map Prod.fst

/-- What has been issued over all routes. -/
def State.total (s : State T) : Nat := (s.ids.map s.issued).sum

/-- What has been issued over the routes whose pot is `who`. -/
def State.totalFor (s : State T) (who : T.AccountId) : Nat :=
  ((s.ids.filter fun subnet => T.pot subnet = who).map s.issued).sum

def Event.isFundingFailed : Event T → Bool
  | .fundingFailed _ _ _ => true
  | _ => false

/-- How many fundings have failed. -/
def State.fundingFailures (s : State T) : Nat := s.events.countP Event.isFundingFailed

/-- Only counters of routes, their totals, the pots and the events moved, and all by
the same amounts. -/
structure Advanced (s s' : State T) : Prop where
  frame : s' = { s with
    subnetIssued := s'.subnetIssued, scheduledIssued := s'.scheduledIssued, currency := s'.currency, events := s'.events }
  grows : ∀ subnet, s.issued subnet ≤ s'.issued subnet
  others : ∀ subnet, subnet ∉ s.ids → s'.issued subnet = s.issued subnet
  scheduled : s'.scheduledIssued + s.total = s.scheduledIssued + s'.total
  issuance : s'.currency.totalIssuance + s.total = s.currency.totalIssuance + s'.total
  free : ∀ who, s'.currency.free who + s.totalFor who = s.currency.free who + s'.totalFor who
  capped : (s'.scheduledIssued = s.scheduledIssued ∨ s'.scheduledIssued ≤ u128Max) ∧
    (s'.currency.totalIssuance = s.currency.totalIssuance ∨ s'.currency.totalIssuance ≤ u128Max)

namespace Advanced

theorem refl (s : State T) : Advanced s s :=
  ⟨rfl, fun _ => le_rfl, fun _ _ => rfl, rfl, rfl, fun _ => rfl, .inl rfl, .inl rfl⟩

theorem routes (advanced : Advanced s s') : s'.routes = s.routes := by
  rw [advanced.frame]

theorem ids (advanced : Advanced s s') : s'.ids = s.ids := by
  rw [State.ids, advanced.routes, State.ids]

theorem trans {s'' : State T} (first : Advanced s s') (second : Advanced s' s'') : Advanced s s'' where
  frame := second.frame.trans (by rw [first.frame])
  grows := fun subnet => (first.grows subnet).trans (second.grows subnet)
  others := fun subnet outside =>
    (second.others subnet (first.ids ▸ outside)).trans (first.others subnet outside)
  scheduled := by
    have left := first.scheduled
    have right := second.scheduled
    omega
  issuance := by
    have left := first.issuance
    have right := second.issuance
    omega
  free := fun who => by
    have left := first.free who
    have right := second.free who
    omega
  capped := by
    obtain ⟨scheduled, issuance⟩ := first.capped
    obtain ⟨later, after⟩ := second.capped
    exact ⟨later.elim (fun same => same ▸ scheduled) .inr, after.elim (fun same => same ▸ issuance) .inr⟩

end Advanced

private theorem sum_map_grown {ids : List Nat} (distinct : ids.Nodup) {subnet amount : Nat} {before after : Nat → Nat}
    (grown : after subnet = before subnet + amount) (same : ∀ id, id ≠ subnet → after id = before id) :
    (ids.map after).sum = (ids.map before).sum + if subnet ∈ ids then amount else 0 := by
  induction ids with
  | nil => simp
  | cons id rest ih =>
    obtain ⟨fresh, later⟩ := List.nodup_cons.mp distinct
    rw [List.map_cons, List.sum_cons, List.map_cons, List.sum_cons, ih later]
    by_cases here : id = subnet
    · subst here
      rw [grown, if_neg fresh, if_pos List.mem_cons_self]
      omega
    · have listed : subnet ∈ id :: rest ↔ subnet ∈ rest := by simp [Ne.symm here]
      rw [same id here]
      simp only [listed]
      omega

theorem issued_funded (s : State T) (subnet amount probe : Nat) :
    (s.funded subnet amount).issued probe = if probe = subnet then s.issued subnet + amount else s.issued probe := by
  simp only [State.issued, State.funded, StorageMap.lookup_insert_ite]
  split <;> rfl

/-- A funding of a route keeps the totals in step. -/
theorem funded_advanced (distinct : s.ids.Nodup) {credits : Bool} {subnet amount : Nat} (member : subnet ∈ s.ids)
    (fundable : Fundable s credits subnet amount) : Advanced s (s.funded subnet amount) := by
  have grown : (s.funded subnet amount).issued subnet = s.issued subnet + amount := by
    rw [issued_funded, if_pos rfl]
  have same : ∀ id, id ≠ subnet → (s.funded subnet amount).issued id = s.issued id := by
    intro id other
    rw [issued_funded, if_neg other]
  have total : (s.funded subnet amount).total = s.total + amount := by
    rw [State.total, show (s.funded subnet amount).ids = s.ids from rfl, sum_map_grown distinct grown same,
      if_pos member, State.total]
  refine ⟨rfl, ?_, ?_, ?_, ?_, ?_, .inr fundable.2.2.1, .inr fundable.2.2.2⟩
  · intro id
    rw [issued_funded]
    split
    · rename_i here
      rw [here]
      omega
    · exact le_rfl
  · intro id outside
    apply same id
    rintro rfl
    exact outside member
  · rw [total]
    simp only [State.funded]
    omega
  · rw [total]
    simp only [State.funded, Currency.credited]
    omega
  · intro who
    have part : (s.funded subnet amount).totalFor who = s.totalFor who + if T.pot subnet = who then amount else 0 := by
      rw [State.totalFor, show (s.funded subnet amount).ids = s.ids from rfl,
        sum_map_grown (distinct.filter _) grown same, State.totalFor]
      simp only [List.mem_filter, member, true_and, decide_eq_true_eq]
    rw [part]
    simp only [State.funded, Currency.credited, eq_comm (a := who)]
    omega

theorem deposit_advanced (s : State T) (event : Event T) : Advanced s (s.deposit event) :=
  ⟨rfl, fun _ => le_rfl, fun _ _ => rfl, rfl, rfl, fun _ => rfl, .inl rfl, .inl rfl⟩

/-- One round of the route loop. -/
theorem accrueRoute_advanced (distinct : s.ids.Nodup) (credits : Nat → Bool) (total : Nat) {route : Route}
    (member : route.1 ∈ s.ids) : Advanced s (accrueRoute credits total s route) := by
  rcases accrueRoute_cases credits total s route.1 route.2 with ⟨_, same⟩ | ⟨_, fundable, same⟩ | ⟨_, _, _, same⟩
  · rw [same]
    exact .refl s
  · rw [same]
    exact funded_advanced distinct member fundable
  · rw [same]
    exact deposit_advanced s _

theorem accrueRoutes_advanced (distinct : s.ids.Nodup) (credits : Nat → Bool) (total : Nat) (routes : List Route)
    (members : ∀ route ∈ routes, route.1 ∈ s.ids) : Advanced s (routes.foldl (accrueRoute credits total) s) := by
  induction routes generalizing s with
  | nil => exact .refl s
  | cons route rest ih =>
    have first := accrueRoute_advanced distinct credits total (members route List.mem_cons_self)
    rw [List.foldl_cons]
    refine first.trans (ih (first.ids ▸ distinct) ?_)
    intro other later
    rw [first.ids]
    exact members other (List.mem_cons_of_mem _ later)

/-- The counters of these routes came to their targets at most, and to them unless a
funding failed; the other counters stayed. -/
structure Reached (routes : List Route) (total : Nat) (s s' : State T) : Prop where
  atMost : ∀ route ∈ routes, s'.issued route.1 ≤ max (s.issued route.1) (route.2.mulFloor total)
  failures : s.fundingFailures ≤ s'.fundingFailures
  atLeast : s'.fundingFailures = s.fundingFailures → ∀ route ∈ routes, route.2.mulFloor total ≤ s'.issued route.1
  others : ∀ subnet, subnet ∉ routes.map Prod.fst → s'.issued subnet = s.issued subnet

private theorem accrueRoute_reached (credits : Nat → Bool) (total : Nat) (s : State T) (route : Route) :
    Reached [route] total s (accrueRoute credits total s route) := by
  rcases accrueRoute_cases credits total s route.1 route.2 with
    ⟨reached, same⟩ | ⟨below, _, same⟩ | ⟨below, _, reason, same⟩
  · rw [same]
    refine ⟨fun _ _ => le_max_left _ _, le_rfl, ?_, fun _ _ => rfl⟩
    intro _ other member
    rw [List.mem_singleton.mp member]
    exact reached
  · have counter : (s.funded route.1 (route.2.mulFloor total - s.issued route.1)).issued route.1 =
        route.2.mulFloor total := by
      rw [issued_funded, if_pos rfl]
      omega
    rw [same]
    refine ⟨?_, ?_, ?_, ?_⟩
    · intro other member
      rw [List.mem_singleton.mp member, counter]
      exact le_max_right _ _
    · simp only [State.fundingFailures, State.funded, List.countP_append]
      omega
    · intro _ other member
      rw [List.mem_singleton.mp member, counter]
    · intro subnet outside
      rw [issued_funded, if_neg (by simpa using outside)]
  · rw [same]
    refine ⟨fun _ _ => le_max_left _ _, ?_, ?_, fun _ _ => rfl⟩
    · simp [State.fundingFailures, State.deposit]
    · intro unfailed
      simp [State.fundingFailures, State.deposit, Event.isFundingFailed] at unfailed

/-- The route loop. -/
theorem accrueRoutes_reached (credits : Nat → Bool) (total : Nat) (routes : List Route)
    (distinct : (routes.map Prod.fst).Nodup) (s : State T) :
    Reached routes total s (routes.foldl (accrueRoute credits total) s) := by
  induction routes generalizing s with
  | nil =>
    refine ⟨?_, le_rfl, ?_, fun _ _ => rfl⟩
    · intro route member
      cases member
    · intro _ route member
      cases member
  | cons route rest ih =>
    obtain ⟨fresh, later⟩ := List.nodup_cons.mp distinct
    have first := accrueRoute_reached credits total s route
    have second := ih later (accrueRoute credits total s route)
    rw [List.foldl_cons]
    -- Later rounds leave this counter alone, and the first round left theirs alone.
    have kept := second.others route.1 fresh
    have untouched : ∀ other ∈ rest, (accrueRoute credits total s route).issued other.1 = s.issued other.1 := by
      intro other member
      apply first.others
      intro same
      rw [List.map_singleton, List.mem_singleton] at same
      exact fresh (same ▸ List.mem_map_of_mem member)
    refine ⟨?_, first.failures.trans second.failures, ?_, ?_⟩
    · intro other member
      rcases List.mem_cons.mp member with rfl | among
      · rw [kept]
        exact first.atMost _ List.mem_cons_self
      · rw [← untouched other among]
        exact second.atMost other among
    · intro unfailed other member
      have least := first.failures
      have most := second.failures
      rcases List.mem_cons.mp member with rfl | among
      · rw [kept]
        exact first.atLeast (by omega) _ List.mem_cons_self
      · exact second.atLeast (by omega) other among
    · intro subnet outside
      rw [List.map_cons, List.mem_cons, not_or] at outside
      rw [second.others subnet outside.2]
      exact first.others subnet (by simpa using outside.1)

/-- What a call of `accrue` does to an anchored schedule. -/
theorem accrue_anchored {start : Nat} (anchored : s.startAt = some start) (distinct : s.ids.Nodup) (now : Nat)
    (credits : Nat → Bool) :
    Advanced s (accrue now credits s) ∧
      (∀ route ∈ s.routes.val, (accrue now credits s).issued route.1 ≤
        max (s.issued route.1) (route.2.mulFloor (exactEntitlement T (now - start)))) ∧
      ∀ total, s.enabled = true → entitlement T (now - start) = some total →
        (accrue now credits s).fundingFailures = s.fundingFailures →
        ∀ route ∈ s.routes.val, route.2.mulFloor total ≤ (accrue now credits s).issued route.1 := by
  by_cases idle : s.enabled = false ∨ now = 0
  · have same : accrue now credits s = s := by
      rw [accrue, if_pos (by simpa using idle)]
    rw [same]
    refine ⟨.refl s, fun _ _ => le_max_left _ _, ?_⟩
    intro total enabled defined _ route _
    obtain ⟨exact, _⟩ := entitlement_exact defined
    rcases idle with disabled | rfl
    · rw [disabled] at enabled
      cases enabled
    · simp [exact, exactEntitlement, Perbill.mulFloor]
  · have runs : ¬ ((!s.enabled) = true ∨ now = 0) := by simpa using idle
    cases defined : entitlement T (now - start) with
    | none =>
      have same : accrue now credits s = s := by
        rw [accrue, if_neg runs, anchored]
        simp only [defined]
      rw [same]
      refine ⟨.refl s, fun _ _ => le_max_left _ _, ?_⟩
      intro total _ impossible
      cases impossible
    | some total =>
      have loop : accrue now credits s = s.routes.val.foldl (accrueRoute credits total) s := by
        rw [accrue, if_neg runs, anchored]
        simp only [defined]
      have reached := accrueRoutes_reached credits total s.routes.val distinct s
      obtain ⟨exact, _⟩ := entitlement_exact defined
      rw [loop]
      refine ⟨?_, exact ▸ reached.atMost, ?_⟩
      · exact accrueRoutes_advanced distinct credits total _ fun route member => List.mem_map_of_mem member
      · intro held _ same unfailed
        cases same
        exact reached.atLeast unfailed

/-- A small configuration: three units a second, faucet authority and governance are account numbers. -/
def tinyConfig : Config where
  AccountId := Nat
  RuntimeOrigin := Nat
  decEqAccountId := inferInstance
  annualEmission := 3 * YEAR_SECONDS
  maxSubnets := 2
  minimumBalance := 1
  pot := fun subnet => 100 + subnet
  mintOrigin := fun authority origin => authority = some origin
  authorityOrigin := fun origin => origin = 0

/-- Three quarters to one subnet and a quarter to the other, from second 1 on. -/
def tinyGenesis : GenesisConfig tinyConfig where
  enabled := true
  startAt := some 1
  routes := [(0, ⟨750_000_000, by decide⟩), (1, ⟨250_000_000, by decide⟩)]
  faucetBudget := 10
  state := .enabled
  authority := some (7 : Nat)

def tinyStart : State tinyConfig where
  enabled := true
  startAt := some 1
  routes := ⟨tinyGenesis.routes, by decide⟩
  subnetIssued := ∅
  scheduledIssued := 0
  faucetBudget := 10
  faucetIssued := 0
  faucetState := .enabled
  authority := some (7 : Nat)
  currency := { free := fun _ => 0, totalIssuance := 1000 }
  events := []

theorem tinyGenesis_build : tinyGenesis.build tinyStart.currency = .ok tinyStart := rfl

end QuipValidator.Emission
