import Mathlib.Data.List.Induction
import QuipValidator.EmissionMoves

/-! Accrual does not depend on its path. What a call funds is measured against the
counters, not against the last call, so gaps, extra calls and failed fundings before
a fully funded call leave no trace: it ends where that call alone would have ended. -/
namespace QuipValidator.Emission
open Fallible Unsigned

variable {T : Config} {s s' s₀ : State T}

/-- Calls of `accrue` at these clock values, each with the pots the currency credits in it. -/
def accrues (s : State T) (calls : List (Nat × (Nat → Bool))) : State T :=
  calls.foldl (fun s call => accrue call.1 call.2 s) s

theorem accrues_concat (calls : List (Nat × (Nat → Bool))) (call : Nat × (Nat → Bool)) :
    accrues s₀ (calls ++ [call]) = accrue call.1 call.2 (accrues s₀ calls) := by
  rw [accrues, List.foldl_append, List.foldl_cons, List.foldl_nil, accrues]

theorem accrues_advanced {start : Nat} (anchored : s₀.startAt = some start) (distinct : s₀.ids.Nodup)
    (calls : List (Nat × (Nat → Bool))) : Advanced s₀ (accrues s₀ calls) := by
  induction calls using List.reverseRecOn with
  | nil => exact .refl s₀
  | append_singleton calls call before =>
    have held : (accrues s₀ calls).startAt = some start := by
      rw [before.frame]
      exact anchored
    rw [accrues_concat]
    exact before.trans (accrue_anchored held (before.ids ▸ distinct) call.1 call.2).1

/-- What the calls so far have issued is at most what is due later. -/
private theorem accrues_trail {start : Nat} (anchored : s₀.startAt = some start) (distinct : s₀.ids.Nodup)
    {now : Nat} (calls : List (Nat × (Nat → Bool))) (earlier : ∀ call ∈ calls, call.1 ≤ now) :
    ∀ route ∈ s₀.routes.val, (accrues s₀ calls).issued route.1 ≤
      max (s₀.issued route.1) (route.2.mulFloor (exactEntitlement T (now - start))) := by
  induction calls using List.reverseRecOn with
  | nil => exact fun _ _ => le_max_left _ _
  | append_singleton calls call ih =>
    have trailing := ih fun other member => earlier other (List.mem_append_left _ member)
    have before := accrues_advanced anchored distinct calls
    have clock : call.1 ≤ now := earlier call (by simp)
    have held : (accrues s₀ calls).startAt = some start := by
      rw [before.frame]
      exact anchored
    obtain ⟨_, atMost, _⟩ := accrue_anchored held (before.ids ▸ distinct) call.1 call.2
    rw [accrues_concat]
    intro route member
    have due : route.2.mulFloor (exactEntitlement T (call.1 - start)) ≤
        route.2.mulFloor (exactEntitlement T (now - start)) := by
      apply route.2.mulFloor_mono
      exact exactEntitlement_mono T (by omega)
    have most := atMost route (before.routes ▸ member)
    have trail := trailing route member
    omega

/-- What is still due to the routes. -/
def growth (s : State T) (total : Nat) (routes : List Route) : Nat :=
  (routes.map fun route => route.2.mulFloor total - s.issued route.1).sum

private theorem growth_congr {total : Nat} {routes : List Route}
    (same : ∀ route ∈ routes, s'.issued route.1 = s.issued route.1) : growth s' total routes = growth s total routes := by
  apply congrArg List.sum
  apply List.map_congr_left
  intro route member
  rw [same route member]

/-- Nothing is due once every counter is at its target. -/
private theorem total_of_max {total : Nat}
    (reached : ∀ route ∈ s.routes.val, s'.issued route.1 = max (s.issued route.1) (route.2.mulFloor total))
    (routes : s'.routes = s.routes) : s'.total = s.total + growth s total s.routes.val := by
  have sums : ∀ held : List Route, (∀ route ∈ held, route ∈ s.routes.val) →
      ((held.map Prod.fst).map s'.issued).sum = ((held.map Prod.fst).map s.issued).sum + growth s total held := by
    intro held members
    induction held with
    | nil => rfl
    | cons route rest ih =>
      have first := reached route (members route List.mem_cons_self)
      have later := ih fun other member => members other (List.mem_cons_of_mem _ member)
      simp only [growth, List.map_cons, List.sum_cons] at later ⊢
      omega
  have whole := sums s.routes.val fun _ member => member
  rw [State.total, State.ids, routes]
  exact whole

/-- If the totals have room for all that is due, no funding of a fully credited loop fails. -/
private theorem accrueRoutes_unfailed {total : Nat} (typed : total ≤ u128Max) (routes : List Route)
    (distinct : (routes.map Prod.fst).Nodup) (s : State T)
    (room : growth s total routes ≠ 0 → s.scheduledIssued + growth s total routes ≤ u128Max ∧
      s.currency.totalIssuance + growth s total routes ≤ u128Max) :
    (routes.foldl (accrueRoute (fun _ => true) total) s).fundingFailures = s.fundingFailures := by
  induction routes generalizing s with
  | nil => rfl
  | cons route rest ih =>
    obtain ⟨fresh, later⟩ := List.nodup_cons.mp distinct
    have due : growth s total (route :: rest) = (route.2.mulFloor total - s.issued route.1) + growth s total rest :=
      List.sum_cons
    rw [List.foldl_cons]
    rcases accrueRoute_cases (fun _ => true) total s route.1 route.2 with
      ⟨reached, same⟩ | ⟨below, fundable, same⟩ | ⟨below, refused, _, _⟩
    · rw [same]
      apply ih later
      intro owed
      have fits := room (by omega)
      omega
    · have untouched : growth (s.funded route.1 (route.2.mulFloor total - s.issued route.1)) total rest =
          growth s total rest := by
        apply growth_congr
        intro other member
        rw [issued_funded, if_neg]
        intro again
        exact fresh (again ▸ List.mem_map_of_mem member)
      have unfailed : (s.funded route.1 (route.2.mulFloor total - s.issued route.1)).fundingFailures =
          s.fundingFailures := by
        simp [State.fundingFailures, State.funded, Event.isFundingFailed]
      rw [same, ih later _ ?_, unfailed]
      rw [untouched]
      intro owed
      have fits := room (by omega)
      simp only [State.funded, Currency.credited]
      omega
    · have fits := room (by omega)
      have target := (route.2.mulFloor_le total).trans typed
      exact absurd ⟨rfl, by omega, by omega, by omega⟩ refused

private theorem accrue_unfailed {start total now : Nat} (anchored : s.startAt = some start) (distinct : s.ids.Nodup)
    (defined : entitlement T (now - start) = some total)
    (room : growth s total s.routes.val ≠ 0 → s.scheduledIssued + growth s total s.routes.val ≤ u128Max ∧
      s.currency.totalIssuance + growth s total s.routes.val ≤ u128Max) :
    (accrue now (fun _ => true) s).fundingFailures = s.fundingFailures := by
  unfold accrue
  split
  · rfl
  · simp only [anchored, defined]
    exact accrueRoutes_unfailed (entitlement_exact defined).2 s.routes.val distinct s room

/-- Two states with the same counters that advanced from the same state agree on the totals and on every balance. -/
private theorem Advanced.agree {first second : State T} (left : Advanced s₀ first) (right : Advanced s₀ second)
    (issued : ∀ subnet, first.issued subnet = second.issued subnet) :
    first.scheduledIssued = second.scheduledIssued ∧ first.currency = second.currency := by
  have counters : first.issued = second.issued := funext issued
  have total : first.total = second.total := by
    rw [State.total, State.total, left.ids, right.ids, counters]
  have totalFor : ∀ who, first.totalFor who = second.totalFor who := by
    intro who
    rw [State.totalFor, State.totalFor, left.ids, right.ids, counters]
  have scheduled : first.scheduledIssued = second.scheduledIssued := by
    have one := left.scheduled
    have other := right.scheduled
    omega
  have issuance : first.currency.totalIssuance = second.currency.totalIssuance := by
    have one := left.issuance
    have other := right.issuance
    omega
  have free : first.currency.free = second.currency.free := by
    funext who
    have one := left.free who
    have other := right.free who
    have same := totalFor who
    omega
  refine ⟨scheduled, ?_⟩
  cases held : first.currency
  cases kept : second.currency
  rw [held, kept] at issuance free
  cases issuance
  cases free
  rfl

/-- Calls of `accrue` at earlier clock values, in whatever number and with whatever
fundings failing, followed by a call whose fundings all succeed, end with the
counters, the totals and the balances of that last call made alone with all its
fundings succeeding. Each counter is the larger of its initial value and the share of
the annual emission for the whole time span, rounded down once. -/
theorem accrual_path_independent {start : Nat} (enabled : s₀.enabled = true) (anchored : s₀.startAt = some start)
    (valid : validRoutes T s₀.routes.val s₀.enabled = true) (calls : List (Nat × (Nat → Bool))) (now : Nat)
    (credits : Nat → Bool) (earlier : ∀ call ∈ calls, call.1 ≤ now) {total : Nat}
    (defined : entitlement T (now - start) = some total)
    (funded : (accrue now credits (accrues s₀ calls)).fundingFailures = (accrues s₀ calls).fundingFailures) :
    (accrue now (fun _ => true) s₀).fundingFailures = s₀.fundingFailures ∧
      (∀ subnet, (accrue now credits (accrues s₀ calls)).issued subnet = (accrue now (fun _ => true) s₀).issued subnet) ∧
      (accrue now credits (accrues s₀ calls)).scheduledIssued = (accrue now (fun _ => true) s₀).scheduledIssued ∧
      (accrue now credits (accrues s₀ calls)).currency = (accrue now (fun _ => true) s₀).currency ∧
      (∀ route ∈ s₀.routes.val, (accrue now credits (accrues s₀ calls)).issued route.1 =
        max (s₀.issued route.1) (route.2.mulFloor total)) ∧
      ∀ elapsed due, entitlement T elapsed = some due → due = T.annualEmission * elapsed / YEAR_SECONDS := by
  have distinct : s₀.ids.Nodup := (validRoutes_spec valid).1
  obtain ⟨exact, _⟩ := entitlement_exact defined
  have before := accrues_advanced anchored distinct calls
  have trailing := accrues_trail anchored distinct calls earlier
  have held : (accrues s₀ calls).startAt = some start := by
    rw [before.frame]
    exact anchored
  have running : (accrues s₀ calls).enabled = true := by
    rw [before.frame]
    exact enabled
  obtain ⟨after, atMost, atLeast⟩ := accrue_anchored held (before.ids ▸ distinct) now credits
  have path := before.trans after
  have reached : ∀ route ∈ s₀.routes.val, (accrue now credits (accrues s₀ calls)).issued route.1 =
      max (s₀.issued route.1) (route.2.mulFloor total) := by
    intro route member
    have trail := trailing route member
    have most := atMost route (before.routes ▸ member)
    have least := atLeast total running defined funded route (before.routes ▸ member)
    have grown := path.grows route.1
    rw [← exact] at trail most
    omega
  -- The path has added what is due from the start, so the single call has room for it.
  have added := total_of_max reached path.routes
  have unfailed : (accrue now (fun _ => true) s₀).fundingFailures = s₀.fundingFailures := by
    apply accrue_unfailed anchored distinct defined
    intro owed
    have scheduled := path.scheduled
    have issuance := path.issuance
    obtain ⟨sum, supply⟩ := path.capped
    omega
  obtain ⟨single, singleMost, singleLeast⟩ := accrue_anchored anchored distinct now fun _ => true
  have same : ∀ subnet, (accrue now credits (accrues s₀ calls)).issued subnet =
      (accrue now (fun _ => true) s₀).issued subnet := by
    intro subnet
    by_cases listed : subnet ∈ s₀.ids
    · obtain ⟨route, member, rfl⟩ := List.mem_map.mp listed
      have most := singleMost route member
      have least := singleLeast total enabled defined unfailed route member
      have grown := single.grows route.1
      rw [← exact] at most
      rw [reached route member]
      omega
    · rw [path.others subnet listed, single.others subnet listed]
  obtain ⟨scheduled, currency⟩ := path.agree single same
  exact ⟨unfailed, same, scheduled, currency, reached, fun _ _ known => (entitlement_exact known).1⟩

/-- After a call that funds one pot only and a call that funds none, the next one ends where it would have alone. -/
theorem accrual_path_independent_tinyStart :
    (accrue 11 (fun _ => true) (accrues tinyStart [(5, fun subnet => subnet = 0), (9, fun _ => false)])).currency =
        (accrue 11 (fun _ => true) tinyStart).currency ∧
      (accrue 11 (fun _ => true) (accrues tinyStart [(5, fun subnet => subnet = 0), (9, fun _ => false)])).issued 0 =
        22 := by
  obtain ⟨_, _, _, currency, reached, _⟩ := accrual_path_independent (show tinyStart.enabled = true from rfl) rfl
    (by decide +kernel) [(5, fun subnet => subnet = 0), (9, fun _ => false)] 11 (fun _ => true) (by simp)
    (show entitlement tinyConfig (11 - 1) = some 30 by decide +kernel) (by decide +kernel)
  refine ⟨currency, (reached _ List.mem_cons_self).trans ?_⟩
  decide +kernel

end QuipValidator.Emission
