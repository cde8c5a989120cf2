import Mathlib.Data.List.Chain
import Mathlib.Data.List.Induction
import QuipValidator.AllocationPlan

/-! The allocation check accepts exactly the sound plans. The loop's map is read
as the last issue block and the number of the tranches seen of each recipient, so
its checks, one tranche at a time, say that each recipient's issue blocks step by
the cadence. That custody never holds dust needs no check of its own: a grant that
is still due is far above the existential deposit. -/
namespace QuipValidator.Allocation
open Fallible Unsigned QuipRuntime

section Progressions
variable {step : Nat}

theorem progression_succ (first step count : Nat) :
    progression first step (count + 1) = first :: progression (first + step) step count := by
  simp only [progression, List.range_succ_eq_map, List.map_cons, List.map_map, Nat.zero_mul, Nat.add_zero]
  congr 1
  apply List.map_congr_left
  intro index _
  simp only [Function.comp, Nat.succ_eq_add_one, Nat.add_mul, Nat.one_mul]
  omega

theorem first_le_of_mem_progression {first count block : Nat} (member : block ∈ progression first step count) :
    first ≤ block := by
  obtain ⟨index, _, rfl⟩ := List.mem_map.mp member
  exact Nat.le_add_right _ _

theorem progression_isChain (first count : Nat) :
    (progression first step count).IsChain fun earlier later => earlier + step = later := by
  induction count generalizing first with
  | zero => exact List.isChain_nil
  | succ count ih =>
    rw [progression_succ]
    cases count with
    | zero => exact List.isChain_singleton _
    | succ count =>
      have rest := ih (first + step)
      rw [progression_succ] at rest ⊢
      exact List.isChain_cons_cons.mpr ⟨rfl, rest⟩

/-- Blocks that step by the cadence are a progression. -/
theorem eq_progression {first : Nat} {blocks : List Nat}
    (steps : (first :: blocks).IsChain fun earlier later => earlier + step = later) :
    first :: blocks = progression first step (blocks.length + 1) := by
  induction blocks generalizing first with
  | nil => simp [progression]
  | cons next rest ih =>
    obtain ⟨stepped, later⟩ := List.isChain_cons_cons.mp steps
    subst stepped
    rw [List.length_cons, progression_succ, ih later]

end Progressions

variable {T : Config}

/-- What the loop asks of a tranche by itself. -/
structure Fits (unique : Finset T.AccountId) (tranche : AllocationTranche T) : Prop where
  listed : tranche.recipient ∈ unique
  issues : 0 < tranche.issueAt
  starts : tranche.issueAt ≤ T.startingBlock tranche.schedule
  valid : T.isValid tranche.schedule = true
  least : MinVestedTransfer ≤ T.locked tranche.schedule
  rate : 0 < T.perBlock tranche.schedule
  ends : endBlock tranche.schedule ≤ u32Max

theorem duration_eq_some {schedule : T.VestingInfo} {blocks : Nat} :
    duration schedule = some blocks ↔ 1 ≤ T.locked schedule ∧ 0 < T.perBlock schedule ∧ blocks ≤ u32Max ∧
      blocks = (T.locked schedule + T.perBlock schedule - 1) / T.perBlock schedule := by
  have ceiling : 1 ≤ T.locked schedule → 0 < T.perBlock schedule →
      (T.locked schedule + T.perBlock schedule - 1) / T.perBlock schedule =
        (T.locked schedule - 1) / T.perBlock schedule + 1 := by
    intro amount rate
    have shift : T.locked schedule + T.perBlock schedule - 1 = T.locked schedule - 1 + T.perBlock schedule := by omega
    rw [shift, Nat.add_div_right _ rate]
  have narrow : u32Max ≤ u128Max := by decide
  simp only [duration, Option.bind_eq_bind, Option.bind_eq_some_iff, checkedSub_eq_some, checkedDiv_eq_some,
    checkedAdd_eq_some, Option.ite_none_right_eq_some, Option.some.injEq]
  constructor
  · rintro ⟨rest, ⟨amount, rfl⟩, whole, ⟨rate, rfl⟩, _, ⟨_, rfl⟩, fits, rfl⟩
    exact ⟨amount, Nat.pos_of_ne_zero rate, fits, (ceiling amount (Nat.pos_of_ne_zero rate)).symm⟩
  · rintro ⟨amount, rate, fits, rfl⟩
    rw [ceiling amount rate] at fits ⊢
    exact ⟨_, ⟨amount, rfl⟩, _, ⟨rate.ne', rfl⟩, _, ⟨fits.trans narrow, rfl⟩, fits, rfl⟩

/-- How many tranches of a recipient a tally has seen. -/
def Tally.count (tally : Tally T) (who : T.AccountId) : Nat := ((tally.issued.lookup who).map Prod.snd).getD 0

/-- What a turn leaves behind. -/
def Tally.add (tally : Tally T) (tranche : AllocationTranche T) : Tally T where
  issued := tally.issued.insert tranche.recipient (tranche.issueAt, tally.count tranche.recipient + 1)
  planned := tally.planned + T.locked tranche.schedule

theorem scheduleCount_ok {cadence count : Nat} {tally : Tally T} {tranche : AllocationTranche T} :
    scheduleCount cadence tally tranche = .ok count ↔
      (∀ held ∈ tally.issued.lookup tranche.recipient,
        held.1 + cadence = tranche.issueAt ∧ tranche.issueAt ≤ u32Max ∧ held.2 + 1 ≤ u32Max) ∧
      count = tally.count tranche.recipient + 1 := by
  unfold scheduleCount Tally.count
  cases tally.issued.lookup tranche.recipient with
  | none =>
    simp only [Option.map_none, Option.getD_none, Option.not_mem_none, false_implies, implies_true, true_and]
    exact ⟨fun same => (Except.ok.inj same).symm, fun same => congrArg Except.ok same.symm⟩
  | some held =>
    simp only [bind_success, ensure_success, okOr_success, checkedAdd_eq_some, exists_const, Option.mem_some_iff,
      forall_eq', Option.map_some, Option.getD_some]
    constructor
    · rintro ⟨⟨room, same⟩, more, rfl⟩
      exact ⟨⟨same, same ▸ room, more⟩, rfl⟩
    · rintro ⟨⟨same, room, more⟩, rfl⟩
      exact ⟨⟨same ▸ room, same⟩, more, rfl⟩

/-- A turn succeeds for a tranche that fits by itself, follows its predecessor at
the cadence, stays within the cap, and whose amount can be added. -/
theorem checkTranche_ok {unique : Finset T.AccountId} {cadence : Nat} {tally next : Tally T}
    {tranche : AllocationTranche T} :
    checkTranche unique cadence tally tranche = .ok next ↔
      Fits unique tranche ∧ (∀ held ∈ tally.issued.lookup tranche.recipient, held.1 + cadence = tranche.issueAt) ∧
        tally.count tranche.recipient + 1 ≤ MAX_VESTING_SCHEDULES ∧
        tally.planned + T.locked tranche.schedule ≤ u128Max ∧ next = tally.add tranche := by
  have counted : ∀ held ∈ tally.issued.lookup tranche.recipient, tally.count tranche.recipient = held.2 := by
    intro held seen
    rw [Tally.count, Option.mem_def.mp seen]
    rfl
  simp only [checkTranche, bind_success, ensure_success, okOr_success, duration_eq_some, checkedAdd_eq_some,
    scheduleCount_ok, exists_const, not_or, not_lt, Bool.not_eq_false]
  constructor
  · rintro ⟨listed, ⟨issues, starts, valid, least⟩, _, ⟨_, rate, _, rfl⟩, _, ⟨ends, -⟩, _, ⟨steps, rfl⟩, few, _,
      ⟨room, rfl⟩, same⟩
    exact ⟨⟨listed, Nat.pos_of_ne_zero issues, starts, valid, least, rate, ends⟩, fun held seen => (steps held seen).1,
      few, room, (Except.ok.inj same).symm⟩
  · rintro ⟨fits, steps, few, room, rfl⟩
    have amount : 1 ≤ T.locked tranche.schedule := le_trans (by decide) fits.least
    have ends := fits.ends
    unfold endBlock at ends
    have cap : MAX_VESTING_SCHEDULES ≤ u32Max := by decide
    refine ⟨fits.listed, ⟨fits.issues.ne', fits.starts, fits.valid, fits.least⟩, _,
      ⟨amount, fits.rate, (Nat.le_add_left _ _).trans ends, rfl⟩, _, ⟨ends, rfl⟩, _, ⟨?_, rfl⟩, few, _, ⟨room, rfl⟩,
      rfl⟩
    intro held seen
    have few' := counted held seen ▸ few
    exact ⟨steps held seen, fits.starts.trans ((Nat.le_add_right _ _).trans ends), few'.trans cap⟩

/-- The tally of a list of tranches, whether they were checked or not. -/
def tallyOf (tranches : List (AllocationTranche T)) : Tally T := tranches.foldl Tally.add ⟨∅, 0⟩

theorem tallyOf_concat (tranches : List (AllocationTranche T)) (tranche : AllocationTranche T) :
    tallyOf (tranches ++ [tranche]) = (tallyOf tranches).add tranche := by
  rw [tallyOf, List.foldl_concat, tallyOf]

theorem tranchesOf_concat (who : T.AccountId) (tranches : List (AllocationTranche T)) (tranche : AllocationTranche T) :
    tranchesOf who (tranches ++ [tranche]) =
      tranchesOf who tranches ++ if tranche.recipient = who then [tranche] else [] := by
  rw [tranchesOf, List.filter_append, List.filter_singleton]
  by_cases same : tranche.recipient = who <;> simp [same, tranchesOf]

private theorem count_of_lookup {tally : Tally T} {who : T.AccountId} {own : List (AllocationTranche T)}
    (seen : tally.issued.lookup who = own.getLast?.map fun last => (last.issueAt, own.length)) :
    tally.count who = own.length := by
  rw [Tally.count, seen]
  cases own <;> simp [List.getLast?_cons]

/-- The map holds the last issue block and the number of a recipient's tranches. -/
theorem lookup_tallyOf (who : T.AccountId) (tranches : List (AllocationTranche T)) :
    (tallyOf tranches).issued.lookup who = (tranchesOf who tranches).getLast?.map
      fun last => (last.issueAt, (tranchesOf who tranches).length) := by
  induction tranches using List.reverseRecOn with
  | nil => rfl
  | append_singleton tranches tranche ih =>
    rw [tallyOf_concat, tranchesOf_concat, Tally.add, StorageMap.lookup_insert_ite]
    by_cases own : tranche.recipient = who
    · subst own
      simp [count_of_lookup ih]
    · rw [if_neg fun same => own same.symm, if_neg own, List.append_nil, ih]

theorem count_tallyOf (who : T.AccountId) (tranches : List (AllocationTranche T)) :
    (tallyOf tranches).count who = (tranchesOf who tranches).length := count_of_lookup (lookup_tallyOf who tranches)

theorem granted_concat (tranches : List (AllocationTranche T)) (tranche : AllocationTranche T) :
    granted (tranches ++ [tranche]) = granted tranches + T.locked tranche.schedule := by
  simp [granted]

theorem planned_tallyOf (tranches : List (AllocationTranche T)) : (tallyOf tranches).planned = granted tranches := by
  induction tranches using List.reverseRecOn with
  | nil => rfl
  | append_singleton tranches tranche ih => rw [tallyOf_concat, granted_concat, Tally.add, ih]

/-- What the loop asks of all tranches together. -/
structure Planned (unique : Finset T.AccountId) (cadence : Nat) (tranches : List (AllocationTranche T)) : Prop where
  fits : ∀ tranche ∈ tranches, Fits unique tranche
  steps : ∀ who, ((tranchesOf who tranches).map AllocationTranche.issueAt).IsChain
    fun earlier later => earlier + cadence = later
  few : ∀ who, (tranchesOf who tranches).length ≤ MAX_VESTING_SCHEDULES
  room : granted tranches ≤ u128Max

theorem planned_concat {unique : Finset T.AccountId} {cadence : Nat} {tranches : List (AllocationTranche T)}
    {tranche : AllocationTranche T} :
    Planned unique cadence (tranches ++ [tranche]) ↔ Planned unique cadence tranches ∧ Fits unique tranche ∧
      (∀ held ∈ (tallyOf tranches).issued.lookup tranche.recipient, held.1 + cadence = tranche.issueAt) ∧
      (tallyOf tranches).count tranche.recipient + 1 ≤ MAX_VESTING_SCHEDULES ∧
      (tallyOf tranches).planned + T.locked tranche.schedule ≤ u128Max := by
  have follows : (∀ held ∈ (tallyOf tranches).issued.lookup tranche.recipient, held.1 + cadence = tranche.issueAt) ↔
      ∀ earlier ∈ ((tranchesOf tranche.recipient tranches).map AllocationTranche.issueAt).getLast?,
        earlier + cadence = tranche.issueAt := by
    rw [lookup_tallyOf, List.getLast?_map]
    cases (tranchesOf tranche.recipient tranches).getLast? <;> simp
  rw [follows, count_tallyOf, planned_tallyOf]
  constructor
  · rintro ⟨fits, steps, few, room⟩
    have ownSteps := steps tranche.recipient
    have ownFew := few tranche.recipient
    rw [tranchesOf_concat, if_pos rfl] at ownSteps ownFew
    rw [List.map_append, List.isChain_append] at ownSteps
    rw [granted_concat] at room
    refine ⟨⟨fun other member => fits other (List.mem_append_left _ member), fun who => ?_, fun who => ?_,
      (Nat.le_add_right _ _).trans room⟩, fits tranche (by simp), fun earlier seen => ?_, ?_, room⟩
    · have chain := steps who
      rw [tranchesOf_concat, List.map_append] at chain
      exact (List.isChain_append.mp chain).1
    · have bound := few who
      rw [tranchesOf_concat, List.length_append] at bound
      exact (Nat.le_add_right _ _).trans bound
    · exact ownSteps.2.2 earlier seen tranche.issueAt (by simp)
    · simpa using ownFew
  · rintro ⟨⟨fits, steps, few, _⟩, fit, next, more, room⟩
    refine ⟨?_, fun who => ?_, fun who => ?_, by rwa [granted_concat]⟩
    · intro other member
      rcases List.mem_append.mp member with before | last
      · exact fits other before
      · exact List.mem_singleton.mp last ▸ fit
    · rw [tranchesOf_concat]
      by_cases own : tranche.recipient = who
      · subst own
        rw [if_pos rfl, List.map_append, List.isChain_append]
        refine ⟨steps _, List.isChain_singleton _, fun earlier seen later named => ?_⟩
        rw [next earlier seen]
        simpa using named
      · rw [if_neg own, List.append_nil]
        exact steps who
    · rw [tranchesOf_concat]
      by_cases own : tranche.recipient = who
      · subst own
        simpa using more
      · rw [if_neg own, List.append_nil]
        exact few who

/-- The loop runs through exactly when the tranches are planned, and its map is their tally. -/
theorem checkTranches_ok {unique : Finset T.AccountId} {cadence : Nat} {tranches : List (AllocationTranche T)}
    {final : Tally T} :
    tranches.foldlM (checkTranche unique cadence) ⟨∅, 0⟩ = .ok final ↔
      Planned unique cadence tranches ∧ final = tallyOf tranches := by
  induction tranches using List.reverseRecOn generalizing final with
  | nil =>
    have planned : Planned unique cadence ([] : List (AllocationTranche T)) :=
      ⟨by simp, fun _ => List.isChain_nil, fun _ => Nat.zero_le _, Nat.zero_le _⟩
    rw [List.foldlM_nil]
    exact ⟨fun same => ⟨planned, (Except.ok.inj same).symm⟩, fun same => congrArg Except.ok same.2.symm⟩
  | append_singleton tranches tranche ih =>
    rw [List.foldlM_append, bind_success, planned_concat, tallyOf_concat]
    simp only [ih, List.foldlM_cons, List.foldlM_nil, bind_pure, checkTranche_ok]
    constructor
    · rintro ⟨_, ⟨planned, rfl⟩, fits, steps, few, room, same⟩
      exact ⟨⟨planned, fits, steps, few, room⟩, same⟩
    · rintro ⟨⟨planned, fits, steps, few, room⟩, same⟩
      exact ⟨_, ⟨planned, rfl⟩, fits, steps, few, room, same⟩

/-- The map has an entry for each listed account if each has a tranche. -/
theorem keys_tallyOf {recipients : List T.AccountId} {cadence : Nat} {tranches : List (AllocationTranche T)}
    (planned : Planned recipients.toFinset cadence tranches) :
    (tallyOf tranches).issued.keys.length = recipients.toFinset.card ↔
      ∀ who ∈ recipients, 1 ≤ (tranchesOf who tranches).length := by
  have keyed : ∀ who, who ∈ (tallyOf tranches).issued.keys ↔ 1 ≤ (tranchesOf who tranches).length := by
    intro who
    rw [StorageMap.mem_keys_iff_lookup, lookup_tallyOf]
    cases tranchesOf who tranches <;> simp [List.getLast?_cons]
  have inside : (tallyOf tranches).issued.keys.toFinset ⊆ recipients.toFinset := by
    intro who member
    have some := (keyed who).mp (List.mem_toFinset.mp member)
    obtain ⟨tranche, own⟩ := List.exists_mem_of_length_pos some
    obtain ⟨held, same⟩ := List.mem_filter.mp own
    exact of_decide_eq_true same ▸ (planned.fits tranche held).listed
  rw [← List.toFinset_card_of_nodup (tallyOf tranches).issued.keys_nodup]
  constructor
  · intro same who listed
    have equal := Finset.eq_of_subset_of_card_le inside same.ge
    have member : who ∈ (tallyOf tranches).issued.keys.toFinset := equal ▸ List.mem_toFinset.mpr listed
    exact (keyed who).mp (List.mem_toFinset.mp member)
  · intro each
    congr 1
    refine Finset.Subset.antisymm inside fun who listed => ?_
    exact List.mem_toFinset.mpr ((keyed who).mpr (each who (List.mem_toFinset.mp listed)))

/-- All conditions of the check, before they are read as properties of the plan. -/
theorem validate_ok {operational : List T.AccountId} {plan : MainnetAllocation T} {total : Balance} :
    validate operational plan = .ok total ↔ ∃ recipients terms,
      plan.total = some total ∧ plan.recipients = some recipients ∧ plan.terms = some terms ∧
        EXISTENTIAL_DEPOSIT ≤ total ∧ plan.custody ∉ reservedMainnetAccounts T ∧ plan.custody ∉ operational ∧
        plan.custody ≠ T.reviveAccountId ∧ recipients ≠ [] ∧ recipients.toFinset.card = recipients.length ∧
        (∀ who ∈ recipients, who ∉ reservedMainnetAccounts T ∧ who ≠ plan.custody ∧ who ≠ T.reviveAccountId) ∧
        0 < terms.cadenceBlocks ∧ terms.tranches ≠ [] ∧
        Planned recipients.toFinset terms.cadenceBlocks terms.tranches ∧
        (tallyOf terms.tranches).issued.keys.length = recipients.toFinset.card ∧
        granted terms.tranches ≤ total ∧
        (total - granted terms.tranches = 0 ∨ EXISTENTIAL_DEPOSIT ≤ total - granted terms.tranches) := by
  simp only [validate, bind_success, ensure_success, okOr_success, checkedSub_eq_some, checkTranches_ok, exists_const,
    not_lt]
  constructor
  · rintro ⟨_, funded, usable, unreserved, dedicated, recipients, listed, separate, terms, agreed, usual, _,
      ⟨planned, rfl⟩, complete, _, ⟨covered, rfl⟩, clean, same⟩
    cases same
    rw [planned_tallyOf] at covered clean
    push Not at dedicated separate usual clean
    refine ⟨recipients, terms, funded, listed, agreed, usable, unreserved, dedicated.1, dedicated.2, separate.1,
      separate.2.1, separate.2.2, Nat.pos_of_ne_zero usual.1, usual.2, planned, complete, covered, ?_⟩
    by_cases nothing : total.val - granted terms.tranches = 0
    · exact .inl nothing
    · exact .inr (clean nothing)
  · rintro ⟨recipients, terms, funded, listed, agreed, usable, unreserved, outside, notRevive, someone, distinct,
      separate, cadence, tranches, planned, complete, covered, clean⟩
    refine ⟨total, funded, usable, unreserved, ?_, recipients, listed, ?_, terms, agreed, ?_, _, ⟨planned, rfl⟩,
      complete, _, ⟨by rwa [planned_tallyOf], rfl⟩, ?_, rfl⟩
    · push Not
      exact ⟨outside, notRevive⟩
    · push Not
      exact ⟨someone, distinct, separate⟩
    · push Not
      exact ⟨cadence.ne', tranches⟩
    · rw [planned_tallyOf]
      rintro ⟨left, dust⟩
      rcases clean with nothing | enough
      · exact left nothing
      · omega

/-- A grant that is still due keeps custody above the existential deposit. -/
theorem remaining_of_floor {tranches : List (AllocationTranche T)} {total : Nat}
    (least : ∀ tranche ∈ tranches, MinVestedTransfer ≤ T.locked tranche.schedule) (covered : granted tranches ≤ total)
    (clean : total - granted tranches = 0 ∨ EXISTENTIAL_DEPOSIT ≤ total - granted tranches)
    {issued : List (AllocationTranche T)} (some : issued.Subperm tranches) :
    total - granted issued = 0 ∨ EXISTENTIAL_DEPOSIT ≤ total - granted issued := by
  obtain ⟨ordered, same, within⟩ := some
  obtain ⟨due, split⟩ := within.exists_perm_append
  have sum : granted tranches = granted issued + granted due := by
    rw [granted, granted, granted, (split.map _).sum_eq, List.map_append, List.sum_append, (same.map _).sum_eq]
  cases due with
  | nil =>
    have all : granted issued = granted tranches := sum.symm
    rwa [all]
  | cons tranche rest =>
    have floor := least tranche (split.symm.subset (by simp))
    have first : granted (tranche :: rest) = T.locked tranche.schedule + granted rest := List.sum_cons
    unfold MinVestedTransfer at floor
    right
    omega

/-- Planned tranches of a recipient are issued in equal steps from their first block on. -/
theorem Planned.steady {unique : Finset T.AccountId} {cadence : Nat} {tranches : List (AllocationTranche T)}
    (planned : Planned unique cadence tranches) {who : T.AccountId} (some : 1 ≤ (tranchesOf who tranches).length) :
    ∃ first, 0 < first ∧ (tranchesOf who tranches).map AllocationTranche.issueAt =
      progression first cadence (tranchesOf who tranches).length := by
  have steps := planned.steps who
  cases own : tranchesOf who tranches with
  | nil => simp [own] at some
  | cons tranche rest =>
    have held : tranche ∈ tranches := (List.mem_filter.mp (own ▸ List.mem_cons_self)).1
    rw [own, List.map_cons] at steps
    refine ⟨tranche.issueAt, (planned.fits tranche held).issues, ?_⟩
    have progress := eq_progression steps
    rwa [List.length_map] at progress

/-- Sound plans pass the loop, if a valid schedule has a positive rate. -/
theorem Sound.planned (rates : ∀ schedule, T.isValid schedule = true → 0 < T.perBlock schedule)
    {operational recipients : List T.AccountId} {custody : T.AccountId} {terms : AllocationTerms T} {total : Balance}
    (sound : Sound operational custody recipients terms total) :
    Planned recipients.toFinset terms.cadenceBlocks terms.tranches := by
  have none : ∀ who, who ∉ recipients → tranchesOf who terms.tranches = [] := by
    intro who unlisted
    refine List.filter_eq_nil_iff.mpr fun tranche member own => unlisted ?_
    exact of_decide_eq_true own ▸ sound.listed tranche member
  refine ⟨fun tranche member => ?_, fun who => ?_, fun who => ?_, sound.covered.trans (Nat.le_of_lt_succ total.isLt)⟩
  · obtain ⟨valid, least, starts, ends⟩ := sound.schedules tranche member
    have listed := sound.listed tranche member
    obtain ⟨first, positive, steady⟩ := sound.steady _ listed
    have own : tranche ∈ tranchesOf tranche.recipient terms.tranches := List.mem_filter.mpr ⟨member, by simp⟩
    have block : tranche.issueAt ∈ (tranchesOf tranche.recipient terms.tranches).map AllocationTranche.issueAt :=
      List.mem_map_of_mem own
    rw [steady] at block
    exact ⟨List.mem_toFinset.mpr listed, positive.trans_le (first_le_of_mem_progression block), starts, valid, least,
      rates _ valid, ends⟩
  · by_cases listed : who ∈ recipients
    · obtain ⟨first, _, steady⟩ := sound.steady who listed
      rw [steady]
      exact progression_isChain first _
    · rw [none who listed]
      exact List.isChain_nil
  · by_cases listed : who ∈ recipients
    · exact (sound.capped who listed).2
    · rw [none who listed]
      exact Nat.zero_le _

/-- The check returns a total exactly for the sound plans with that total, if a
valid schedule has a positive rate. -/
theorem allocation_plan_sound (rates : ∀ schedule, T.isValid schedule = true → 0 < T.perBlock schedule)
    (operational : List T.AccountId) (plan : MainnetAllocation T) (total : Balance) :
    validate operational plan = .ok total ↔ ∃ recipients terms,
      plan.total = some total ∧ plan.recipients = some recipients ∧ plan.terms = some terms ∧
        Sound operational plan.custody recipients terms total := by
  rw [validate_ok]
  constructor
  · rintro ⟨recipients, terms, funded, listed, agreed, usable, unreserved, outside, notRevive, someone, distinct,
      separate, cadence, _, planned, complete, covered, clean⟩
    have each := (keys_tallyOf planned).mp complete
    have single : recipients.Nodup := Multiset.coe_nodup.mp (Multiset.toFinset_card_eq_card_iff_nodup.mp distinct)
    refine ⟨recipients, terms, funded, listed, agreed, ?_⟩
    exact {
      usable, someone, cadence, covered
      distinct := List.nodup_cons.mpr ⟨fun again => (separate _ again).2.1 rfl, single⟩
      resolved := by
        intro who member
        rcases List.mem_cons.mp member with rfl | member
        · exact ⟨unreserved, notRevive⟩
        · exact ⟨(separate who member).1, (separate who member).2.2⟩
      dedicated := outside
      listed := fun tranche member => List.mem_toFinset.mp (planned.fits tranche member).listed
      capped := fun who member => ⟨each who member, planned.few who⟩
      steady := fun who member => planned.steady (each who member)
      schedules := by
        intro tranche member
        have fits := planned.fits tranche member
        exact ⟨fits.valid, fits.least, fits.starts, fits.ends⟩
      remaining := fun issued some =>
        remaining_of_floor (fun tranche member => (planned.fits tranche member).least) covered clean some }
  · rintro ⟨recipients, terms, funded, listed, agreed, sound⟩
    obtain ⟨fresh, distinct⟩ := List.nodup_cons.mp sound.distinct
    have planned := sound.planned rates
    have custody := sound.resolved _ List.mem_cons_self
    refine ⟨recipients, terms, funded, listed, agreed, sound.usable, custody.1, sound.dedicated, custody.2,
      sound.someone, List.toFinset_card_of_nodup distinct, ?_, sound.cadence, ?_, planned,
      (keys_tallyOf planned).mpr fun who member => (sound.capped who member).1, sound.covered,
      sound.remaining _ (List.Subperm.refl _)⟩
    · intro who member
      have resolved := sound.resolved who (List.mem_cons_of_mem _ member)
      exact ⟨resolved.1, fun same => fresh (same ▸ member), resolved.2⟩
    · intro empty
      obtain ⟨who, member⟩ := List.exists_mem_of_ne_nil _ sound.someone
      have some := (sound.capped who member).1
      rw [empty] at some
      exact absurd some (by simp [tranchesOf])

/-- Accounts are numbers; a schedule is an amount, a rate and a start. -/
def tinyConfig : Config where
  AccountId := Nat
  decEqAccountId := inferInstance
  mainnetPlaceholder role label := 1000 + 100 * role.length + label.length
  reviveAccountId := 999
  VestingInfo := Nat × Nat × Nat
  locked schedule := schedule.1
  perBlock schedule := max schedule.2.1 1
  startingBlock schedule := schedule.2.2
  isValid schedule := decide (schedule.1 ≠ 0 ∧ schedule.2.1 ≠ 0)

def tinyTranche (recipient issueAt amount : Nat) : AllocationTranche tinyConfig :=
  ⟨recipient, issueAt, (amount, UNIT, issueAt + 5)⟩

/-- Two recipients, issued in turns every ten blocks. -/
def tinyTerms : AllocationTerms tinyConfig where
  cadenceBlocks := 10
  tranches := [tinyTranche 92 1 (20 * UNIT), tinyTranche 93 4 UNIT, tinyTranche 92 11 (5 * UNIT),
    tinyTranche 93 14 (3 * UNIT)]

private theorem tinyTotal_fits : 30 * UNIT < 2 ^ 128 := by decide

def tinyTotal : Balance := ⟨30 * UNIT, tinyTotal_fits⟩

def tinyPlan : MainnetAllocation tinyConfig where
  total := some tinyTotal
  custody := (91 : Nat)
  recipients := some [(92 : Nat), (93 : Nat)]
  terms := some tinyTerms

/-- One unit stays behind after all four tranches. -/
theorem allocation_plan_sound_tinyPlan :
    validate [(92 : Nat)] tinyPlan = .ok tinyTotal ∧
      ∃ recipients terms, tinyPlan.recipients = some recipients ∧ tinyPlan.terms = some terms ∧
        Sound [(92 : Nat)] tinyPlan.custody recipients terms tinyTotal := by
  have accepted : validate [(92 : Nat)] tinyPlan = .ok tinyTotal := by decide +kernel
  have rates : ∀ schedule, tinyConfig.isValid schedule = true → 0 < tinyConfig.perBlock schedule :=
    fun _ _ => lt_of_lt_of_le Nat.one_pos (Nat.le_max_right _ _)
  obtain ⟨recipients, terms, -, listed, agreed, sound⟩ := (allocation_plan_sound rates _ _ _).mp accepted
  exact ⟨accepted, recipients, terms, listed, agreed, sound⟩

end QuipValidator.Allocation
