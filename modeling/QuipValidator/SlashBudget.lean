import QuipValidator.Machine
import QuipValidator.RollingWindow
import QuipValidator.SlashPolicy

/-! The rolling slash budget against an unbounded log. The stored history of a stash
is a pruned and aggregated view of all its accepted motions. It covers the largest
window there can be, so every decision is the one the log would give, whatever
windows were selected in between. -/
namespace QuipValidator.Slash
open Fallible Unsigned RollingWindow

variable {T : Config} {s s' : State T}

/-- An accepted motion, dated with the era that was active. -/
structure Motion (T : Config) where
  stash : T.AccountId
  era : Nat
  fraction : Perbill

/-- The dated fractions of one stash. -/
def motionsOf (log : List (Motion T)) (stash : T.AccountId) : List (Nat × Perbill) :=
  (log.filter fun motion => motion.stash = stash).map fun motion => (motion.era, motion.fraction)

/-- The charge of a motion against the log, over the last `window` eras. -/
def chargedByLog (log : List (Motion T)) (stash : T.AccountId) (active window : Nat) (fraction : Perbill) : Nat :=
  fraction.parts + spent Perbill.parts (active - (window - 1)) (motionsOf log stash)

/-- `discretionary_slash` with the log of all accepted motions in place of the history. -/
def slashByLog (staking : Staking T) (origin : T.RuntimeOrigin) (stash : T.AccountId) (era : Nat) (fraction : Perbill)
    (limits : Limits) (log : List (Motion T)) : Fallible DispatchError (List (Motion T)) := do
  let active ← checkMotion staking limits origin stash era fraction
  ensure (chargedByLog log stash active limits.window fraction ≤ limits.cumulative.parts)
    (Error.budgetExceeded : DispatchError)
  let _ ← schedule staking stash era fraction
  pure (log ++ [⟨stash, active, fraction⟩])

inductive Step (T : Config) where
  | slash (staking : Staking T) (origin : T.RuntimeOrigin) (stash : T.AccountId) (era : Nat) (fraction : Perbill)
  | setLimits (origin : T.RuntimeOrigin) (perMotion cumulative : Perbill) (window : Nat)

namespace Step

def dispatch (s : State T) : Step T → Fallible DispatchError (State T)
  | slash staking origin stash era fraction => discretionarySlash staking origin stash era fraction s
  | setLimits origin perMotion cumulative window => Slash.setLimits origin perMotion cumulative window s

/-- A call that fails leaves the storage as it was. -/
def next (s : State T) (step : Step T) : State T :=
  match step.dispatch s with
  | .ok after => after
  | .error _ => s

/-- The motion an accepted slash adds to the log. -/
def accepted (s : State T) : Step T → List (Motion T)
  | slash staking origin stash era fraction =>
    match discretionarySlash staking origin stash era fraction s, staking.activeEra with
    | .ok _, some active => [⟨stash, active, fraction⟩]
    | _, _ => []
  | setLimits _ _ _ _ => []

/-- The era that is active in a slash. -/
def activeEra : Step T → Option Nat
  | slash staking _ _ _ _ => staking.activeEra
  | setLimits _ _ _ _ => none

end Step

/-- The calls of the pallet, with the accepted motions. -/
def calls (T : Config) : Machine (State T) (Step T) (Motion T) where
  next := fun s step => step.next s
  report := fun s step => step.accepted s

/-- The active eras of a run. -/
def eras (inputs : List (Step T)) : List Nat := inputs.filterMap Step.activeEra

/-- The history is what is left of the log, at a time when no later era than `last` has been active. -/
structure Kept (s : State T) (log : List (Motion T)) (last : Nat) : Prop where
  distinct : ∀ stash, ((s.history stash).val.map Prod.fst).Nodup
  past : ∀ stash, ∀ entry ∈ (s.history stash).val, entry.1 ≤ last
  covers : ∀ stash, Covers Perbill.parts (s.history stash).val (motionsOf log stash) Perbill.parts
    (last - (T.maxBudgetWindow - 1))

private theorem Kept.later {log : List (Motion T)} {last active : Nat} (kept : Kept s log last) (ordered : last ≤ active) :
    Kept s log active := by
  refine ⟨kept.distinct, ?_, ?_⟩
  · intro stash entry member
    exact (kept.past stash entry member).trans ordered
  · intro stash since covered
    exact kept.covers stash since (by omega)

/-- What `checkMotion` establishes. -/
theorem checkMotion_success {staking : Staking T} {limits : Limits} {origin : T.RuntimeOrigin} {stash : T.AccountId}
    {era active : Nat} {fraction : Perbill} (passed : checkMotion staking limits origin stash era fraction = .ok active) :
    staking.activeEra = some active ∧ limits.window ≤ T.maxBudgetWindow ∧
      limits.cumulative.parts ≤ MAX_CUMULATIVE.parts := by
  simp only [checkMotion, bind_success, ensure_success, okOr_success, checkFractions] at passed
  obtain ⟨_, _, held, known, _, _, _, _, _, _, _, ⟨_, ⟨_, most⟩, _⟩, _, _, _, ⟨_, window⟩, same⟩ := passed
  cases same
  exact ⟨known, window, most⟩

private theorem checkMotion_avoids (staking : Staking T) (limits : Limits) (origin : T.RuntimeOrigin)
    (stash : T.AccountId) (era : Nat) (fraction : Perbill) :
    Avoids (.module .historyFull) (checkMotion staking limits origin stash era fraction) := by
  refine avoids_bind (avoids_ensure (.inr (by simp))) fun _ _ => ?_
  refine avoids_bind (avoids_okOr (.inr (by simp))) fun active _ => ?_
  refine avoids_bind (avoids_ensure (.inr (by simp))) fun _ _ => ?_
  refine avoids_bind (avoids_okOr (.inr (by simp))) fun exposure _ => ?_
  refine avoids_bind (avoids_ensure (.inr (by simp))) fun _ _ => ?_
  refine avoids_bind (avoids_ensure (.inr (by simp))) fun _ _ => ?_
  refine avoids_bind (avoids_ensure (.inr (by simp))) fun _ _ => ?_
  refine avoids_bind (avoids_ensure (.inr (by simp))) fun _ _ => ?_
  exact avoids_pure active

private theorem schedule_avoids (staking : Staking T) (stash : T.AccountId) (era : Nat) (fraction : Perbill) :
    Avoids (.module .historyFull) (schedule staking stash era fraction) := by
  refine avoids_bind (avoids_okOr (.inr (by simp))) fun applyEra _ => ?_
  refine avoids_bind ?_ fun queues _ => ?_
  · cases staking.manualSlash stash era fraction with
    | ok queues => exact avoids_pure queues
    | error index =>
      intro same
      cases same
  · exact avoids_bind (avoids_ensure (.inr (by simp))) fun _ _ => avoids_pure applyEra

/-- The checked sum is the sum, when it fits. -/
private theorem charge_eq (fraction : Perbill) (entries : List (Nat × Perbill)) :
    charge fraction entries =
      if fraction.parts + (entries.map fun entry => entry.2.parts).sum ≤ u32Max then
        some (fraction.parts + (entries.map fun entry => entry.2.parts).sum)
      else none := by
  have small := fraction.parts_le_u32Max
  exact foldlM_checkedAdd u32Max (fun entry : Nat × Perbill => entry.2.parts) entries small

private theorem map_fst_addUsed (active : Nat) (fraction : Perbill) (entries : List (Nat × Perbill)) :
    (addUsed active fraction entries).map Prod.fst = entries.map Prod.fst := by
  induction entries with
  | nil => rfl
  | cons entry rest ih =>
    rw [addUsed]
    split
    · rfl
    · rw [List.map_cons, ih, List.map_cons]

private theorem spent_addUsed {active : Nat} {fraction : Perbill} {entries : List (Nat × Perbill)}
    (present : ∃ used, (active, used) ∈ entries)
    (unsaturated : ∀ used, (active, used) ∈ entries → used.parts + fraction.parts ≤ billion) (since : Nat) :
    spent Perbill.parts since (addUsed active fraction entries) =
      spent Perbill.parts since entries + if since ≤ active then fraction.parts else 0 := by
  induction entries with
  | nil =>
    obtain ⟨_, member⟩ := present
    cases member
  | cons entry rest ih =>
    obtain ⟨held, used⟩ := entry
    rw [addUsed, spent_cons]
    split
    · rename_i here
      subst here
      have room := unsaturated used List.mem_cons_self
      rw [spent_cons, Perbill.parts_saturatingAdd room]
      dsimp only
      split <;> omega
    · rename_i other
      have later : ∃ used, (active, used) ∈ rest := by
        obtain ⟨found, member⟩ := present
        rcases List.mem_cons.mp member with same | among
        · cases same
          exact absurd rfl other
        · exact ⟨found, among⟩
      rw [spent_cons, ih later fun found member => unsaturated found (List.mem_cons_of_mem _ member)]
      omega

/-- Recording a motion in a pruned history always finds room, and adds exactly its fraction at its era. -/
private theorem recordMotion_spec {active : Nat} {fraction : Perbill} {history : History T}
    (distinct : (history.val.map Prod.fst).Nodup)
    (inside : ∀ entry ∈ history.val, active - (T.maxBudgetWindow - 1) ≤ entry.1 ∧ entry.1 ≤ active)
    (unsaturated : ∀ used, (active, used) ∈ history.val → used.parts + fraction.parts ≤ billion) :
    ∃ after, recordMotion active fraction history = .ok after ∧ (after.val.map Prod.fst).Nodup ∧
      (∀ entry ∈ after.val, entry.1 ≤ active) ∧
      ∀ since, spent Perbill.parts since after.val =
        spent Perbill.parts since history.val + if since ≤ active then fraction.parts else 0 := by
  have longest := T.bondingDuration_pos.trans_le T.bondingDuration_le
  by_cases present : ∃ used, (active, used) ∈ history.val
  · have found : (history.val.any fun entry => entry.1 = active) = true := by
      obtain ⟨used, member⟩ := present
      exact List.any_eq_true.mpr ⟨(active, used), member, by simp⟩
    refine ⟨_, by rw [recordMotion, if_pos found], ?_, ?_, spent_addUsed present unsaturated⟩
    · rw [map_fst_addUsed]
      exact distinct
    · intro entry member
      have listed := List.mem_map_of_mem (f := Prod.fst) member
      rw [map_fst_addUsed] at listed
      obtain ⟨held, among, same⟩ := List.mem_map.mp listed
      rw [← same]
      exact (inside held among).2
  · have absent : ∀ entry ∈ history.val, entry.1 ≠ active := by
      rintro ⟨held, used⟩ member rfl
      exact present ⟨used, member⟩
    have missing : ¬ (history.val.any fun entry => entry.1 = active) = true := by
      intro found
      obtain ⟨entry, member, same⟩ := List.any_eq_true.mp found
      exact absent entry member (by simpa using same)
    -- The eras kept lie strictly before the active one, so one place of the window is free.
    have room : (history.val ++ [(active, fraction)]).length ≤ T.maxBudgetWindow := by
      have short := length_le_of_dates distinct fun entry member =>
        ⟨(inside entry member).1, lt_of_le_of_ne (inside entry member).2 (absent entry member)⟩
      rw [List.length_append, List.length_singleton]
      omega
    refine ⟨⟨history.val ++ [(active, fraction)], room⟩, ?_, ?_, ?_, ?_⟩
    · rw [recordMotion, if_neg missing, okOr_success, BoundedVec.tryPush, BoundedVec.tryFrom_of_le room]
    · rw [List.map_append, List.nodup_append]
      refine ⟨distinct, List.nodup_singleton _, ?_⟩
      intro held member other last
      obtain ⟨entry, among, rfl⟩ := List.mem_map.mp member
      rw [List.mem_map] at last
      obtain ⟨pushed, only, rfl⟩ := last
      rw [List.mem_singleton.mp only]
      exact absent entry among
    · intro entry member
      rcases List.mem_append.mp member with among | last
      · exact (inside entry among).2
      · rw [List.mem_singleton.mp last]
    · intro since
      rw [spent_append, spent_cons, spent_nil, Nat.add_zero]

private theorem motionsOf_concat (log : List (Motion T)) (motion : Motion T) (stash : T.AccountId) :
    motionsOf (log ++ [motion]) stash =
      motionsOf log stash ++ if motion.stash = stash then [(motion.era, motion.fraction)] else [] := by
  by_cases own : motion.stash = stash <;> simp [motionsOf, own]

/-- The storage after an accepted motion keeps up with the log. -/
private theorem Kept.accept {log : List (Motion T)} {active : Nat} {fraction : Perbill} {stash : T.AccountId}
    {after : History T} (kept : Kept s log active) (own : s'.history stash = after)
    (others : ∀ other, other ≠ stash → s'.history other = s.history other)
    (distinct : (after.val.map Prod.fst).Nodup) (past : ∀ entry ∈ after.val, entry.1 ≤ active)
    (covers : Covers Perbill.parts after.val (motionsOf log stash ++ [(active, fraction)]) Perbill.parts
      (active - (T.maxBudgetWindow - 1))) :
    Kept s' (log ++ [⟨stash, active, fraction⟩]) active := by
  refine ⟨?_, ?_, ?_⟩
  · intro other
    by_cases same : other = stash
    · rw [same, own]
      exact distinct
    · rw [others other same]
      exact kept.distinct other
  · intro other
    by_cases same : other = stash
    · rw [same, own]
      exact past
    · rw [others other same]
      exact kept.past other
  · intro other
    by_cases same : other = stash
    · rw [same, own, motionsOf_concat, if_pos rfl]
      exact covers
    · rw [others other same, motionsOf_concat, if_neg (Ne.symm same), List.append_nil]
      exact kept.covers other

/-- The charge against the history is the charge against the log. -/
private theorem Kept.charge {log : List (Motion T)} {active window : Nat} (kept : Kept s log active)
    (selected : window ≤ T.maxBudgetWindow) (stash : T.AccountId) (fraction : Perbill) :
    charge fraction (inWindow active window (retained T active (s.history stash))) =
      if chargedByLog log stash active window fraction ≤ u32Max then
        some (chargedByLog log stash active window fraction)
      else none := by
  have counted : spent Perbill.parts (active - (window - 1)) (retained T active (s.history stash)).val =
      spent Perbill.parts (active - (window - 1)) (motionsOf log stash) := by
    apply (kept.covers stash).prune le_rfl
    omega
  rw [charge_eq, chargedByLog, ← counted]
  rfl

private theorem Kept.retained_distinct {log : List (Motion T)} {active : Nat} (kept : Kept s log active)
    (stash : T.AccountId) : ((retained T active (s.history stash)).val.map Prod.fst).Nodup :=
  (kept.distinct stash).sublist (List.filter_sublist.map Prod.fst)

private theorem Kept.retained_inside {log : List (Motion T)} {active : Nat} (kept : Kept s log active)
    (stash : T.AccountId) : ∀ entry ∈ (retained T active (s.history stash)).val,
      active - (T.maxBudgetWindow - 1) ≤ entry.1 ∧ entry.1 ≤ active := by
  intro entry member
  obtain ⟨among, young⟩ := List.mem_filter.mp member
  exact ⟨by simpa using young, kept.past stash entry among⟩

/-- A motion within the budget leaves no entry saturated: the entry of the era is a part of the charge. -/
private theorem Kept.unsaturated {log : List (Motion T)} {active window : Nat} {stash : T.AccountId}
    {fraction : Perbill} (kept : Kept s log active) (selected : window ≤ T.maxBudgetWindow)
    (within : chargedByLog log stash active window fraction ≤ billion) :
    ∀ used, (active, used) ∈ (retained T active (s.history stash)).val → used.parts + fraction.parts ≤ billion := by
  intro used member
  have covers := (kept.covers stash).prune le_rfl
  have part : used.parts ≤ spent Perbill.parts (active - (window - 1)) (motionsOf log stash) := by
    rw [← covers (active - (window - 1)) (by omega)]
    exact amount_le_spent Perbill.parts member (Nat.sub_le _ _)
  rw [chargedByLog] at within
  omega

/-- Over the budget both refuse: past `u32` the sum is past the limit as well. -/
private theorem Kept.overBudget {log : List (Motion T)} {active era : Nat} {staking : Staking T}
    {origin : T.RuntimeOrigin} {stash : T.AccountId} {fraction : Perbill} (kept : Kept s log active)
    (checked : checkMotion staking s.limits origin stash era fraction = .ok active)
    (selected : s.limits.window ≤ T.maxBudgetWindow)
    (exceeded : ¬ chargedByLog log stash active s.limits.window fraction ≤ s.limits.cumulative.parts) :
    discretionarySlash staking origin stash era fraction s = .error (.error (.module .budgetExceeded)) ∧
      slashByLog staking origin stash era fraction s.limits log = .error (.error (.module .budgetExceeded)) := by
  constructor
  · simp only [discretionarySlash, checked, bind, Except.bind]
    rw [kept.charge selected stash fraction]
    by_cases fits : chargedByLog log stash active s.limits.window fraction ≤ u32Max
    · rw [if_pos fits]
      simp only [okOr, ensure, exceeded, if_false, fail]
    · rw [if_neg fits]
      rfl
  · simp only [slashByLog, checked, bind, Except.bind, ensure, exceeded, if_false, fail]

/-- A call decides against the history as it would against the log, and if it accepts
the history keeps up. -/
theorem discretionarySlash_byLog {log : List (Motion T)} {last : Nat} (kept : Kept s log last) (staking : Staking T)
    (origin : T.RuntimeOrigin) (stash : T.AccountId) (era : Nat) (fraction : Perbill)
    (ordered : ∀ active, staking.activeEra = some active → last ≤ active) :
    (∃ fault, discretionarySlash staking origin stash era fraction s = .error fault ∧
      slashByLog staking origin stash era fraction s.limits log = .error fault ∧
      fault ≠ .error (.module .historyFull)) ∨
    ∃ active s', staking.activeEra = some active ∧
      discretionarySlash staking origin stash era fraction s = .ok s' ∧
      slashByLog staking origin stash era fraction s.limits log = .ok (log ++ [⟨stash, active, fraction⟩]) ∧
      Kept s' (log ++ [⟨stash, active, fraction⟩]) active ∧
      chargedByLog log stash active s.limits.window fraction ≤ s.limits.cumulative.parts ∧
      s.limits.cumulative.parts ≤ MAX_CUMULATIVE.parts ∧
      ∀ used, (active, used) ∈ (retained T active (s.history stash)).val → used.parts + fraction.parts ≤ billion := by
  cases checked : checkMotion staking s.limits origin stash era fraction with
  | error fault =>
    refine .inl ⟨fault, ?_, ?_, ?_⟩
    · rw [discretionarySlash, checked]
      rfl
    · rw [slashByLog, checked]
      rfl
    · rintro rfl
      exact checkMotion_avoids staking s.limits origin stash era fraction checked
  | ok active =>
    obtain ⟨known, window, most⟩ := checkMotion_success checked
    have now := kept.later (ordered active known)
    have covers := (now.covers stash).prune le_rfl
    have charged := now.charge window stash fraction
    have small := s.limits.cumulative.parts_le_u32Max
    by_cases within : chargedByLog log stash active s.limits.window fraction ≤ s.limits.cumulative.parts
    · have folded := charged.trans (if_pos (within.trans small))
      have unsaturated := now.unsaturated window (within.trans s.limits.cumulative.bounded)
      obtain ⟨after, recorded, unique, past, added⟩ :=
        recordMotion_spec (now.retained_distinct stash) (now.retained_inside stash) unsaturated
      cases queued : schedule staking stash era fraction with
      | error fault =>
        refine .inl ⟨fault, ?_, ?_, ?_⟩
        · simp only [discretionarySlash, checked, bind, Except.bind, folded, okOr, ensure, within, if_true, recorded, queued]
        · simp only [slashByLog, checked, bind, Except.bind, ensure, within, if_true, queued]
        · rintro rfl
          exact schedule_avoids staking stash era fraction queued
      | ok applyEra =>
        obtain ⟨events, ran⟩ : ∃ events, discretionarySlash staking origin stash era fraction s =
            .ok { s with slashHistory := s.slashHistory.insert stash after, events } := by
          simp only [discretionarySlash, checked, bind, Except.bind, folded, okOr, ensure, within, if_true, recorded, queued]
          exact ⟨_, rfl⟩
        refine .inr ⟨active, _, known, ran, ?_, ?_, within, most, unsaturated⟩
        · simp only [slashByLog, checked, bind, Except.bind, ensure, within, if_true, queued, pure, Except.pure]
        · refine now.accept ?_ ?_ unique past (covers.add added)
          · simp [State.history]
          · intro other different
            simp [State.history, different]
    · obtain ⟨refused, refusedByLog⟩ := now.overBudget checked window within
      exact .inl ⟨_, refused, refusedByLog, by simp⟩

private theorem setLimits_history {origin : T.RuntimeOrigin} {perMotion cumulative : Perbill} {window : Nat}
    (ran : setLimits origin perMotion cumulative window s = .ok s') : s'.slashHistory = s.slashHistory := by
  simp only [setLimits, bind_success] at ran
  obtain ⟨_, _, _, _, _, _, same⟩ := ran
  cases same
  rfl

/-- One call, in an era no earlier than the last one. -/
private theorem Kept.step {log : List (Motion T)} {last : Nat} (kept : Kept s log last) (step : Step T)
    (ordered : ∀ active, step.activeEra = some active → last ≤ active) :
    Kept (step.next s) (log ++ step.accepted s) (step.activeEra.getD last) := by
  cases step with
  | slash staking origin stash era fraction =>
    rcases discretionarySlash_byLog kept staking origin stash era fraction ordered with
      ⟨fault, failed, _, _⟩ | ⟨active, after, known, ran, _, keeps, _⟩
    · have since : Kept s log (staking.activeEra.getD last) := by
        cases known : staking.activeEra with
        | none => exact kept
        | some active => exact kept.later (ordered active known)
      simpa [Step.next, Step.dispatch, Step.accepted, Step.activeEra, failed] using since
    · simpa [Step.next, Step.dispatch, Step.accepted, Step.activeEra, ran, known] using keeps
  | setLimits origin perMotion cumulative window =>
    rw [Step.accepted, List.append_nil]
    simp only [Step.next, Step.dispatch]
    split
    · rename_i after ran
      have same : after.history = s.history := by
        funext stash
        rw [State.history, setLimits_history ran, State.history]
      refine ⟨?_, ?_, ?_⟩ <;> intro stash <;> rw [same]
      · exact kept.distinct stash
      · exact kept.past stash
      · exact kept.covers stash
    · exact kept

/-- The history after any run. -/
private theorem run_kept (inputs : List (Step T)) (ordered : (eras inputs).Pairwise (· ≤ ·)) :
    Kept ((calls T).run (State.initial T) inputs) ((calls T).trace (State.initial T) inputs)
      ((eras inputs).getLastD 0) := by
  have initially : Kept (State.initial T) [] 0 := by
    refine ⟨fun _ => List.nodup_nil, ?_, fun _ _ _ => rfl⟩
    intro stash entry member
    cases member
  apply (calls T).run_timed Step.activeEra (fun log last s => Kept s log last) initially _ inputs ordered
  intro s log last step kept later
  exact kept.step step later

private theorem getLastD_eras_le {inputs : List (Step T)} {active : Nat} (later : ∀ past ∈ eras inputs, past ≤ active) :
    (eras inputs).getLastD 0 ≤ active := by
  rw [List.getLastD_eq_getLast?]
  cases listed : (eras inputs).getLast? with
  | none => exact Nat.zero_le _
  | some past => exact later past (List.mem_of_getLast? listed)

/-- After any calls in eras that never go back, whatever was accepted or rejected and
whatever limits were set in between: every history has one entry for each era, none
later than the active one, and the next call decides exactly as it would against the
log of all accepted motions, on the same charge. So it never finds the history full; if it accepts, the
fractions of that stash over the window are within the limit then in force, which is
at most a tenth, and no entry saturates; if it fails, the storage is as before. -/
theorem rolling_slash_budget (inputs : List (Step T)) (ordered : (eras inputs).Pairwise (· ≤ ·)) {s : State T}
    (ran : (calls T).run (State.initial T) inputs = s) {log : List (Motion T)}
    (logged : (calls T).trace (State.initial T) inputs = log) :
    (∀ stash, ((s.history stash).val.map Prod.fst).Nodup ∧
      ∀ active, (∀ past ∈ eras inputs, past ≤ active) → ∀ entry ∈ (s.history stash).val, entry.1 ≤ active) ∧
    ∀ staking origin stash era fraction,
      (∀ active, staking.activeEra = some active → ∀ past ∈ eras inputs, past ≤ active) →
      (∀ active, checkMotion staking s.limits origin stash era fraction = .ok active →
          charge fraction (inWindow active s.limits.window (retained T active (s.history stash))) =
            if chargedByLog log stash active s.limits.window fraction ≤ u32Max then
              some (chargedByLog log stash active s.limits.window fraction)
            else none) ∧
        Except.map (fun _ => ()) (discretionarySlash staking origin stash era fraction s) =
          Except.map (fun _ => ()) (slashByLog staking origin stash era fraction s.limits log) ∧
        discretionarySlash staking origin stash era fraction s ≠ .error (.error (.module .historyFull)) ∧
        (∀ after, discretionarySlash staking origin stash era fraction s = .ok after →
          ∃ active, staking.activeEra = some active ∧
            slashByLog staking origin stash era fraction s.limits log = .ok (log ++ [⟨stash, active, fraction⟩]) ∧
            spent Perbill.parts (active - (s.limits.window - 1)) (motionsOf (log ++ [⟨stash, active, fraction⟩]) stash) ≤
              s.limits.cumulative.parts ∧
            s.limits.cumulative.parts ≤ MAX_CUMULATIVE.parts ∧
            ∀ used, (active, used) ∈ (retained T active (s.history stash)).val →
              (used.saturatingAdd fraction).parts = used.parts + fraction.parts) ∧
        ∀ fault, discretionarySlash staking origin stash era fraction s = .error fault →
          (calls T).next s (.slash staking origin stash era fraction) = s := by
  have kept := run_kept inputs ordered
  rw [ran, logged] at kept
  refine ⟨?_, ?_⟩
  · intro stash
    refine ⟨kept.distinct stash, ?_⟩
    intro active later entry member
    exact (kept.past stash entry member).trans (getLastD_eras_le later)
  · intro staking origin stash era fraction later
    have charged : ∀ active, checkMotion staking s.limits origin stash era fraction = .ok active →
        charge fraction (inWindow active s.limits.window (retained T active (s.history stash))) =
          if chargedByLog log stash active s.limits.window fraction ≤ u32Max then
            some (chargedByLog log stash active s.limits.window fraction)
          else none := by
      intro active passed
      obtain ⟨known, window, _⟩ := checkMotion_success passed
      exact (kept.later (getLastD_eras_le (later active known))).charge window stash fraction
    refine ⟨charged, ?_⟩
    have decided := discretionarySlash_byLog kept staking origin stash era fraction
      fun active known => getLastD_eras_le (later active known)
    rcases decided with ⟨fault, failed, byLog, other⟩ | ⟨active, after, known, accepted, byLog, _, within, most, room⟩
    · rw [failed, byLog]
      refine ⟨rfl, ?_, ?_, ?_⟩
      · intro same
        cases same
        exact other rfl
      · intro after impossible
        cases impossible
      · intro _ _
        simp only [calls, Step.next, Step.dispatch, failed]
    · rw [accepted, byLog]
      refine ⟨rfl, ?_, ?_, ?_⟩
      · intro impossible
        cases impossible
      · intro _ _
        refine ⟨active, known, rfl, ?_, most, fun used member => Perbill.parts_saturatingAdd (room used member)⟩
        rw [motionsOf_concat, if_pos rfl, spent_append, spent_cons, spent_nil, if_pos (Nat.sub_le _ _)]
        rw [chargedByLog] at within
        dsimp only
        omega
      · intro _ impossible
        cases impossible

/-- Two eras of bonding and four of history. -/
def tinyConfig : Config where
  AccountId := Nat
  RuntimeOrigin := Nat
  decEqAccountId := inferInstance
  bondingDuration := 2
  maxBudgetWindow := 4
  slashDeferDuration := 1
  bondingDuration_pos := by decide
  bondingDuration_le := by decide
  slashDeferDuration_pos := by decide
  councilOrigin := fun origin => origin = 0

/-- Every stash is exposed and every slash is queued. -/
def tinyStaking (active : Nat) : Staking tinyConfig where
  activeEra := some active
  erasStakersOverview := fun _ _ => some 100
  unappliedSlashes := fun _ => []
  manualSlash := fun _ _ _ => .ok fun _ => [{ own := 1, others := [] }]

/-- A motion of one percent against stash 9. -/
def tinySlash (active : Nat) : Step tinyConfig :=
  .slash (tinyStaking active) (0 : Nat) (9 : Nat) active DEFAULT_PER_MOTION

/-- The budget of four percent is used up in two eras, then the window is raised to four. -/
def tinyRun : List (Step tinyConfig) :=
  [tinySlash 5, tinySlash 5, tinySlash 6, tinySlash 6, .setLimits (0 : Nat) DEFAULT_PER_MOTION DEFAULT_CUMULATIVE 4]

/-- One era later the four motions still count. -/
theorem rolling_slash_budget_tinyRun :
    Except.map (fun _ => ()) (slashByLog (tinyStaking 7) (0 : Nat) (9 : Nat) 7 DEFAULT_PER_MOTION
        ((calls tinyConfig).run (State.initial tinyConfig) tinyRun).limits
        ((calls tinyConfig).trace (State.initial tinyConfig) tinyRun)) =
      fail (.module .budgetExceeded) := by
  have ordered : (eras tinyRun).Pairwise (· ≤ ·) := by decide
  have decided := ((rolling_slash_budget tinyRun ordered rfl rfl).2 (tinyStaking 7) (0 : Nat) (9 : Nat) 7
    DEFAULT_PER_MOTION (by
      intro active known past member
      cases known
      revert past
      decide)).2.1
  rw [← decided]
  rfl

end QuipValidator.Slash
