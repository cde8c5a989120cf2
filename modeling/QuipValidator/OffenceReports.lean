import Mathlib.Data.Nat.Find
import Mathlib.Order.Monotone.Basic
import QuipValidator.FixedPoint

/-! Reports of equivocations reach the offences pallet only while the slash they lead
to can still be queued. Staking finds the era of an offence from its session; the
guard repeats that lookup and asks whether the era in which the slash would apply is
yet to come. -/
namespace QuipValidator.Offences
open Unsigned

def BondingDuration : Nat := 28
def SLASH_DEFER_ERAS : Nat := 27

/-- What the guard reads of staking. -/
structure Staking where
  activeEra : Option Nat
  erasStartSessionIndex : Nat → Option Nat
  /-- `BondedEras`: eras with their first sessions. -/
  bondedEras : List (Nat × Nat)

/-- The era of a session, once the active era and its first session are known. -/
def eraOfSession (staking : Staking) (active start session : Nat) : Option Nat :=
  if start ≤ session then some active
  else (staking.bondedEras.reverse.find? fun bonded => bonded.2 ≤ session).map Prod.fst

def hasPendingSlashBucket (staking : Staking) (session : Nat) : Bool :=
  match staking.activeEra with
  | none => false
  | some active =>
    match staking.erasStartSessionIndex active with
    | none => false
    | some start =>
      match eraOfSession staking active start session with
      | none => false
      | some era =>
        ((checkedAdd u32Max era SLASH_DEFER_ERAS).bind fun era => checkedAdd u32Max era 1).any
          fun applyEra => active < applyEra

/-- `OffenceError`. -/
inductive OffenceError where
  | duplicateReport
  | other (code : Nat)
  deriving DecidableEq

/-- `GuardedReports::report_offence`, in front of the offences pallet. -/
def reportOffence (staking : Staking) (historicalReports : Except OffenceError Unit) (session : Nat) :
    Except OffenceError Unit :=
  if hasPendingSlashBucket staking session = false then .error (.other 0) else historicalReports

/-- What staking keeps while `active` is the active era: the first sessions of the eras
that are still bonded, the active one and `BondingDuration` before it. -/
structure Bonded (staking : Staking) (startOf : Nat → Nat) (active : Nat) : Prop where
  activeEra : staking.activeEra = some active
  start : staking.erasStartSessionIndex active = some (startOf active)
  eras : staking.bondedEras =
    (List.range' (active - BondingDuration) (min active BondingDuration + 1)).map fun era => (era, startOf era)

/-- The latest era up to `active` that had begun by a session. -/
def eraAt (startOf : Nat → Nat) (active session : Nat) : Nat := Nat.findGreatest (fun era => startOf era ≤ session) active

variable {staking : Staking} {startOf : Nat → Nat} {active session : Nat}

/-- Scanning the eras from the latest finds the era of a session, if that is among them. -/
theorem find_reverse_eras (rising : Monotone startOf) (first more : Nat) :
    ((((List.range' first (more + 1)).map fun era => (era, startOf era)).reverse.find?
      fun bonded => bonded.2 ≤ session).map Prod.fst) =
      if startOf first ≤ session then some (eraAt startOf (first + more) session) else none := by
  induction more with
  | zero =>
    by_cases begun : startOf first ≤ session
    · have found : eraAt startOf first session = first := Nat.findGreatest_eq begun
      simp [begun, found]
    · simp [begun]
  | succ more ih =>
    rw [List.range'_concat, List.map_append, List.reverse_append]
    simp only [List.map_cons, List.map_nil, List.reverse_singleton, List.singleton_append, List.find?_cons,
      Nat.one_mul]
    by_cases begun : startOf (first + (more + 1)) ≤ session
    · have found : eraAt startOf (first + (more + 1)) session = first + (more + 1) := Nat.findGreatest_eq begun
      have before : startOf first ≤ session := (rising (Nat.le_add_right _ _)).trans begun
      rw [decide_eq_true begun, found, if_pos before]
      rfl
    · have earlier : eraAt startOf (first + (more + 1)) session = eraAt startOf (first + more) session :=
        Nat.findGreatest_of_not begun
      rw [decide_eq_false begun, earlier]
      exact ih

/-- The lookup answers with the era of the session for every session of a bonded era. -/
theorem eraOfSession_eq (kept : Bonded staking startOf active) (rising : Monotone startOf) :
    eraOfSession staking active (startOf active) session =
      if startOf (active - BondingDuration) ≤ session then some (eraAt startOf active session) else none := by
  unfold eraOfSession
  by_cases current : startOf active ≤ session
  · have found : eraAt startOf active session = active := Nat.findGreatest_eq current
    have first : startOf (active - BondingDuration) ≤ session := (rising (Nat.sub_le _ _)).trans current
    rw [if_pos current, if_pos first, found]
  · have last : active - BondingDuration + min active BondingDuration = active := by omega
    rw [if_neg current, kept.eras, find_reverse_eras rising, last]

/-- The era of a session is one of the last `SLASH_DEFER_ERAS` or the active one exactly
when the first of these had begun. -/
theorem defer_le_eraAt_iff (rising : Monotone startOf) :
    startOf (active - SLASH_DEFER_ERAS) ≤ session ↔
      startOf (active - BondingDuration) ≤ session ∧ active ≤ eraAt startOf active session + SLASH_DEFER_ERAS := by
  constructor
  · intro begun
    have earlier : active - BondingDuration ≤ active - SLASH_DEFER_ERAS := by
      unfold BondingDuration SLASH_DEFER_ERAS
      omega
    have reached : active - SLASH_DEFER_ERAS ≤ eraAt startOf active session :=
      Nat.le_findGreatest (Nat.sub_le _ _) begun
    exact ⟨(rising earlier).trans begun, by omega⟩
  · rintro ⟨bonded, recent⟩
    have begun : startOf (eraAt startOf active session) ≤ session :=
      Nat.findGreatest_spec (P := fun era => startOf era ≤ session) (Nat.sub_le active BondingDuration) bonded
    exact (rising (by omega)).trans begun

/-- A report gets through exactly for the sessions of the active era and the
`SLASH_DEFER_ERAS` eras before it, short of the last eras of a `u32`. In the oldest
bonded era staking still knows the offence, but its slash would be overdue. -/
theorem report_reaches_offences_iff (kept : Bonded staking startOf active) (rising : Monotone startOf)
    (historicalReports : Except OffenceError Unit) (session : Nat) :
    reportOffence staking historicalReports session =
      if startOf (active - SLASH_DEFER_ERAS) ≤ session ∧
          eraAt startOf active session + SLASH_DEFER_ERAS + 1 ≤ u32Max then historicalReports
      else .error (.other 0) := by
  have pending : hasPendingSlashBucket staking session = true ↔
      startOf (active - SLASH_DEFER_ERAS) ≤ session ∧
        eraAt startOf active session + SLASH_DEFER_ERAS + 1 ≤ u32Max := by
    rw [defer_le_eraAt_iff rising]
    simp only [hasPendingSlashBucket, kept.activeEra, kept.start, eraOfSession_eq kept rising]
    by_cases bonded : startOf (active - BondingDuration) ≤ session
    · simp only [bonded, if_true, Option.any_eq_true, Option.bind_eq_some_iff, checkedAdd_eq_some, decide_eq_true_eq,
        true_and]
      constructor
      · rintro ⟨applyEra, ⟨deferred, ⟨_, rfl⟩, fits, rfl⟩, future⟩
        exact ⟨by omega, fits⟩
      · rintro ⟨recent, fits⟩
        exact ⟨_, ⟨_, ⟨by omega, rfl⟩, fits, rfl⟩, by omega⟩
    · simp only [bonded, if_false, false_and, Bool.false_eq_true]
  by_cases reportable : hasPendingSlashBucket staking session = true
  · rw [if_pos (pending.mp reportable)]
    simp [reportOffence, reportable]
  · rw [if_neg (fun due => reportable (pending.mpr due))]
    simp [reportOffence, reportable]

/-- Era 30 of a chain whose eras have six sessions. -/
def tinyStaking : Staking where
  activeEra := some 30
  erasStartSessionIndex era := some (6 * era)
  bondedEras := (List.range' 2 29).map fun era => (era, 6 * era)

theorem report_reaches_offences_iff_tiny :
    reportOffence tinyStaking (.ok ()) 18 = .ok () ∧ reportOffence tinyStaking (.ok ()) 17 = .error (.other 0) := by
  have kept : Bonded tinyStaking (fun era => 6 * era) 30 := ⟨rfl, rfl, rfl⟩
  have rising : Monotone fun era => 6 * era := fun _ _ later => Nat.mul_le_mul_left 6 later
  constructor
  · rw [report_reaches_offences_iff kept rising (.ok ()) 18]
    decide
  · rw [report_reaches_offences_iff kept rising (.ok ()) 17]
    decide

end QuipValidator.Offences
