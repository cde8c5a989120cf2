import Mathlib.Algebra.BigOperators.Group.List.Basic
import Mathlib.Algebra.Order.Ring.Int
import Mathlib.Data.List.Nodup
import Mathlib.Data.List.Perm.Subperm

/-! Spending over a rolling window. A log holds every dated amount there ever was; a
history holds one amount for each date and forgets dates before a horizon. The two
agree on what was spent since any date the history still covers, and pruning a
history further, or adding an amount at a date to both, keeps them in agreement. -/
namespace QuipValidator.RollingWindow

variable {α β : Type} (amount : α → Nat)

/-- What was spent at `since` or later. -/
def spent (since : Nat) (entries : List (Nat × α)) : Nat :=
  ((entries.filter fun entry => since ≤ entry.1).map fun entry => amount entry.2).sum

@[simp] theorem spent_nil (since : Nat) : spent amount since [] = 0 := rfl

theorem spent_cons (since : Nat) (entry : Nat × α) (rest : List (Nat × α)) :
    spent amount since (entry :: rest) = (if since ≤ entry.1 then amount entry.2 else 0) + spent amount since rest := by
  by_cases counted : since ≤ entry.1
  · simp [spent, counted]
  · simp [spent, counted]

theorem spent_append (since : Nat) (first second : List (Nat × α)) :
    spent amount since (first ++ second) = spent amount since first + spent amount since second := by
  simp [spent]

/-- Forgetting earlier dates changes nothing from the horizon on. -/
theorem spent_filter {horizon since : Nat} (covered : horizon ≤ since) (entries : List (Nat × α)) :
    spent amount since (entries.filter fun entry => horizon ≤ entry.1) = spent amount since entries := by
  rw [spent, List.filter_filter]
  congr 2
  apply List.filter_congr
  intro entry _
  by_cases counted : since ≤ entry.1
  · simp [counted, covered.trans counted]
  · simp [counted]

/-- One dated amount that is counted is part of what was spent. -/
theorem amount_le_spent {since : Nat} {entry : Nat × α} {entries : List (Nat × α)} (member : entry ∈ entries)
    (counted : since ≤ entry.1) : amount entry.2 ≤ spent amount since entries := by
  induction entries with
  | nil => cases member
  | cons first rest ih =>
    rw [spent_cons]
    rcases List.mem_cons.mp member with rfl | later
    · rw [if_pos counted]
      omega
    · have below := ih later
      omega

/-- The history covers the log from the horizon on. -/
def Covers (history : List (Nat × α)) (log : List (Nat × β)) (amountOf : β → Nat) (horizon : Nat) : Prop :=
  ∀ since, horizon ≤ since → spent amount since history = spent amountOf since log

variable {amount} {amountOf : β → Nat} {history : List (Nat × α)} {log : List (Nat × β)} {horizon later : Nat}

/-- Pruning to a later horizon. -/
theorem Covers.prune (covers : Covers amount history log amountOf horizon) (ordered : horizon ≤ later) :
    Covers amount (history.filter fun entry => later ≤ entry.1) log amountOf later := by
  intro since covered
  rw [spent_filter amount covered]
  exact covers since (ordered.trans covered)

/-- The same amount at the same date on both sides. -/
theorem Covers.add {history' : List (Nat × α)} (covers : Covers amount history log amountOf horizon) {date : Nat}
    {entry : β}
    (added : ∀ since, spent amount since history' =
      spent amount since history + if since ≤ date then amountOf entry else 0) :
    Covers amount history' (log ++ [(date, entry)]) amountOf horizon := by
  intro since covered
  rw [added since, covers since covered, spent_append, spent_cons, spent_nil]
  rfl

/-- Distinct dates inside an interval are no more than the interval is long. -/
theorem length_le_of_dates {low high : Nat} (distinct : (history.map Prod.fst).Nodup)
    (inside : ∀ entry ∈ history, low ≤ entry.1 ∧ entry.1 < high) : history.length ≤ high - low := by
  have listed : history.map Prod.fst ⊆ List.range' low (high - low) := by
    intro date member
    obtain ⟨entry, held, rfl⟩ := List.mem_map.mp member
    have bounds := inside entry held
    exact List.mem_range'_1.mpr ⟨bounds.1, by omega⟩
  have short := (distinct.subperm listed).length_le
  rw [List.length_map, List.length_range'] at short
  exact short

end QuipValidator.RollingWindow
