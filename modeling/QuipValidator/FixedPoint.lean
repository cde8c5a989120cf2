import QuipValidator.Fallible
import Mathlib.Algebra.BigOperators.Group.List.Basic
import Mathlib.Algebra.Order.BigOperators.Group.List
import Mathlib.Algebra.Order.Ring.Nat

/-! Checked unsigned arithmetic and fractions in parts per billion. Shares of a
whole are rounded down one by one, so shares that add up to at most one hand out at
most the whole. -/
namespace QuipValidator

namespace Unsigned

/-- `a.checked_add(b)` for an unsigned type whose largest value is `cap`. -/
def checkedAdd (cap a b : Nat) : Option Nat := if a + b ≤ cap then some (a + b) else none

/-- `a.checked_mul(b)` for an unsigned type whose largest value is `cap`. -/
def checkedMul (cap a b : Nat) : Option Nat := if a * b ≤ cap then some (a * b) else none

/-- `a.checked_sub(b)` for an unsigned type. -/
def checkedSub (a b : Nat) : Option Nat := if b ≤ a then some (a - b) else none

/-- `a.checked_div(b)` for an unsigned type. -/
def checkedDiv (a b : Nat) : Option Nat := if b = 0 then none else some (a / b)

@[simp] theorem checkedSub_eq_some {a b result : Nat} : checkedSub a b = some result ↔ b ≤ a ∧ a - b = result := by
  unfold checkedSub
  split <;> simp_all

@[simp] theorem checkedDiv_eq_some {a b result : Nat} : checkedDiv a b = some result ↔ b ≠ 0 ∧ a / b = result := by
  unfold checkedDiv
  split <;> simp_all

@[simp] theorem checkedAdd_eq_some {cap a b result : Nat} :
    checkedAdd cap a b = some result ↔ a + b ≤ cap ∧ a + b = result := by
  unfold checkedAdd
  split <;> simp_all

@[simp] theorem checkedMul_eq_some {cap a b result : Nat} :
    checkedMul cap a b = some result ↔ a * b ≤ cap ∧ a * b = result := by
  unfold checkedMul
  split <;> simp_all

/-- A checked running sum is the sum, when it fits. -/
theorem foldlM_checkedAdd {α : Type} (cap : Nat) (weigh : α → Nat) (items : List α) {start : Nat}
    (fits : start ≤ cap) :
    items.foldlM (fun sum item => checkedAdd cap sum (weigh item)) start =
      if start + (items.map weigh).sum ≤ cap then some (start + (items.map weigh).sum) else none := by
  induction items generalizing start with
  | nil => simp [fits]
  | cons item rest ih =>
    rw [List.foldlM_cons, List.map_cons, List.sum_cons, ← Nat.add_assoc]
    by_cases room : start + weigh item ≤ cap
    · rw [checkedAdd, if_pos room]
      exact ih room
    · -- Overflow at one item stays overflow: the rest only adds.
      rw [checkedAdd, if_neg room, if_neg (by omega)]
      rfl

theorem foldlM_checkedAdd_eq_some {α : Type} {cap : Nat} {weigh : α → Nat} {items : List α} {start total : Nat}
    (fits : start ≤ cap) :
    items.foldlM (fun sum item => checkedAdd cap sum (weigh item)) start = some total ↔
      start + (items.map weigh).sum ≤ cap ∧ total = start + (items.map weigh).sum := by
  rw [foldlM_checkedAdd cap weigh items fits]
  split <;> simp_all [eq_comm]

end Unsigned

/-- Rounding parts down one by one hands out at most the whole rounded down. -/
theorem sum_floors_le (factor divisor : Nat) (parts : List Nat) :
    (parts.map fun part => factor * part / divisor).sum ≤ factor * parts.sum / divisor := by
  induction parts with
  | nil => simp
  | cons part rest ih =>
    simp only [List.map_cons, List.sum_cons]
    calc factor * part / divisor + (rest.map fun part => factor * part / divisor).sum
        ≤ factor * part / divisor + factor * rest.sum / divisor := by omega
      _ ≤ (factor * part + factor * rest.sum) / divisor := Nat.div_add_div_le_add_div
      _ = factor * (part + rest.sum) / divisor := by rw [Nat.mul_add]

/-- Each part loses less than one by its rounding, so the whole loses less than one
for each part. -/
theorem sum_floors_shortfall (factor : Nat) {divisor : Nat} (positive : 0 < divisor) {parts : List Nat}
    (occupied : parts ≠ []) :
    factor * parts.sum / divisor < (parts.map fun part => factor * part / divisor).sum + parts.length := by
  rw [Nat.div_lt_iff_lt_mul positive]
  have scaled : ∀ parts : List Nat, factor * parts.sum + parts.length ≤
      ((parts.map fun part => factor * part / divisor).sum + parts.length) * divisor := by
    intro parts
    induction parts with
    | nil => simp
    | cons part rest ih =>
      have first := Nat.lt_div_mul_add (a := factor * part) positive
      simp only [List.map_cons, List.sum_cons, List.length_cons]
      calc factor * (part + rest.sum) + (rest.length + 1)
          = (factor * part + 1) + (factor * rest.sum + rest.length) := by rw [Nat.mul_add]; omega
        _ ≤ (factor * part / divisor * divisor + divisor) +
            ((rest.map fun part => factor * part / divisor).sum + rest.length) * divisor := by omega
        _ = (factor * part / divisor + 1 + ((rest.map fun part => factor * part / divisor).sum + rest.length)) *
            divisor := by rw [Nat.add_mul (factor * part / divisor + 1), Nat.add_one_mul]
        _ = (factor * part / divisor + (rest.map fun part => factor * part / divisor).sum + (rest.length + 1)) *
            divisor := by congr 1; omega
  have some : 0 < parts.length := List.length_pos_iff.mpr occupied
  have bound := scaled parts
  omega

/-- `Perbill::ACCURACY`. -/
def billion : Nat := 1_000_000_000

theorem billion_pos : 0 < billion := by decide

/-- A fraction in parts per billion. -/
structure Perbill where
  parts : Nat
  bounded : parts ≤ billion
  deriving DecidableEq

namespace Perbill

theorem parts_le_u32Max (share : Perbill) : share.parts ≤ u32Max := share.bounded.trans (by decide)

/-- `mul_floor`. -/
def mulFloor (share : Perbill) (total : Nat) : Nat := share.parts * total / billion

/-- `saturating_add`. -/
def saturatingAdd (first second : Perbill) : Perbill :=
  ⟨min (first.parts + second.parts) billion, Nat.min_le_right _ _⟩

theorem parts_saturatingAdd {first second : Perbill} (fits : first.parts + second.parts ≤ billion) :
    (first.saturatingAdd second).parts = first.parts + second.parts := Nat.min_eq_left fits

theorem mulFloor_le (share : Perbill) (total : Nat) : share.mulFloor total ≤ total := by
  apply Nat.div_le_of_le_mul
  exact Nat.mul_le_mul_right total share.bounded

theorem mulFloor_mono (share : Perbill) {less more : Nat} (le : less ≤ more) :
    share.mulFloor less ≤ share.mulFloor more := by
  apply Nat.div_le_div_right
  exact Nat.mul_le_mul_left share.parts le

/-- Shares that make at most one whole hand out at most the whole. -/
theorem sum_mulFloor_le (shares : List Perbill) (whole : (shares.map parts).sum ≤ billion) (total : Nat) :
    (shares.map fun share => share.mulFloor total).sum ≤ total := by
  have scaled : (shares.map fun share => share.mulFloor total).sum * billion ≤ (shares.map parts).sum * total := by
    induction shares with
    | nil => simp
    | cons share rest ih =>
      rw [List.map_cons, List.sum_cons] at whole
      have first := Nat.div_mul_le_self (share.parts * total) billion
      have later := ih (by omega)
      rw [List.map_cons, List.sum_cons, List.map_cons, List.sum_cons, Nat.add_mul, Nat.add_mul]
      exact Nat.add_le_add first later
  have bounded := scaled.trans (Nat.mul_le_mul_right total whole)
  rw [Nat.mul_comm billion] at bounded
  exact Nat.le_of_mul_le_mul_right bounded billion_pos

end Perbill

end QuipValidator
