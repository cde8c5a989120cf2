import QuipValidator.OrderHistory

/-! From its effective expiry on, nothing an order's settlement reads changes
any more: the hook may still be blocks away, and any calls may come first. -/
namespace QuipValidator.Mempool
open Fallible

variable {T : Config} {s after : State T} {label : Option (Label T)} {orderId : Nat} {order : JobOrder T}

/-- The order takes no more submissions. -/
def Frozen (s : State T) (orderId : Nat) (order : JobOrder T) : Prop :=
  s.jobOrders.lookup orderId = some order ∧ (order.status ≠ .opened ∨ order.expiry ≤ s.blockNumber)

/-- The order and its file are what they were, up to the status. -/
structure Preserved (s : State T) (orderId : Nat) (order : JobOrder T) (after : State T) : Prop where
  file : SameFile s after orderId
  required : after.orderPayeeRequirements.lookup orderId = s.orderPayeeRequirements.lookup orderId
  frozen : ∃ status, Frozen after orderId { order with status }

theorem SameFile.trans {middle : State T} (first : SameFile s middle orderId) (second : SameFile middle after orderId) :
    SameFile s after orderId where
  solutions := second.solutions.trans first.solutions
  payees := fun account => (second.payees account).trans (first.payees account)
  front := second.front.trans first.front
  top := second.top.trans first.top

theorem Frozen.refl (frozen : Frozen s orderId order) : Preserved s orderId order s :=
  ⟨⟨rfl, fun _ => rfl, rfl, rfl⟩, rfl, order.status, frozen⟩

theorem Preserved.trans {middle : State T} (first : Preserved s orderId order middle)
    (second : ∀ found, Frozen middle orderId found → Preserved middle orderId found after) :
    Preserved s orderId order after := by
  obtain ⟨status, frozen⟩ := first.frozen
  have later := second _ frozen
  exact ⟨first.file.trans later.file, later.required.trans first.required, later.frozen⟩

/-- No move touches a frozen order but to advance its status. -/
theorem Move.preserves (move : Move s label after) (numbered : Numbered s) (frozen : Frozen s orderId order) :
    Preserved s orderId order after := by
  obtain ⟨held, ended⟩ := frozen
  have later := move.block_le
  have moved := move.file_moves numbered orderId
  generalize history orderId label.toList = added at moved
  cases moved with
  | keeps same required _ kept =>
    obtain ⟨status, advance, stored⟩ := kept order held
    refine ⟨same, required, status, stored, ?_⟩
    rcases ended with unopened | overdue
    · left
      intro reopened
      dsimp only at reopened
      generalize order.status = before at advance unopened
      subst reopened
      cases advance with
      | stays => exact unopened rfl
    · exact .inr (Nat.le_trans overdue later)
  | opens _ missing =>
    rw [held] at missing
    cases missing
  | accepts found _ foundHeld opened early =>
    rw [held] at foundHeld
    cases foundHeld
    rcases ended with unopened | overdue
    · exact absurd opened unopened
    · omega

theorem Moves.preserves (moves : Moves s after) (numbered : Numbered s) (frozen : Frozen s orderId order) :
    Preserved s orderId order after := by
  induction moves with
  | refl => exact frozen.refl
  | tail moves move ih => exact ih.trans fun _ => move.preserves (Moves.order_silent moves numbered).1

theorem step_preserves (numbered : Numbered s) (step : Step T) (frozen : Frozen s orderId order) :
    Preserved s orderId order ((machine T).next s step) := by
  rcases step_moves s step with ⟨_, moves⟩ | ⟨_, _, move⟩
  · exact Moves.preserves moves numbered frozen
  · exact move.preserves numbered frozen

theorem run_numbered {s₀ : State T} (fresh : NoOrders s₀) {steps : List (Step T)}
    (few : FewOrders ((machine T).run s₀ steps)) : Numbered ((machine T).run s₀ steps) :=
  (run_books fresh steps few).numbered

/-- A frozen order stays as it is for the rest of the run. -/
theorem run_preserves {s₀ : State T} (fresh : NoOrders s₀) {earlier : List (Step T)} (later : List (Step T))
    (few : FewOrders ((machine T).run s₀ (earlier ++ later)))
    (frozen : Frozen ((machine T).run s₀ earlier) orderId order) :
    Preserved ((machine T).run s₀ earlier) orderId order ((machine T).run s₀ (earlier ++ later)) := by
  induction later using List.reverseRecOn with
  | nil =>
    rw [List.append_nil]
    exact frozen.refl
  | append_singleton later step ih =>
    rw [← List.append_assoc] at few ⊢
    have before := fewOrders_earlier few
    rw [Machine.run_concat]
    exact (ih before).trans fun _ => step_preserves (run_numbered fresh before) step

/-- The payouts of a preserved order are the same. -/
theorem Preserved.payouts (kept : Preserved s orderId order after) (status : OrderStatus) :
    computePayouts after orderId { order with status } = computePayouts s orderId order :=
  computePayouts_congr kept.file.front kept.file.top rfl rfl

section Steps

/-- A silent move leaves every file alone. -/
private theorem Move.silent_file (move : Move s none after) (numbered : Numbered s) (orderId : Nat) :
    SameFile s after orderId := by
  have moved := move.file_moves numbered orderId
  have silent : history orderId (Option.toList (none : Option (Label T))) = [] := rfl
  rw [silent] at moved
  cases moved with
  | keeps same => exact same
  | opens same => exact same

private theorem Moves.silent_file (moves : Moves s after) (numbered : Numbered s) (orderId : Nat) :
    SameFile s after orderId := by
  induction moves with
  | refl => exact ⟨rfl, fun _ => rfl, rfl, rfl⟩
  | tail moves move ih => exact ih.trans (move.silent_file (Moves.order_silent moves numbered).1 orderId)

/-- A step leaves the file of an order alone or is one accepted submission to it. -/
theorem step_file (numbered : Numbered s) (step : Step T) (orderId : Nat) :
    SameFile s ((machine T).next s step) orderId ∨
      ∃ entry, FileMove s orderId ((machine T).next s step) [entry] := by
  rcases step_moves s step with ⟨_, moves⟩ | ⟨label, _, move⟩
  · exact .inl (Moves.silent_file moves numbered orderId)
  · have moved := move.file_moves numbered orderId
    generalize history orderId label.toList = added at moved
    cases added with
    | nil =>
      left
      cases moved with
      | keeps same => exact same
      | opens same => exact same
    | cons entry rest =>
      right
      obtain rfl : rest = [] := by
        cases moved
        rfl
      exact ⟨entry, moved⟩

end Steps

end QuipValidator.Mempool
