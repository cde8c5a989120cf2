import QuipValidator.SolutionTruth
import QuipValidator.SettlementAgreement

/-! Payee metadata is kept beside the solutions. It follows the accepted
submissions exactly, so a winner is paid out under the payee its last accepted
submission named, on the chain the order asked for. -/
namespace QuipValidator.Mempool
open Fallible

variable {T : Config} {s after : State T}

/-- A step keeps the payee requirement of every order it finds. -/
theorem step_requirement (numbered : Numbered s) (step : Step T) {orderId : Nat} {order : JobOrder T}
    (held : s.jobOrders.lookup orderId = some order) :
    ((machine T).next s step).orderPayeeRequirements.lookup orderId = s.orderPayeeRequirements.lookup orderId ∧
      ∃ updated, ((machine T).next s step).jobOrders.lookup orderId = some updated := by
  have move_keeps : ∀ {before next : State T} {label : Option (Label T)}, Move before label next → Numbered before →
      ∀ found, before.jobOrders.lookup orderId = some found →
      next.orderPayeeRequirements.lookup orderId = before.orderPayeeRequirements.lookup orderId ∧
        ∃ updated, next.jobOrders.lookup orderId = some updated := by
    intro before next label move counted found foundHeld
    have moved := move.file_moves counted orderId
    generalize history orderId label.toList = added at moved
    cases moved with
    | keeps _ required _ kept =>
      obtain ⟨status, _, stored⟩ := kept found foundHeld
      exact ⟨required, _, stored⟩
    | opens _ missing =>
      rw [foundHeld] at missing
      cases missing
    | accepts _ _ _ _ _ _ required _ _ updated => exact ⟨required, _, updated⟩
  rcases step_moves s step with ⟨_, moves⟩ | ⟨_, _, move⟩
  · generalize (machine T).next s step = final at moves ⊢
    induction moves with
    | refl => exact ⟨rfl, order, held⟩
    | tail moves move ih =>
      obtain ⟨required, updated, stored⟩ := ih
      obtain ⟨again, last⟩ := move_keeps move (Moves.order_silent moves numbered).1 updated stored
      exact ⟨again.trans required, last⟩
  · exact move_keeps move numbered order held

theorem run_requirement {s₀ : State T} (fresh : NoOrders s₀) {earlier : List (Step T)} (later : List (Step T))
    (few : FewOrders ((machine T).run s₀ (earlier ++ later))) {orderId : Nat} {order : JobOrder T}
    (held : ((machine T).run s₀ earlier).jobOrders.lookup orderId = some order) :
    ((machine T).run s₀ (earlier ++ later)).orderPayeeRequirements.lookup orderId =
        ((machine T).run s₀ earlier).orderPayeeRequirements.lookup orderId ∧
      ∃ updated, ((machine T).run s₀ (earlier ++ later)).jobOrders.lookup orderId = some updated := by
  induction later using List.reverseRecOn with
  | nil =>
    rw [List.append_nil]
    exact ⟨rfl, order, held⟩
  | append_singleton later step ih =>
    rw [← List.append_assoc] at few ⊢
    have before := fewOrders_earlier few
    obtain ⟨required, updated, stored⟩ := ih before
    rw [Machine.run_concat]
    obtain ⟨again, last⟩ := step_requirement (run_numbered fresh before) step stored
    exact ⟨again.trans required, last⟩

/-- The payee stored for a solver is the one its last accepted submission named. -/
theorem Books.payee {seen : List (Label T)} (books : Books seen s) (orderId : Nat) (solver : T.AccountId) :
    s.orderPayees.get orderId solver = (lastBy solver (history orderId seen)).bind Accepted.payee ∧
      s.orderSolutions.get orderId solver = (lastBy solver (history orderId seen)).map Accepted.record := by
  cases held : s.jobOrders.lookup orderId with
  | none =>
    obtain ⟨empty, blank⟩ := books.blank orderId held
    rw [empty]
    exact ⟨blank.payees solver, blank.solutions solver⟩
  | some order =>
    have book := books.kept orderId order held
    exact ⟨book.payees solver, book.solutions solver⟩

/-- Where a chain is required, whoever has submitted has a payee on it. -/
theorem Book.payee_on_chain {orderId chainId : Nat} {order : JobOrder T} {entries : List (Accepted T)}
    (book : Book s orderId order entries) (required : s.orderPayeeRequirements.lookup orderId = some chainId)
    {entry : Accepted T} (member : entry ∈ entries) :
    ∃ payee, s.orderPayees.get orderId entry.solver = some payee ∧ payee.isValid ∧ payee.chainId = chainId := by
  obtain ⟨last, found, _⟩ := book.improving.last_least member
  obtain ⟨valid, chained⟩ := book.fits last (lastBy_mem found).1
  obtain ⟨payee, carried, onChain⟩ := chained chainId required
  refine ⟨payee, ?_, valid payee carried, onChain⟩
  rw [book.payees, found, Option.bind_some, carried]

/-- Payee binding. Over every run: a requirement stays as the proposing call
left it; the stored payee is the argument of the solver's last accepted
submission, stored only beside a solution, and fixed from the order's effective
expiry on; and where the order requires a chain, every solver with an accepted
solution and every winner has a valid payee on that chain. -/
theorem payees_follow_submissions {s₀ : State T} (fresh : NoOrders s₀) (steps : List (Step T))
    (few : FewOrders ((machine T).run s₀ steps)) :
    let s := (machine T).run s₀ steps
    let entries := fun orderId => history orderId (labels ((machine T).trace s₀ steps))
    (∀ earlier later, steps = earlier ++ later → ∀ orderId order,
      ((machine T).run s₀ earlier).jobOrders.lookup orderId = some order →
      s.orderPayeeRequirements.lookup orderId =
        ((machine T).run s₀ earlier).orderPayeeRequirements.lookup orderId) ∧
    (∀ orderId solver, s.orderPayees.get orderId solver = (lastBy solver (entries orderId)).bind Accepted.payee ∧
      ((s.orderPayees.get orderId solver).isSome → (s.orderSolutions.get orderId solver).isSome)) ∧
    (∀ earlier later, steps = earlier ++ later → ∀ orderId order,
      ((machine T).run s₀ earlier).jobOrders.lookup orderId = some order →
      order.expiry ≤ ((machine T).run s₀ earlier).blockNumber → ∀ solver,
      s.orderPayees.get orderId solver = ((machine T).run s₀ earlier).orderPayees.get orderId solver) ∧
    ∀ orderId chainId, s.orderPayeeRequirements.lookup orderId = some chainId →
      (∀ solver record, s.orderSolutions.get orderId solver = some record →
        ∃ payee, s.orderPayees.get orderId solver = some payee ∧ payee.isValid ∧ payee.chainId = chainId) ∧
      ∀ order payouts, s.jobOrders.lookup orderId = some order → computePayouts s orderId order = .ok payouts →
        ∀ winner ∈ payouts.map Prod.fst,
          ∃ payee, s.orderPayees.get orderId winner = some payee ∧ payee.isValid ∧ payee.chainId = chainId := by
  intro s entries
  have books := run_books fresh steps few
  refine ⟨?_, ?_, ?_, ?_⟩
  · intro earlier later split orderId order held
    subst split
    exact (run_requirement fresh later few held).1
  · intro orderId solver
    obtain ⟨payee, solution⟩ := books.payee orderId solver
    refine ⟨payee, ?_⟩
    rw [payee, solution]
    cases lastBy solver (history orderId (labels ((machine T).trace s₀ steps))) with
    | none => exact id
    | some last => exact fun _ => rfl
  · intro earlier later split orderId order held overdue solver
    subst split
    exact (run_preserves fresh later few ⟨held, .inr overdue⟩).file.payees solver
  · intro orderId chainId required
    refine ⟨?_, ?_⟩
    · intro solver record stored
      obtain ⟨order, held, _⟩ := books.truthful stored
      have book := books.kept orderId order held
      rw [book.solutions] at stored
      obtain ⟨last, found, _⟩ := Option.map_eq_some_iff.mp stored
      obtain ⟨member, rfl⟩ := lastBy_mem found
      exact book.payee_on_chain required member
    · intro order payouts held computed winner paid
      have book := books.kept orderId order held
      obtain ⟨entry, member, rfl⟩ := book.winner_accepted computed paid
      exact book.payee_on_chain required member

theorem payees_follow_submissions_tinyRun :
    ∃ payee, ((machine tinyConfig).run tinyGenesis tinyRun).orderPayees.get 0 (1 : Nat) = some payee ∧
      payee.isValid ∧ payee.chainId = 1 := by
  have required : ((machine tinyConfig).run tinyGenesis tinyRun).orderPayeeRequirements.lookup 0 = some 1 := by
    decide +kernel
  have solved : (((machine tinyConfig).run tinyGenesis tinyRun).orderSolutions.get 0 (1 : Nat)).isSome = true := by
    decide +kernel
  obtain ⟨record, stored⟩ := Option.isSome_iff_exists.mp solved
  exact ((payees_follow_submissions tinyGenesis_noOrders tinyRun tinyRun_fewOrders).2.2.2 0 1 required).1 (1 : Nat)
    record stored

end QuipValidator.Mempool
