import QuipValidator.FrozenOrders

/-! Whatever is stored for a solver is true: the vectors, their energies, the
best of them, their number and their diversity. A stored record only gives way
to a better one, and only before the order's effective expiry. -/
namespace QuipValidator.Mempool
open Fallible

variable {T : Config} {s after : State T}

/-- A stored record belongs to an existing order and tells the truth about it. -/
theorem Books.truthful {seen : List (Label T)} (books : Books seen s) {orderId : Nat} {solver : T.AccountId}
    {record : JobSolution T} (stored : s.orderSolutions.get orderId solver = some record) :
    ∃ order, s.jobOrders.lookup orderId = some order ∧ Truthful order.isingParams record := by
  cases held : s.jobOrders.lookup orderId with
  | none =>
    rw [(books.blank orderId held).2.solutions] at stored
    cases stored
  | some order =>
    have book := books.kept orderId order held
    rw [book.solutions] at stored
    obtain ⟨last, found, rfl⟩ := Option.map_eq_some_iff.mp stored
    exact ⟨order, rfl, book.truthful last (lastBy_mem found).1⟩

/-- A step keeps a stored record or replaces it by a strictly better one. -/
theorem step_solution_improves (numbered : Numbered s) (step : Step T) {orderId : Nat} {solver : T.AccountId}
    {old : JobSolution T} (stored : s.orderSolutions.get orderId solver = some old) :
    ∃ record, ((machine T).next s step).orderSolutions.get orderId solver = some record ∧
      (record = old ∨ record.bestEnergyMilli < old.bestEnergyMilli) := by
  rcases step_file numbered step orderId with same | ⟨entry, moved⟩
  · refine ⟨old, ?_, .inl rfl⟩
    unfold StorageDoubleMap.get
    rw [same.solutions]
    exact stored
  · cases moved with
    | accepts order _ _ _ _ _ _ scores _ _ written =>
      unfold StorageDoubleMap.get
      rw [written, StorageMap.lookup_insert_ite]
      by_cases same : solver = entry.solver
      · subst same
        rw [if_pos rfl]
        exact ⟨entry.record, rfl, .inr (scores.spec.2.2 old stored)⟩
      · rw [if_neg same]
        exact ⟨old, stored, .inl rfl⟩

/-- A successful submission reached an open order before its effective expiry,
and improved on what its solver had stored. -/
theorem accepted_early {env : Env T} {origin : Origin T} {call : Call T} {orderId : Nat} {payee : Option WinnerPayee}
    (submits : call.submission = some (orderId, payee)) (ran : execute s env origin call = .ok after) :
    ∃ solver record order, origin = .signed solver ∧ s.jobOrders.lookup orderId = some order ∧
      order.status = .opened ∧ s.blockNumber < order.expiry ∧
      after.orderSolutions.get orderId solver = some record ∧
      ∀ old, s.orderSolutions.get orderId solver = some old → record.bestEnergyMilli < old.bestEnergyMilli := by
  obtain ⟨solver, record, signed, _, move⟩ := submission_accepted submits ran
  cases move with
  | accepts held opened early _ scores =>
    refine ⟨solver, record, _, signed, held, opened, early, ?_, scores.spec.2.2⟩
    simp [StorageDoubleMap.get_insert]

/-- In every state reached from a chain without orders, every stored solution
is truthful about its order's problem. Along the run a stored record is kept or
strictly improved, every accepted submission came before the order's effective
expiry, and no submission to the state reached can panic, whatever the VM
returns. -/
theorem stored_solutions_truthful {s₀ : State T} (fresh : NoOrders s₀) (steps : List (Step T))
    (few : FewOrders ((machine T).run s₀ steps)) :
    let s := (machine T).run s₀ steps
    (∀ orderId solver record, s.orderSolutions.get orderId solver = some record →
      ∃ order, s.jobOrders.lookup orderId = some order ∧ Truthful order.isingParams record) ∧
    (∀ earlier step later, steps = earlier ++ step :: later → ∀ orderId solver old,
      ((machine T).run s₀ earlier).orderSolutions.get orderId solver = some old →
      ∃ record, ((machine T).run s₀ (earlier ++ [step])).orderSolutions.get orderId solver = some record ∧
        (record = old ∨ record.bestEnergyMilli < old.bestEnergyMilli)) ∧
    (∀ executed ∈ (machine T).trace s₀ steps, ∀ orderId payee,
      executed.call.submission = some (orderId, payee) → ∃ solver record order, executed.origin = .signed solver ∧
        executed.before.jobOrders.lookup orderId = some order ∧ order.status = .opened ∧
        executed.before.blockNumber < order.expiry ∧
        executed.after.orderSolutions.get orderId solver = some record ∧
        ∀ old, executed.before.orderSolutions.get orderId solver = some old →
          record.bestEnergyMilli < old.bestEnergyMilli) ∧
    ∀ env solver orderId solutions payee message,
      (submitSolutionInner s env solver orderId solutions payee).2 ≠ .error (.panic message) := by
  refine ⟨?_, ?_, ?_, ?_⟩
  · exact fun orderId solver record stored => (run_books fresh steps few).truthful stored
  · intro earlier step later split orderId solver old stored
    subst split
    rw [Machine.run_concat]
    exact step_solution_improves (run_numbered fresh (fewOrders_earlier few)) step stored
  · intro executed member orderId payee submits
    obtain ⟨_, env, _, _, _, ran⟩ := trace_executed member
    exact accepted_early submits ran
  · exact fun env solver orderId solutions payee => (submitSolutionInner_safe _ _ _ _ _ _).no_panic

theorem stored_solutions_truthful_tinyRun :
    ∃ record order, ((machine tinyConfig).run tinyGenesis tinyRun).orderSolutions.get 0 (1 : Nat) = some record ∧
      ((machine tinyConfig).run tinyGenesis tinyRun).jobOrders.lookup 0 = some order ∧
      record.bestEnergyMilli = -1 ∧ record.solutions.val.length = 1 ∧ Truthful order.isingParams record := by
  have shown : (((machine tinyConfig).run tinyGenesis tinyRun).orderSolutions.get 0 (1 : Nat)).map
      (fun record => (record.bestEnergyMilli, record.solutions.val.length)) = some (-1, 1) := by decide +kernel
  obtain ⟨record, stored, values⟩ := Option.map_eq_some_iff.mp shown
  rw [Prod.mk.injEq] at values
  obtain ⟨order, held, truthful⟩ :=
    (stored_solutions_truthful tinyGenesis_noOrders tinyRun tinyRun_fewOrders).1 0 (1 : Nat) record stored
  exact ⟨record, order, stored, held, values.1, values.2, truthful⟩

end QuipValidator.Mempool
