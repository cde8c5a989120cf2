import QuipValidator.MempoolMoves

/-! The three views of the orders agree: `JobOrders`, the open-order index and
the proposers' slots, together with the id counter. -/
namespace QuipValidator.Mempool
open Fallible

variable {T : Config} {s after : State T} {label : Option (Label T)}

/-- Ids are given out in sequence and never reused. -/
structure Numbered (s : State T) : Prop where
  counted : s.jobOrders.size = s.nextOrderId
  given : ∀ orderId, (s.jobOrders.lookup orderId).isSome ↔ orderId < s.nextOrderId

/-- The terms of an order are the ones it was proposed with. -/
def SameTerms (before after : JobOrder T) : Prop :=
  after.specId = before.specId ∧ after.proposer = before.proposer ∧ after.isingParams = before.isingParams ∧
    after.reward = before.reward ∧ after.mode = before.mode ∧ after.resolution = before.resolution ∧
    after.timing = before.timing ∧ after.delivery = before.delivery ∧ after.createdAt = before.createdAt

/-- The status of an order, if it exists. -/
def State.statusOf (s : State T) (orderId : Nat) : Option OrderStatus :=
  (s.jobOrders.lookup orderId).map JobOrder.status

/-- The lifecycle: proposed, then expired, then closed. -/
inductive StatusMove : Option OrderStatus → Option OrderStatus → Prop
  | stays (status : Option OrderStatus) : StatusMove status status
  | opens : StatusMove none (some .opened)
  | expires : StatusMove (some .opened) (some .expired)
  | closes : StatusMove (some .expired) (some .closed)

theorem Numbered.fresh (numbered : Numbered s) : s.jobOrders.lookup s.nextOrderId = none := by
  apply Option.not_isSome_iff_eq_none.mp
  rw [numbered.given]
  exact Nat.lt_irrefl _

/-- While ids last, the next counter value is the successor. -/
theorem Numbered.nextOrderId_succ {order : JobOrder T} (numbered : Numbered s)
    (few : StorageMap.size (s.jobOrders.insert s.nextOrderId order) < 2 ^ 64) :
    saturatingAdd u64Max s.nextOrderId 1 = s.nextOrderId + 1 := by
  rw [StorageMap.size_insert_new numbered.fresh, numbered.counted] at few
  exact saturatingAdd_of_le (by simp only [u64Max]; omega)

private theorem numbered_rewrite {orderId : Nat} {order updated : JobOrder T} (numbered : Numbered s)
    (held : s.jobOrders.lookup orderId = some order) {next : State T}
    (written : next.jobOrders = s.jobOrders.insert orderId updated) (same : next.nextOrderId = s.nextOrderId) :
    Numbered next := by
  constructor
  · rw [written, StorageMap.size_insert_held held, same, numbered.counted]
  · intro probe
    rw [written, same, StorageMap.lookup_insert_ite, ← numbered.given probe]
    split
    · rename_i here
      subst here
      simp [held]
    · rfl

theorem Move.numbered (move : Move s label after) (few : FewOrders after) (numbered : Numbered s) :
    Numbered after := by
  cases move with
  | opens =>
    have succ := numbered.nextOrderId_succ few
    constructor
    · exact (StorageMap.size_insert_new numbered.fresh _).trans (by rw [numbered.counted]; exact succ.symm)
    · intro probe
      dsimp only
      rw [StorageMap.lookup_insert_ite, succ]
      split
      · rename_i here
        simp [here]
      · rename_i elsewhere
        rw [numbered.given probe]
        omega
  | accepts held => exact numbered_rewrite numbered held rfl rfl
  | closes held => exact numbered_rewrite numbered held rfl rfl
  | expires _ held => exact numbered_rewrite numbered held rfl rfl
  | idles | purges | rebalances | ticks | drops | advances => exact ⟨numbered.counted, numbered.given⟩

/-- What a move at block `now` can do to an existing order. -/
inductive OrderMove (now : Nat) (order : JobOrder T) : JobOrder T → Prop
  | stays : OrderMove now order order
  | accepts (opened : order.status = .opened) (early : now < order.expiry) (isNewSolver : Bool) :
      OrderMove now order (order.accepting now isNewSolver)
  | expires (opened : order.status = .opened) : OrderMove now order { order with status := .expired }
  | closes (expired : order.status = .expired) : OrderMove now order { order with status := .closed }

/-- What an unlabelled move can do to it. -/
def SilentMove (order updated : JobOrder T) : Prop :=
  updated = order ∨ order.status = .opened ∧ updated = { order with status := .expired }

/-- A lookup after one order was rewritten. -/
private theorem lookup_rewritten {orderId probe : Nat} {order updated found : JobOrder T}
    (held : s.jobOrders.lookup orderId = some order) (seen : s.jobOrders.lookup probe = some found) :
    ((s.jobOrders.insert orderId updated).lookup probe = some found) ∨
      (found = order ∧ (s.jobOrders.insert orderId updated).lookup probe = some updated) := by
  rw [StorageMap.lookup_insert_ite]
  by_cases here : probe = orderId
  · subst here
    rw [held] at seen
    cases seen
    exact .inr ⟨rfl, by simp⟩
  · exact .inl (by simp [here, seen])

/-- An order keeps its id, and each move changes it in one of the listed ways. -/
theorem Move.order_moves (move : Move s label after) (numbered : Numbered s) {orderId : Nat}
    {order : JobOrder T} (held : s.jobOrders.lookup orderId = some order) :
    ∃ updated, after.jobOrders.lookup orderId = some updated ∧ OrderMove s.blockNumber order updated ∧
      (label = none → SilentMove order updated) := by
  cases move with
  | opens =>
    refine ⟨order, ?_, .stays, fun silent => nomatch silent⟩
    have other : orderId ≠ s.nextOrderId := by
      rintro rfl
      rw [numbered.fresh] at held
      cases held
    rw [StorageMap.lookup_insert_ite, if_neg other, held]
  | accepts found opened early =>
    rcases lookup_rewritten found held with same | ⟨rfl, written⟩
    · exact ⟨order, same, .stays, fun _ => .inl rfl⟩
    · refine ⟨_, written, .accepts opened early _, ?_⟩
      exact fun silent => nomatch silent
  | closes found expired =>
    rcases lookup_rewritten found held with same | ⟨rfl, written⟩
    · exact ⟨order, same, .stays, fun _ => .inl rfl⟩
    · refine ⟨_, written, .closes expired, ?_⟩
      exact fun silent => nomatch silent
  | expires _ found opened =>
    rcases lookup_rewritten found held with same | ⟨rfl, written⟩
    · exact ⟨order, same, .stays, fun _ => .inl rfl⟩
    · exact ⟨_, written, .expires opened, fun _ => .inr ⟨opened, rfl⟩⟩
  | idles | purges | rebalances | ticks | drops | advances => exact ⟨order, held, .stays, fun _ => .inl rfl⟩

/-- The ids in a proposer's slots. -/
def State.slotsOf (s : State T) (proposer : T.AccountId) : List Nat :=
  ((s.proposerOrders.lookup proposer).getD default).val

/-- The order exists, belongs to `proposer` and has not settled. -/
def Unsettled (s : State T) (proposer : T.AccountId) (orderId : Nat) : Prop :=
  ∃ order, s.jobOrders.lookup orderId = some order ∧ order.proposer = proposer ∧ order.status ≠ .closed

/-- The three views agree. -/
structure OrderIndex (s : State T) : Prop where
  numbered : Numbered s
  openOrders : ∀ orderId, (s.openOrders.lookup orderId).isSome ↔
    ∃ order, s.jobOrders.lookup orderId = some order ∧ order.status = .opened
  slots : ∀ proposer orderId, orderId ∈ s.slotsOf proposer ↔ Unsettled s proposer orderId
  distinct : ∀ proposer, (s.slotsOf proposer).Nodup
  absent : ∀ proposer, s.proposerOrders.lookup proposer = none ↔ s.slotsOf proposer = []

theorem NoOrders.numbered (fresh : NoOrders s) : Numbered s := by
  constructor
  · rw [fresh.jobOrders, fresh.nextOrderId]
    rfl
  · intro orderId
    simp [fresh.jobOrders, fresh.nextOrderId]

theorem NoOrders.orderIndex (fresh : NoOrders s) : OrderIndex s := by
  refine ⟨fresh.numbered, ?_, ?_, ?_, ?_⟩
  · simp [fresh.openOrders, fresh.jobOrders]
  · simp [State.slotsOf, Unsettled, fresh.proposerOrders, fresh.jobOrders]
  · intro proposer
    simp [State.slotsOf, fresh.proposerOrders]
  · simp [State.slotsOf, fresh.proposerOrders]

/-- Releasing a slot filters the id out and deletes the key with the last one. -/
theorem releaseProposerSlot_slots (s : State T) (proposer probe : T.AccountId) (orderId : Nat) :
    (releaseProposerSlot s proposer orderId).slotsOf probe =
        (if probe = proposer then (s.slotsOf proposer).filter fun id => decide (id ≠ orderId)
          else s.slotsOf probe) ∧
      ((s.proposerOrders.lookup probe = none ↔ s.slotsOf probe = []) →
        ((releaseProposerSlot s proposer orderId).proposerOrders.lookup probe = none ↔
          (releaseProposerSlot s proposer orderId).slotsOf probe = [])) := by
  by_cases same : probe = proposer
  · subst same
    cases found : s.proposerOrders.lookup probe with
    | none => simp [releaseProposerSlot, State.slotsOf, found]
    | some ids =>
      simp only [releaseProposerSlot, State.slotsOf, found]
      split
      · rename_i empty
        simpa [BoundedVec.retain] using empty
      · rename_i occupied
        simp_all [BoundedVec.retain]
  · simp only [if_neg same]
    cases found : s.proposerOrders.lookup proposer with
    | none => simp [releaseProposerSlot, State.slotsOf, found]
    | some ids =>
      simp only [releaseProposerSlot, State.slotsOf, found]
      split
      · simp [AList.lookup_erase_ne same]
      · simp [AList.lookup_insert_ne same]

/-- Rewriting one order without closing it leaves the slots right. -/
private theorem unsettled_rewritten {orderId : Nat} {order updated : JobOrder T} {next : State T}
    (held : s.jobOrders.lookup orderId = some order) (written : next.jobOrders = s.jobOrders.insert orderId updated)
    (sameProposer : updated.proposer = order.proposer) (before : order.status ≠ .closed)
    (unclosed : updated.status ≠ .closed) (proposer : T.AccountId) (probe : Nat) :
    Unsettled next proposer probe ↔ Unsettled s proposer probe := by
  unfold Unsettled
  rw [written, StorageMap.lookup_insert_ite]
  by_cases here : probe = orderId
  · subst here
    simp [held, sameProposer, before, unclosed]
  · simp [here]

/-- Rewriting one order leaves `Opened` where it was everywhere else. -/
private theorem opened_rewritten {orderId : Nat} {updated : JobOrder T} {next : State T}
    (written : next.jobOrders = s.jobOrders.insert orderId updated) (probe : Nat) :
    (∃ order, next.jobOrders.lookup probe = some order ∧ order.status = .opened) ↔
      if probe = orderId then updated.status = .opened
      else ∃ order, s.jobOrders.lookup probe = some order ∧ order.status = .opened := by
  rw [written, StorageMap.lookup_insert_ite]
  by_cases here : probe = orderId
  · simp [here]
  · simp [here]

private theorem opens_index {proposer : T.AccountId} {proposal : Proposal T} {slots : ProposerOrders T} {next : State T}
    (index : OrderIndex s) (numbered : Numbered next)
    (orders : next.jobOrders = s.jobOrders.insert s.nextOrderId (proposal.order proposer s.blockNumber))
    (openOrders : next.openOrders = s.openOrders.insert s.nextOrderId ())
    (proposerOrders : next.proposerOrders = s.proposerOrders.insert proposer slots)
    (pushed : slots.val = s.slotsOf proposer ++ [s.nextOrderId]) : OrderIndex next := by
  have unseen : ∀ account, s.nextOrderId ∉ s.slotsOf account := by
    intro account member
    obtain ⟨order, held, _⟩ := (index.slots account _).mp member
    rw [index.numbered.fresh] at held
    cases held
  have slotsAfter : ∀ account, next.slotsOf account =
      if account = proposer then s.slotsOf proposer ++ [s.nextOrderId] else s.slotsOf account := by
    intro account
    rw [State.slotsOf, proposerOrders, StorageMap.lookup_insert_ite]
    by_cases same : account = proposer
    · simp [same, pushed]
    · simp [same, State.slotsOf]
  refine ⟨numbered, ?_, ?_, ?_, ?_⟩
  · intro probe
    rw [opened_rewritten orders, openOrders, StorageMap.lookup_insert_ite]
    split
    · simp [Proposal.order]
    · exact index.openOrders probe
  · intro account probe
    rw [slotsAfter]
    unfold Unsettled
    rw [orders, StorageMap.lookup_insert_ite]
    have earlier := index.slots account probe
    by_cases here : probe = s.nextOrderId
    · subst here
      by_cases same : account = proposer
      · simp [same, Proposal.order]
      · simp [same, unseen account, Proposal.order, Ne.symm same]
    · by_cases same : account = proposer
      · subst same
        simpa [here, Unsettled] using earlier
      · simpa [here, same, Unsettled] using earlier
  · intro account
    rw [slotsAfter]
    split
    · refine List.nodup_append.mpr ⟨index.distinct proposer, List.nodup_singleton _, ?_⟩
      intro old member new pushedId same
      rw [List.mem_singleton.mp pushedId] at same
      exact unseen proposer (same ▸ member)
    · exact index.distinct account
  · intro account
    rw [slotsAfter, proposerOrders, StorageMap.lookup_insert_ite]
    by_cases same : account = proposer
    · simp [same]
    · simpa [same] using index.absent account

private theorem closes_index {orderId : Nat} {order : JobOrder T} {next : State T} (index : OrderIndex s)
    (numbered : Numbered next) (held : s.jobOrders.lookup orderId = some order)
    (orders : next.jobOrders = s.jobOrders.insert orderId { order with status := .closed })
    (openOrders : next.openOrders = s.openOrders.erase orderId)
    (proposerOrders : next.proposerOrders = (releaseProposerSlot s order.proposer orderId).proposerOrders) :
    OrderIndex next := by
  have slotsAfter : ∀ account, next.slotsOf account = (releaseProposerSlot s order.proposer orderId).slotsOf account := by
    intro account
    rw [State.slotsOf, proposerOrders, State.slotsOf]
  have released := fun account => releaseProposerSlot_slots s order.proposer account orderId
  refine ⟨numbered, ?_, ?_, ?_, ?_⟩
  · intro probe
    rw [opened_rewritten orders, openOrders, StorageMap.lookup_erase_ite]
    split
    · simp
    · exact index.openOrders probe
  · intro account probe
    rw [slotsAfter, (released account).1]
    have earlier := index.slots account probe
    unfold Unsettled
    rw [orders, StorageMap.lookup_insert_ite]
    by_cases here : probe = orderId
    · -- The settled order leaves its proposer's slots and was in nobody else's.
      subst here
      by_cases same : account = order.proposer
      · simp [same]
      · simpa [same, Ne.symm same, Unsettled, held] using earlier
    · by_cases same : account = order.proposer
      · subst same
        simpa [here, Unsettled] using earlier
      · simpa [here, same, Unsettled] using earlier
  · intro account
    rw [slotsAfter, (released account).1]
    split
    · exact (index.distinct _).filter _
    · exact index.distinct account
  · intro account
    rw [slotsAfter, proposerOrders]
    exact (released account).2 (index.absent account)

/-- Rewriting an open order without closing it. -/
private theorem updates_index {orderId : Nat} {order updated : JobOrder T} {next : State T} (index : OrderIndex s)
    (numbered : Numbered next) (held : s.jobOrders.lookup orderId = some order) (opened : order.status = .opened)
    (orders : next.jobOrders = s.jobOrders.insert orderId updated) (sameProposer : updated.proposer = order.proposer)
    (unclosed : updated.status ≠ .closed)
    (openOrders : ∀ probe, (next.openOrders.lookup probe).isSome ↔
      if probe = orderId then updated.status = .opened else (s.openOrders.lookup probe).isSome)
    (proposerOrders : next.proposerOrders = s.proposerOrders) : OrderIndex next := by
  have sameSlots : ∀ account, next.slotsOf account = s.slotsOf account := by
    intro account
    rw [State.slotsOf, proposerOrders, State.slotsOf]
  refine ⟨numbered, ?_, ?_, ?_, ?_⟩
  · intro probe
    rw [opened_rewritten orders, openOrders]
    split
    · exact Iff.rfl
    · exact index.openOrders probe
  · intro account probe
    rw [sameSlots, unsettled_rewritten held orders sameProposer (by simp [opened]) unclosed]
    exact index.slots account probe
  · intro account
    rw [sameSlots]
    exact index.distinct account
  · intro account
    rw [sameSlots, proposerOrders]
    exact index.absent account

theorem Move.orderIndex (move : Move s label after) (few : FewOrders after) (index : OrderIndex s) :
    OrderIndex after := by
  have numbered := move.numbered few index.numbered
  cases move with
  | opens _ pushed => exact opens_index index numbered rfl rfl rfl pushed
  | closes held => exact closes_index index numbered held rfl rfl rfl
  | @accepts orderId order _ _ _ _ _ _ held opened =>
    have listed := (index.openOrders orderId).mpr ⟨order, held, opened⟩
    refine updates_index index numbered held opened rfl rfl (by simp [JobOrder.accepting, opened]) ?_ rfl
    intro probe
    by_cases here : probe = orderId
    · rw [if_pos here]
      subst here
      exact ⟨fun _ => opened, fun _ => listed⟩
    · rw [if_neg here]
  | expires _ held opened =>
    refine updates_index index numbered held opened rfl rfl (by simp) ?_ rfl
    intro probe
    dsimp only
    rw [StorageMap.lookup_erase_ite]
    split
    · simp
    · exact Iff.rfl
  | idles | purges | rebalances | ticks | drops | advances =>
    exact ⟨numbered, index.openOrders, index.slots, index.distinct, index.absent⟩

/-- No move creates an order except a proposal, which opens it. -/
theorem Move.absent_order (move : Move s label after) {orderId : Nat} (missing : s.jobOrders.lookup orderId = none) :
    after.jobOrders.lookup orderId = none ∨
      label = some (.opened orderId) ∧ after.statusOf orderId = some .opened := by
  have elsewhere : ∀ {other : Nat} {order updated : JobOrder T}, s.jobOrders.lookup other = some order →
      (s.jobOrders.insert other updated).lookup orderId = none := by
    intro other order updated held
    have different : orderId ≠ other := by
      rintro rfl
      rw [missing] at held
      cases held
    rw [StorageMap.lookup_insert_ite, if_neg different, missing]
  cases move with
  | opens =>
    by_cases here : orderId = s.nextOrderId
    · right
      subst here
      exact ⟨rfl, by simp [State.statusOf, Proposal.order]⟩
    · left
      rw [StorageMap.lookup_insert_ite, if_neg here, missing]
  | accepts held => exact .inl (elsewhere held)
  | closes held => exact .inl (elsewhere held)
  | expires _ held => exact .inl (elsewhere held)
  | idles | purges | rebalances | ticks | drops | advances => exact .inl missing

theorem Move.status_moves (move : Move s label after) (numbered : Numbered s) (orderId : Nat) :
    StatusMove (s.statusOf orderId) (after.statusOf orderId) := by
  cases held : s.jobOrders.lookup orderId with
  | none =>
    rcases move.absent_order held with missing | ⟨_, opened⟩
    · rw [State.statusOf, State.statusOf, held, missing]
      exact .stays none
    · rw [opened, State.statusOf, held]
      exact .opens
  | some order =>
    obtain ⟨updated, found, change, _⟩ := move.order_moves numbered held
    rw [State.statusOf, State.statusOf, held, found, Option.map_some, Option.map_some]
    cases change with
    | stays => exact .stays _
    | accepts => exact .stays _
    | expires opened => exact opened ▸ .expires
    | closes expired => exact expired ▸ .closes

/-- In a block's hook an order stays as it is or expires. -/
theorem Moves.order_silent {s after : State T} (moves : Moves s after) (numbered : Numbered s) :
    Numbered after ∧ ∀ orderId,
      (s.jobOrders.lookup orderId = none → after.jobOrders.lookup orderId = none) ∧
      ∀ order, s.jobOrders.lookup orderId = some order →
        ∃ updated, after.jobOrders.lookup orderId = some updated ∧ SilentMove order updated := by
  induction moves with
  | refl => exact ⟨numbered, fun orderId => ⟨id, fun order held => ⟨order, held, .inl rfl⟩⟩⟩
  | @tail middle last _ move ih =>
    obtain ⟨middleNumbered, reached⟩ := ih
    have lastNumbered : Numbered last := by
      cases move with
      | expires _ held => exact numbered_rewrite middleNumbered held rfl rfl
      | idles | purges | rebalances | ticks | drops | advances =>
        exact ⟨middleNumbered.counted, middleNumbered.given⟩
    refine ⟨lastNumbered, fun orderId => ⟨fun missing => ?_, fun order held => ?_⟩⟩
    · rcases move.absent_order ((reached orderId).1 missing) with gone | ⟨labelled, _⟩
      · exact gone
      · cases labelled
    · obtain ⟨between, found, first⟩ := (reached orderId).2 order held
      obtain ⟨updated, written, _, silent⟩ := move.order_moves middleNumbered found
      refine ⟨updated, written, ?_⟩
      rcases first with rfl | ⟨opened, rfl⟩
      · exact silent rfl
      · rcases silent rfl with rfl | ⟨impossible, _⟩
        · exact .inr ⟨opened, rfl⟩
        · cases impossible

/-- One step of the machine moves every order's status by at most one stage. -/
theorem step_status (numbered : Numbered s) (step : Step T) (orderId : Nat) :
    StatusMove (s.statusOf orderId) (((machine T).next s step).statusOf orderId) := by
  rcases step_moves s step with ⟨_, moves⟩ | ⟨_, _, move⟩
  · obtain ⟨_, reached⟩ := moves.order_silent numbered
    cases held : s.jobOrders.lookup orderId with
    | none =>
      rw [State.statusOf, State.statusOf, held, (reached orderId).1 held]
      exact .stays none
    | some order =>
      obtain ⟨updated, found, silent⟩ := (reached orderId).2 order held
      rw [State.statusOf, State.statusOf, held, found, Option.map_some, Option.map_some]
      rcases silent with rfl | ⟨opened, rfl⟩
      · exact .stays _
      · exact opened ▸ .expires
  · exact move.status_moves numbered orderId

/-- Index agreement holds after every run. -/
theorem run_orderIndex {s₀ : State T} (fresh : NoOrders s₀) (steps : List (Step T))
    (few : FewOrders ((machine T).run s₀ steps)) : OrderIndex ((machine T).run s₀ steps) :=
  @run_by_moves T FewOrders (fun _ s => OrderIndex s) s₀ (fun _ _ _ move => move.fewOrders_before) fresh.orderIndex
    (fun _ _ _ _ move few index => move.orderIndex few index) steps few

/-- In every state reached from a chain without orders: the open-order index
lists exactly the open orders, a proposer's slots list exactly its unsettled
orders once each and vanish with the last one, the id counter is above every id,
and each step moves a status at most one stage along its lifecycle. -/
theorem order_views_agree {s₀ : State T} (fresh : NoOrders s₀) (steps : List (Step T))
    (few : FewOrders ((machine T).run s₀ steps)) :
    let s := (machine T).run s₀ steps
    (∀ orderId, (s.openOrders.lookup orderId).isSome ↔ s.statusOf orderId = some .opened) ∧
    (∀ proposer orderId, orderId ∈ s.slotsOf proposer ↔ Unsettled s proposer orderId) ∧
    (∀ proposer, (s.slotsOf proposer).Nodup) ∧
    (∀ proposer, s.proposerOrders.lookup proposer = none ↔ ∀ orderId, ¬ Unsettled s proposer orderId) ∧
    (∀ orderId, (s.jobOrders.lookup orderId).isSome → orderId < s.nextOrderId) ∧
    ∀ earlier step later, steps = earlier ++ step :: later → ∀ orderId,
      StatusMove (((machine T).run s₀ earlier).statusOf orderId)
        (((machine T).run s₀ (earlier ++ [step])).statusOf orderId) := by
  intro s
  have index : OrderIndex s := run_orderIndex fresh steps few
  refine ⟨?_, index.slots, index.distinct, ?_, fun orderId held => (index.numbered.given orderId).mp held, ?_⟩
  · intro orderId
    rw [index.openOrders, State.statusOf, Option.map_eq_some_iff]
  · intro proposer
    rw [index.absent, List.eq_nil_iff_forall_not_mem]
    exact forall_congr' fun orderId => not_congr (index.slots proposer orderId)
  · intro earlier step later split orderId
    have fewEarlier : FewOrders ((machine T).run s₀ earlier) := fewOrders_earlier (split ▸ few)
    rw [Machine.run_concat]
    exact step_status (run_orderIndex fresh earlier fewEarlier).numbered step orderId

theorem order_views_agree_tinyRun :
    ((machine tinyConfig).run tinyGenesis tinyRun).statusOf 0 = some .closed ∧
      (((machine tinyConfig).run tinyGenesis tinyRun).openOrders.lookup 0).isSome = false ∧
      ((machine tinyConfig).run tinyGenesis tinyRun).proposerOrders.lookup (0 : Nat) = none := by
  have closed : ((machine tinyConfig).run tinyGenesis tinyRun).statusOf 0 = some .closed := by decide +kernel
  obtain ⟨opened, _, _, absent, _, _⟩ := order_views_agree tinyGenesis_noOrders tinyRun tinyRun_fewOrders
  refine ⟨closed, ?_, ?_⟩
  · have unlisted := (opened 0).not.mpr (by rw [closed]; decide)
    simpa using unlisted
  · decide +kernel

end QuipValidator.Mempool
