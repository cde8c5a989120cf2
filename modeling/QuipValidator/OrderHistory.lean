import QuipValidator.OrderIndexProofs
import QuipValidator.SubmissionProofs

/-! The history of an order is the list of its accepted submissions. Everything
the pallet keeps about an order (solutions, payees, ranking, counter, window) is
a summary of that list, and `Book` says of which kind each one is. `FileMove` is
a move seen from one order; `Move.file_moves` derives it once for all invariants
about single orders. -/
namespace QuipValidator.Mempool
open Fallible IsingValidation StorageDoubleMap StableRanking

variable {T : Config} {s after : State T} {label : Option (Label T)}

/-- The submission's place in a ranking. -/
def Accepted.ranked (entry : Accepted T) : RankedSolver T := ⟨entry.solver, entry.record.bestEnergyMilli⟩

/-- The energy the submission reached. -/
def Accepted.energy (entry : Accepted T) : Int := entry.record.bestEnergyMilli

/-- The submission a label reports for this order. -/
def Label.submission (orderId : Nat) : Label T → Option (Accepted T)
  | .accepted target entry => if target = orderId then some entry else none
  | .opened _ | .settled _ _ => none

/-- The accepted submissions to an order, oldest first. -/
def history (orderId : Nat) (seen : List (Label T)) : List (Accepted T) := seen.filterMap (Label.submission orderId)

theorem history_append (orderId : Nat) (seen more : List (Label T)) :
    history orderId (seen ++ more) = history orderId seen ++ history orderId more := List.filterMap_append

/-- The last submission of a solver. -/
def lastBy (solver : T.AccountId) (entries : List (Accepted T)) : Option (Accepted T) :=
  (entries.filter fun entry => decide (entry.solver = solver)).getLast?

@[simp] theorem lastBy_nil (solver : T.AccountId) : lastBy solver [] = none := rfl

theorem lastBy_concat (solver : T.AccountId) (entries : List (Accepted T)) (entry : Accepted T) :
    lastBy solver (entries ++ [entry]) = if entry.solver = solver then some entry else lastBy solver entries := by
  by_cases same : entry.solver = solver
  · simp [lastBy, same]
  · simp [lastBy, same]

theorem lastBy_mem {solver : T.AccountId} {entries : List (Accepted T)} {last : Accepted T}
    (found : lastBy solver entries = some last) : last ∈ entries ∧ last.solver = solver := by
  have member := List.mem_of_getLast? found
  simpa using List.mem_filter.mp member

/-- Each submission of a solver is better than its earlier ones. -/
def Improving (entries : List (Accepted T)) : Prop :=
  entries.Pairwise fun earlier later => earlier.solver = later.solver → later.energy < earlier.energy

/-- The last submission of a solver is its best one. -/
theorem Improving.last_least {entries : List (Accepted T)} (improving : Improving entries) {old : Accepted T}
    (member : old ∈ entries) : ∃ last, lastBy old.solver entries = some last ∧ last.energy ≤ old.energy := by
  induction entries using List.reverseRecOn with
  | nil => cases member
  | append_singleton entries entry ih =>
    obtain ⟨before, _, against⟩ := List.pairwise_append.mp improving
    rw [lastBy_concat]
    by_cases same : entry.solver = old.solver
    · rw [if_pos same]
      refine ⟨entry, rfl, ?_⟩
      rcases List.mem_append.mp member with early | new
      · exact (against old early entry List.mem_cons_self same.symm).le
      · rw [List.mem_singleton.mp new]
    · rw [if_neg same]
      refine ih before ?_
      rcases List.mem_append.mp member with early | new
      · exact early
      · rw [List.mem_singleton.mp new] at same
        exact absurd rfl same

/-- What the pallet keeps for an order outside the order record. -/
structure SameFile (s after : State T) (orderId : Nat) : Prop where
  solutions : after.orderSolutions orderId = s.orderSolutions orderId
  payees : ∀ account, after.orderPayees.get orderId account = s.orderPayees.get orderId account
  front : after.orderFrontRunner.lookup orderId = s.orderFrontRunner.lookup orderId
  top : after.topSolvers orderId = s.topSolvers orderId

/-- A move seen from one order, with the submissions to it that were accepted. -/
inductive FileMove (s : State T) (orderId : Nat) (after : State T) : List (Accepted T) → Prop
  | keeps (same : SameFile s after orderId)
      (required : after.orderPayeeRequirements.lookup orderId = s.orderPayeeRequirements.lookup orderId)
      (missing : s.jobOrders.lookup orderId = none → after.jobOrders.lookup orderId = none)
      (held : ∀ order, s.jobOrders.lookup orderId = some order → ∃ status,
        StatusMove (some order.status) (some status) ∧
        after.jobOrders.lookup orderId = some { order with status }) : FileMove s orderId after []
  | opens (same : SameFile s after orderId) (missing : s.jobOrders.lookup orderId = none)
      (proposal : Proposal T) (proposer : T.AccountId) (checked : checkProposal s proposal = .ok ())
      (stored : after.jobOrders.lookup orderId = some (proposal.order proposer s.blockNumber)) :
      FileMove s orderId after []
  | accepts (order : JobOrder T) (entry : Accepted T) (held : s.jobOrders.lookup orderId = some order)
      (opened : order.status = .opened) (early : s.blockNumber < order.expiry)
      (fits : PayeeFits (s.orderPayeeRequirements.lookup orderId) entry.payee)
      (required : after.orderPayeeRequirements.lookup orderId = s.orderPayeeRequirements.lookup orderId)
      (scores : Scores s orderId order entry.solver entry.record)
      (ranked : Ranks s orderId order.resolution entry.solver entry.energy after.orderFrontRunner
        after.orderTopSolvers)
      (updated : after.jobOrders.lookup orderId = some (order.accepting s.blockNumber
        (s.orderSolutions.get orderId entry.solver).isNone))
      (stored : after.orderSolutions orderId = (s.orderSolutions orderId).insert entry.solver entry.record)
      (bound : ∀ account, after.orderPayees.get orderId account =
        if account = entry.solver then entry.payee else s.orderPayees.get orderId account) :
      FileMove s orderId after [entry]

private theorem Ranks.elsewhere {orderId probe : Nat} {resolution : RewardResolution} {solver : T.AccountId}
    {energy : Int} {fronts : StorageMap Nat (FrontRunner T)} {tops : StorageMap Nat (TopSolvers T)}
    (ranked : Ranks s orderId resolution solver energy fronts tops) (other : probe ≠ orderId) :
    fronts.lookup probe = s.orderFrontRunner.lookup probe ∧ tops.lookup probe = s.orderTopSolvers.lookup probe := by
  cases ranked with
  | leads => exact ⟨by rw [StorageMap.lookup_insert_ite, if_neg other], rfl⟩
  | trails => exact ⟨rfl, rfl⟩
  | ranks => exact ⟨rfl, by rw [StorageMap.lookup_insert_ite, if_neg other]⟩

/-- A rewritten order record, seen from an order whose file stays. -/
private theorem rewritten_file {target orderId : Nat} {order updated : JobOrder T} {next : State T}
    (same : SameFile s next orderId) (required : next.orderPayeeRequirements = s.orderPayeeRequirements)
    (held : s.jobOrders.lookup target = some order) (orders : next.jobOrders = s.jobOrders.insert target updated)
    (statusOnly : orderId = target → ∃ status, updated = { order with status } ∧
      StatusMove (some order.status) (some status)) : FileMove s orderId next [] := by
  refine .keeps same (by rw [required]) ?_ ?_
  all_goals rw [orders, StorageMap.lookup_insert_ite]
  all_goals by_cases here : orderId = target
  · subst here
    rw [held]
    exact fun impossible => nomatch impossible
  · rw [if_neg here]
    exact id
  · subst here
    obtain ⟨status, rfl, move⟩ := statusOnly rfl
    intro found foundHeld
    rw [held] at foundHeld
    cases foundHeld
    exact ⟨status, move, if_pos rfl⟩
  · rw [if_neg here]
    exact fun found foundHeld => ⟨found.status, .stays _, foundHeld⟩

/-- Every move is one of three things to a given order. -/
theorem Move.file_moves (move : Move s label after) (numbered : Numbered s) (orderId : Nat) :
    FileMove s orderId after (history orderId label.toList) := by
  cases move with
  | idles | purges | rebalances | ticks | drops | advances =>
    exact .keeps ⟨rfl, fun _ => rfl, rfl, rfl⟩ rfl id fun order held => ⟨order.status, .stays _, held⟩
  | @opens proposer proposal slots requirements free specs added checked pushed required quiet =>
    by_cases here : orderId = s.nextOrderId
    · subst here
      refine .opens ⟨rfl, fun _ => rfl, rfl, rfl⟩ numbered.fresh proposal proposer checked ?_
      exact AList.lookup_insert _
    · have orders := StorageMap.lookup_insert_ite s.jobOrders s.nextOrderId orderId
        (proposal.order proposer s.blockNumber)
      rw [if_neg here] at orders
      refine .keeps ⟨rfl, fun _ => rfl, rfl, rfl⟩ ?_ ?_ ?_
      · rcases required with same | ⟨chainId, same⟩
        · exact congrArg (AList.lookup orderId) same
        · refine (congrArg (AList.lookup orderId) same).trans ?_
          rw [StorageMap.lookup_insert_ite, if_neg here]
      · exact orders.trans
      · exact fun order held => ⟨order.status, .stays _, orders.trans held⟩
  | @accepts target order entry payees fronts tops solvers added held opened early fits scores ranked bound =>
    by_cases here : orderId = target
    · subst here
      have shown : history orderId (Option.toList (some (Label.accepted orderId entry))) = [entry] := by
        simp [history, Label.submission]
      rw [shown]
      refine .accepts order entry held opened early fits rfl scores ranked (AList.lookup_insert _) ?_ ?_
      · exact (insert_apply _ _ _ _ _).trans (if_pos rfl)
      · intro account
        refine (bound orderId account).trans ?_
        by_cases same : account = entry.solver <;> simp [same]
    · have shown : history orderId (Option.toList (some (Label.accepted target entry))) = [] := by
        simp [history, Label.submission, Ne.symm here]
      rw [shown]
      obtain ⟨front, top⟩ := ranked.elsewhere here
      refine rewritten_file ⟨?_, ?_, front, congrArg (Option.getD · default) top⟩ rfl held rfl fun same => absurd same here
      · exact (insert_apply _ _ _ _ _).trans (if_neg here)
      · intro account
        exact (bound orderId account).trans (if_neg fun both => here both.1)
  | @closes target order payments free specs solvers added held expired =>
    refine rewritten_file ⟨rfl, fun _ => rfl, rfl, rfl⟩ rfl held rfl fun _ => ⟨.closed, rfl, ?_⟩
    rw [expired]
    exact .closes
  | @expires target order results events logs due held opened =>
    refine rewritten_file ⟨rfl, fun _ => rfl, rfl, rfl⟩ rfl held rfl fun _ => ⟨.expired, rfl, ?_⟩
    rw [opened]
    exact .expires

/-- The front-runner slot of a single-best order. -/
def Leads (front : Option (FrontRunner T)) (entries : List (Accepted T)) : Prop :=
  front = none ∧ entries = [] ∨ ∃ best, front = some ⟨best.solver, best.energy⟩ ∧
    FirstLeast Accepted.energy entries best

/-- All solvers of a history with their last energies, best first. -/
def fullRanking (entries : List (Accepted T)) : List (RankedSolver T) :=
  ranking RankedSolver.solver RankedSolver.energyMilli (entries.map Accepted.ranked)

theorem solver_mem_fullRanking {entries : List (Accepted T)} {solver : T.AccountId} :
    solver ∈ (fullRanking entries).map RankedSolver.solver ↔ ∃ entry ∈ entries, entry.solver = solver := by
  rw [fullRanking, ranking, ((sortByKey_perm _ _).map _).mem_iff, owner_mem_latest, List.map_map, List.mem_map]
  rfl

/-- Storage summarises the accepted submissions of an order. -/
structure Book (s : State T) (orderId : Nat) (order : JobOrder T) (entries : List (Accepted T)) : Prop where
  solutions : ∀ solver, s.orderSolutions.get orderId solver = (lastBy solver entries).map Accepted.record
  payees : ∀ solver, s.orderPayees.get orderId solver = (lastBy solver entries).bind Accepted.payee
  improving : Improving entries
  truthful : ∀ entry ∈ entries, Truthful order.isingParams entry.record
  fits : ∀ entry ∈ entries, PayeeFits (s.orderPayeeRequirements.lookup orderId) entry.payee
  counted : order.solutionCount = min (s.orderSolutions orderId).size u32Max
  started : order.firstSolutionAt.isSome ↔ entries ≠ []
  leads : order.resolution.topN = none → Leads (s.orderFrontRunner.lookup orderId) entries
  lists : ∀ n, order.resolution.topN = some n → 0 < n ∧ n ≤ MAX_REWARD_WINNERS ∧
    (s.topSolvers orderId).val = (fullRanking entries).take n

/-- Storage of an order id that has not been given. -/
structure Blank (s : State T) (orderId : Nat) : Prop where
  solutions : ∀ solver, s.orderSolutions.get orderId solver = none
  payees : ∀ solver, s.orderPayees.get orderId solver = none
  front : s.orderFrontRunner.lookup orderId = none
  top : (s.topSolvers orderId).val = []

/-- The relation between what was accepted and what is stored. -/
structure Books (seen : List (Label T)) (s : State T) : Prop where
  numbered : Numbered s
  blank : ∀ orderId, s.jobOrders.lookup orderId = none → history orderId seen = [] ∧ Blank s orderId
  kept : ∀ orderId order, s.jobOrders.lookup orderId = some order → Book s orderId order (history orderId seen)

private theorem checkProposal_topN {proposal : Proposal T} (checked : checkProposal s proposal = .ok ()) {n : Nat}
    (several : proposal.resolution.topN = some n) : 0 < n ∧ n ≤ MAX_REWARD_WINNERS := by
  simp only [checkProposal, bind_success] at checked
  obtain ⟨_, _, _, _, _, _, _, _, _, _, _, _, _, _, _, _, _, _, resolved⟩ := checked
  cases shape : proposal.resolution with
  | singleBest =>
    rw [shape] at several
    cases several
  | topNWeighted count | topNEqual count =>
    rw [shape] at several resolved
    cases several
    simpa [ensureValidResolution] using resolved

/-- A file that stays keeps its book under any change of status. -/
private theorem Book.same_file {orderId : Nat} {order : JobOrder T} {entries : List (Accepted T)}
    (book : Book s orderId order entries) (same : SameFile s after orderId)
    (required : after.orderPayeeRequirements.lookup orderId = s.orderPayeeRequirements.lookup orderId)
    (status : OrderStatus) : Book after orderId { order with status } entries where
  solutions := by
    unfold StorageDoubleMap.get
    rw [same.solutions]
    exact book.solutions
  payees := by
    intro solver
    rw [same.payees, book.payees]
  improving := book.improving
  truthful := book.truthful
  fits := by
    rw [required]
    exact book.fits
  counted := by
    rw [same.solutions]
    exact book.counted
  started := book.started
  leads := by
    rw [same.front]
    exact book.leads
  lists := by
    rw [same.top]
    exact book.lists

private theorem Blank.same_file {orderId : Nat} (blank : Blank s orderId) (same : SameFile s after orderId) :
    Blank after orderId where
  solutions := by
    unfold StorageDoubleMap.get
    rw [same.solutions]
    exact blank.solutions
  payees := by
    intro solver
    rw [same.payees, blank.payees]
  front := by rw [same.front, blank.front]
  top := by rw [same.top, blank.top]

private theorem opened_book {orderId now : Nat} {proposal : Proposal T} {proposer : T.AccountId} (blank : Blank s orderId)
    (checked : ∀ n, proposal.resolution.topN = some n → 0 < n ∧ n ≤ MAX_REWARD_WINNERS) :
    Book s orderId (proposal.order proposer now) [] where
  solutions := blank.solutions
  payees := blank.payees
  improving := .nil
  truthful := by simp
  fits := by simp
  counted := by
    have empty : (s.orderSolutions orderId).size = 0 := (StorageMap.size_eq_zero_iff _).mpr blank.solutions
    rw [empty, Nat.zero_min]
    rfl
  started := by simp [Proposal.order]
  leads := fun _ => .inl ⟨blank.front, rfl⟩
  lists := by
    intro n several
    obtain ⟨positive, small⟩ := checked n several
    exact ⟨positive, small, by rw [blank.top]; simp [fullRanking, ranking, latest, sortByKey]⟩

section Acceptance
variable {orderId : Nat} {order : JobOrder T} {entries : List (Accepted T)} {entry : Accepted T}

/-- What scoring established about an accepted submission. -/
theorem Scores.spec {solver : T.AccountId} {record : JobSolution T} (scores : Scores s orderId order solver record) :
    Truthful order.isingParams record ∧ record.solver = solver ∧
      ∀ previous ∈ s.orderSolutions.get orderId solver, record.bestEnergyMilli < previous.bestEnergyMilli := by
  obtain ⟨topology, solverType, transformed, built, ran⟩ := scores
  exact (scoreSubmission_safe built _ _ _ _ _).result ran

/-- An accepted submission beats all earlier ones of its solver, because the
stored record it was compared with is the solver's best so far. -/
private theorem accepted_improves (book : Book s orderId order entries)
    (better : ∀ previous ∈ s.orderSolutions.get orderId entry.solver, entry.energy < previous.bestEnergyMilli) :
    ∀ old ∈ entries, old.solver = entry.solver → entry.energy < old.energy := by
  intro old member same
  obtain ⟨last, found, least⟩ := book.improving.last_least member
  have stored := book.solutions entry.solver
  rw [← same, found, same] at stored
  exact lt_of_lt_of_le (better last.record stored) least

private theorem accepted_leads (book : Book s orderId order entries) (single : order.resolution.topN = none)
    (ranked : Ranks s orderId order.resolution entry.solver entry.energy after.orderFrontRunner
      after.orderTopSolvers) : Leads (after.orderFrontRunner.lookup orderId) (entries ++ [entry]) := by
  generalize after.orderFrontRunner = fronts, after.orderTopSolvers = tops at ranked ⊢
  have held := book.leads single
  cases ranked with
  | leads _ better =>
    refine .inr ⟨entry, AList.lookup_insert _, firstLeast_improve _ ?_⟩
    rcases held with ⟨_, empty⟩ | ⟨best, front, first⟩
    · simp [empty]
    · exact fun other member => lt_of_lt_of_le (better _ front) (first.least _ other member)
  | trails _ front found behind =>
    rcases held with ⟨missing, _⟩ | ⟨best, stored, first⟩
    · rw [missing] at found
      cases found
    · rw [stored, Option.some.injEq] at found
      subst found
      exact .inr ⟨best, stored, first.keep _ behind⟩
  | ranks n several =>
    rw [single] at several
    cases several

private theorem accepted_lists (book : Book s orderId order entries) {n : Nat} (several : order.resolution.topN = some n)
    (improves : ∀ old ∈ entries, old.solver = entry.solver → entry.energy < old.energy)
    (ranked : Ranks s orderId order.resolution entry.solver entry.energy after.orderFrontRunner
      after.orderTopSolvers) : (after.topSolvers orderId).val = (fullRanking (entries ++ [entry])).take n := by
  unfold State.topSolvers
  generalize after.orderFrontRunner = fronts, after.orderTopSolvers = tops at ranked ⊢
  cases ranked with
  | leads single | trails single =>
    rw [single] at several
    cases several
  | ranks m same listed updated =>
    rw [several, Option.some.injEq] at same
    subst same
    rw [AList.lookup_insert, Option.getD_some, updated, (book.lists n several).2.2]
    refine (updateRankedSolvers_ranking n ?_).trans ?_
    · intro old member sameSolver
      obtain ⟨earlier, inEntries, rfl⟩ := List.mem_map.mp member
      exact improves earlier inEntries sameSolver
    · rw [fullRanking, List.map_append]
      rfl

/-- The window starts with the first accepted submission and stays. -/
private theorem accepted_count (book : Book s orderId order entries)
    (stored : after.orderSolutions orderId = (s.orderSolutions orderId).insert entry.solver entry.record) :
    (order.accepting s.blockNumber (s.orderSolutions.get orderId entry.solver).isNone).solutionCount =
      min (after.orderSolutions orderId).size u32Max := by
  rw [stored]
  cases found : s.orderSolutions.get orderId entry.solver with
  | none =>
    rw [StorageMap.size_insert_new found]
    simp only [JobOrder.accepting, Option.isNone_none, if_true, saturatingAdd, book.counted]
    omega
  | some previous =>
    rw [StorageMap.size_insert_held found]
    simpa [JobOrder.accepting] using book.counted

/-- An accepted submission extends the book by one entry. -/
private theorem accepted_book (book : Book s orderId order entries)
    (fits : PayeeFits (s.orderPayeeRequirements.lookup orderId) entry.payee)
    (required : after.orderPayeeRequirements.lookup orderId = s.orderPayeeRequirements.lookup orderId)
    (scores : Scores s orderId order entry.solver entry.record)
    (ranked : Ranks s orderId order.resolution entry.solver entry.energy after.orderFrontRunner after.orderTopSolvers)
    (stored : after.orderSolutions orderId = (s.orderSolutions orderId).insert entry.solver entry.record)
    (bound : ∀ account, after.orderPayees.get orderId account =
      if account = entry.solver then entry.payee else s.orderPayees.get orderId account) :
    Book after orderId (order.accepting s.blockNumber (s.orderSolutions.get orderId entry.solver).isNone)
      (entries ++ [entry]) := by
  obtain ⟨truthful, _, better⟩ := scores.spec
  have improves := accepted_improves book better
  have both : ∀ {holds : Accepted T → Prop}, (∀ old ∈ entries, holds old) → holds entry →
      ∀ one ∈ entries ++ [entry], holds one := by
    intro holds old new one member
    rcases List.mem_append.mp member with early | last
    · exact old one early
    · rw [List.mem_singleton.mp last]
      exact new
  refine ⟨?_, ?_, ?_, both book.truthful truthful, ?_, accepted_count book stored, ?_, ?_, ?_⟩
  · intro solver
    unfold StorageDoubleMap.get
    rw [stored, StorageMap.lookup_insert_ite, lastBy_concat]
    by_cases same : solver = entry.solver
    · rw [if_pos same, if_pos same.symm]
      rfl
    · rw [if_neg same, if_neg (Ne.symm same)]
      exact book.solutions solver
  · intro solver
    rw [bound, lastBy_concat]
    by_cases same : solver = entry.solver
    · rw [if_pos same, if_pos same.symm]
      rfl
    · rw [if_neg same, if_neg (Ne.symm same)]
      exact book.payees solver
  · refine List.pairwise_append.mpr ⟨book.improving, List.pairwise_singleton _ _, ?_⟩
    intro old member new last same
    rw [List.mem_singleton.mp last] at same ⊢
    exact improves old member same
  · rw [required]
    exact both book.fits fits
  · simp [JobOrder.accepting]
  · exact fun single => accepted_leads book single ranked
  · intro n several
    obtain ⟨positive, small, _⟩ := book.lists n several
    exact ⟨positive, small, accepted_lists book several improves ranked⟩

end Acceptance

/-- Every move keeps the books. -/
theorem Move.books {seen : List (Label T)} (move : Move s label after) (few : FewOrders after) (books : Books seen s) :
    Books (seen ++ label.toList) after := by
  have each := move.file_moves books.numbered
  have numbered := move.numbered few books.numbered
  refine ⟨numbered, ?_, ?_⟩
  · intro orderId missing
    rw [history_append]
    have moved := each orderId
    generalize history orderId label.toList = added at moved
    cases moved with
    | keeps same required _ held =>
      cases before : s.jobOrders.lookup orderId with
      | none =>
        obtain ⟨empty, blank⟩ := books.blank orderId before
        exact ⟨by rw [empty]; rfl, blank.same_file same⟩
      | some order =>
        obtain ⟨status, _, stored⟩ := held order before
        rw [missing] at stored
        cases stored
    | opens _ _ _ _ _ stored =>
      rw [missing] at stored
      cases stored
    | accepts _ _ _ _ _ _ _ _ _ updated =>
      rw [missing] at updated
      cases updated
  · intro orderId order found
    rw [history_append]
    have moved := each orderId
    generalize history orderId label.toList = added at moved
    cases moved with
    | keeps same required missing held =>
      cases before : s.jobOrders.lookup orderId with
      | none =>
        rw [missing before] at found
        cases found
      | some old =>
        obtain ⟨status, _, stored⟩ := held old before
        rw [found, Option.some.injEq] at stored
        subst stored
        rw [List.append_nil]
        exact (books.kept orderId old before).same_file same required status
    | opens same missing proposal proposer checked stored =>
      rw [found, Option.some.injEq] at stored
      subst stored
      obtain ⟨empty, blank⟩ := books.blank orderId missing
      rw [empty]
      exact opened_book (blank.same_file same) fun n several => checkProposal_topN checked several
    | accepts old entry held opened early fits required scores ranked updated stored bound =>
      rw [found, Option.some.injEq] at updated
      subst updated
      exact accepted_book (books.kept orderId old held) fits required scores ranked stored bound

theorem NoOrders.books (fresh : NoOrders s) : Books [] s := by
  refine ⟨fresh.numbered, ?_, ?_⟩
  · intro orderId _
    refine ⟨rfl, ⟨?_, ?_, ?_, ?_⟩⟩
    · simp [fresh.orderSolutions]
    · simp [fresh.orderPayees]
    · simp [fresh.orderFrontRunner]
    · simp [State.topSolvers, fresh.orderTopSolvers]
  · intro orderId order held
    rw [fresh.jobOrders] at held
    cases held

/-- After every run the storage summarises the accepted submissions of the run. -/
theorem run_books {s₀ : State T} (fresh : NoOrders s₀) (steps : List (Step T))
    (few : FewOrders ((machine T).run s₀ steps)) :
    Books (labels ((machine T).trace s₀ steps)) ((machine T).run s₀ steps) :=
  @run_by_moves T FewOrders Books s₀ (fun _ _ _ move => move.fewOrders_before) fresh.books
    (fun _ _ _ _ move few books => move.books few books) steps few

end QuipValidator.Mempool
