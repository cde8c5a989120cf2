import QuipValidator.CursorPages
import QuipValidator.OrderIndexProofs
import QuipValidator.Participation

/-! The two paged queries, `open_order_ids` of the mempool and
`participants_by_qblock` of the miner registry. Both filter, sort and truncate an
unordered map; a client that follows the cursor sees each matching entry once. -/
namespace QuipValidator
open StableRanking CursorPages

namespace Mempool
variable {T : Config}

/-- The second filter of `open_order_ids`: the order is open and not past its effective expiry. -/
def State.stillOpen (s : State T) (orderId : Nat) : Bool :=
  match s.jobOrders.lookup orderId with
  | none => false
  | some order =>
    decide (order.status = .opened) && !isExpired T s.blockNumber order.createdAt order.firstSolutionAt order.timing

def openOrderIds (s : State T) (startAfter : Option Nat) (limit : Nat) : List Nat :=
  let limit := min limit 1000
  if limit = 0 then []
  else
    let ids := (T.iterKeys s.openOrders.keys).filter fun orderId =>
      (startAfter.map fun cursor => decide (cursor < orderId)).getD true
    (sortByKey id (ids.filter s.stillOpen)).take limit

theorem State.stillOpen_iff (s : State T) (orderId : Nat) :
    s.stillOpen orderId = true ↔
      ∃ order, s.jobOrders.lookup orderId = some order ∧ order.status = .opened ∧ s.blockNumber < order.expiry := by
  unfold State.stillOpen
  cases s.jobOrders.lookup orderId with
  | none => simp
  | some order => simp [isExpired, JobOrder.expiry]

private theorem openOrderIds_page (s : State T) (startAfter : Option Nat) (limit : Nat) :
    openOrderIds s startAfter limit =
      page id ((T.iterKeys s.openOrders.keys).filter s.stillOpen) (min limit 1000) startAfter := by
  unfold openOrderIds page
  dsimp only
  split
  · rename_i zero
    rw [zero, List.take_zero]
  · rw [List.filter_filter, List.filter_filter]
    simp only [behind, id, Bool.and_comm]

private theorem mem_open_rows (s : State T) (orderId : Nat) :
    orderId ∈ (T.iterKeys s.openOrders.keys).filter s.stillOpen ↔ (s.openOrders.lookup orderId).isSome ∧
      ∃ order, s.jobOrders.lookup orderId = some order ∧ order.status = .opened ∧ s.blockNumber < order.expiry := by
  rw [List.mem_filter, (T.iterKeys_perm _).mem_iff, StorageMap.mem_keys_iff_lookup, Option.isSome_iff_exists,
    s.stillOpen_iff]

end Mempool

namespace Registry
variable {P : PalletConfig}

/-- `iterPrefix` is the order in which storage enumerates the records of one qblock. -/
def participantsByQblock [LinearOrder P.AccountId]
    (iterPrefix : List (P.AccountId × ParticipationRecord) → List (P.AccountId × ParticipationRecord)) (s : Storage P) (qblockId : Nat) (startAfter : Option P.AccountId) (limit : Nat) :
    List (P.AccountId × ParticipationRecord) :=
  let limit := min limit 1000
  if limit = 0 then []
  else
    let entries := (iterPrefix ((s.participantsByQBlock qblockId).entries.map fun entry => (entry.1, entry.2))).filter
      fun entry => (startAfter.map fun cursor => decide (cursor < entry.1)).getD true
    (sortByKey Prod.fst entries).take limit

private theorem participantsByQblock_page [LinearOrder P.AccountId]
    (iterPrefix : List (P.AccountId × ParticipationRecord) → List (P.AccountId × ParticipationRecord)) (s : Storage P) (qblockId : Nat) (startAfter : Option P.AccountId)
    (limit : Nat) :
    participantsByQblock iterPrefix s qblockId startAfter limit =
      page Prod.fst (iterPrefix ((s.participantsByQBlock qblockId).entries.map fun entry => (entry.1, entry.2)))
        (min limit 1000) startAfter := by
  unfold participantsByQblock page
  dsimp only
  split
  · rename_i zero
    rw [zero, List.take_zero]
  · rfl

private theorem mem_participant_rows (s : Storage P) (qblockId : Nat) (who : P.AccountId) (record : ParticipationRecord) :
    (who, record) ∈ (s.participantsByQBlock qblockId).entries.map (fun entry => (entry.1, entry.2)) ↔
      s.participantsByQBlock.get qblockId who = some record := by
  rw [StorageDoubleMap.get, ← Option.mem_def, AList.mem_lookup_iff, List.mem_map]
  constructor
  · rintro ⟨entry, member, same⟩
    cases same
    exact member
  · exact fun member => ⟨_, member, rfl⟩

private theorem participant_rows_distinct (s : Storage P) (qblockId : Nat) :
    (((s.participantsByQBlock qblockId).entries.map fun entry => (entry.1, entry.2)).map Prod.fst).Nodup := by
  rw [List.map_map]
  exact (s.participantsByQBlock qblockId).keys_nodup

end Registry

/-- Following the cursor until a page is empty lists each matching entry once, in
ascending order, whatever the page size and the order of enumeration; and every
open order is listed by the index the first query walks, in every state reached
from a chain without orders. -/
theorem cursor_pages_complete (T : Mempool.Config) (P : Registry.PalletConfig) [LinearOrder P.AccountId]
    (iterPrefix : List (P.AccountId × Registry.ParticipationRecord) → List (P.AccountId × Registry.ParticipationRecord))
    (enumerates : ∀ rows, (iterPrefix rows).Perm rows) {limit : Nat} (positive : 1 ≤ limit) :
    (∀ (s : Mempool.State T) (fuel : Nat), s.openOrders.keys.length < fuel →
      ∃ pages, crawl id (fun cursor => Mempool.openOrderIds s cursor limit) fuel none = some pages ∧
        pages.flatten.Pairwise (· < ·) ∧
        ∀ orderId, orderId ∈ pages.flatten ↔ (s.openOrders.lookup orderId).isSome ∧
          ∃ order, s.jobOrders.lookup orderId = some order ∧ order.status = .opened ∧ s.blockNumber < order.expiry) ∧
    (∀ (s₀ : Mempool.State T) (steps : List (Mempool.Step T)), Mempool.NoOrders s₀ →
      Mempool.FewOrders ((Mempool.machine T).run s₀ steps) →
      ∀ orderId order, ((Mempool.machine T).run s₀ steps).jobOrders.lookup orderId = some order →
        order.status = .opened → (((Mempool.machine T).run s₀ steps).openOrders.lookup orderId).isSome) ∧
    ∀ (s : Registry.Storage P) (qblockId fuel : Nat), (s.participantsByQBlock qblockId).keys.length < fuel →
      ∃ pages, crawl Prod.fst
          (fun cursor => Registry.participantsByQblock iterPrefix s qblockId cursor limit) fuel none = some pages ∧
        pages.flatten.Pairwise (fun a b => a.1 < b.1) ∧
        ∀ who record, (who, record) ∈ pages.flatten ↔ s.participantsByQBlock.get qblockId who = some record := by
  have size : 0 < min limit 1000 := by omega
  refine ⟨?_, ?_, ?_⟩
  · intro s fuel enough
    have distinct : (((T.iterKeys s.openOrders.keys).filter s.stillOpen).map id).Nodup := by
      rw [List.map_id]
      exact ((T.iterKeys_perm _).nodup_iff.mpr s.openOrders.keys_nodup).filter _
    have few : ((T.iterKeys s.openOrders.keys).filter s.stillOpen).length < fuel :=
      Nat.lt_of_le_of_lt (List.length_filter_le _ _) (by rw [(T.iterKeys_perm _).length_eq]; exact enough)
    obtain ⟨pages, ran, whole, ascending⟩ := crawl_complete distinct size few
    refine ⟨pages, ?_, ascending, fun orderId => ?_⟩
    · rw [funext fun cursor => Mempool.openOrderIds_page s cursor limit]
      exact ran
    · rw [whole.mem_iff, Mempool.mem_open_rows]
  · intro s₀ steps fresh few orderId order held opened
    exact ((Mempool.run_orderIndex fresh steps few).openOrders orderId).mpr ⟨order, held, opened⟩
  · intro s qblockId fuel enough
    have same := enumerates ((s.participantsByQBlock qblockId).entries.map fun entry => (entry.1, entry.2))
    have distinct := ((same.map Prod.fst).nodup_iff).mpr (Registry.participant_rows_distinct s qblockId)
    have few : (iterPrefix ((s.participantsByQBlock qblockId).entries.map fun entry => (entry.1, entry.2))).length <
        fuel := by
      rw [same.length_eq, List.length_map]
      simpa [AList.keys, List.keys] using enough
    obtain ⟨pages, ran, whole, ascending⟩ := crawl_complete distinct size few
    refine ⟨pages, ?_, ascending, fun who record => ?_⟩
    · rw [funext fun cursor => Registry.participantsByQblock_page iterPrefix s qblockId cursor limit]
      exact ran
    · rw [(whole.trans same).mem_iff, Registry.mem_participant_rows]

namespace Registry

instance : LinearOrder tinyPallet.AccountId := inferInstanceAs (LinearOrder Nat)

/-- Three participants of one qblock, filed in no order. -/
def tinyParticipants : Storage tinyPallet :=
  { tinyWorld.storage with
    participantsByQBlock := [5, 9, 2].foldl
      (fun (rows : StorageDoubleMap Nat tinyPallet.AccountId ParticipationRecord) (who : Nat) =>
        rows.insert 1 who ⟨1, .cpu, none, 1⟩) ∅ }

end Registry

/-- Two records a page: a full page, a short one and the empty one that ends the crawl. -/
theorem cursor_pages_complete_tinyParticipants :
    (crawl Prod.fst (fun cursor => Registry.participantsByQblock id Registry.tinyParticipants 1 cursor 2) 4 none).map
        (fun pages => pages.map fun page => page.map Prod.fst) = some [[(2 : Nat), (5 : Nat)], [(9 : Nat)]] ∧
      ∃ pages, crawl Prod.fst (fun cursor => Registry.participantsByQblock id Registry.tinyParticipants 1 cursor 2) 4
          none = some pages ∧ pages.flatten.Pairwise fun a b => a.1 < b.1 := by
  obtain ⟨_, _, paged⟩ := @cursor_pages_complete Mempool.tinyConfig Registry.tinyPallet _ id (fun _ => .refl _) 2
    (by decide)
  obtain ⟨pages, ran, ascending, _⟩ := paged Registry.tinyParticipants 1 4 (by decide)
  exact ⟨rfl, pages, ran, ascending⟩

end QuipValidator
