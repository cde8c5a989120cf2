import QuipValidator.MempoolRuns

/-! Progress of the expiry hook. Two budgets stop the bucket loop early, and the
cursor may stay on a bucket that is already empty. What a call removed is one
list of index entries; the cursor passes a bucket only once none of its entries
is left, and a call that does not catch up has spent a whole budget. -/
namespace QuipValidator.Mempool
open Fallible

variable {T : Config} {s : State T}

/-- What the hook does with one entry of the index, given by its bucket and its order. -/
def drainEntry (s : State T) (entry : Nat × Nat) : Fallible DispatchError (State T) :=
  finaliseOrder { s with ordersExpiringAt := s.ordersExpiringAt.remove entry.1 entry.2 } entry.2

private theorem drainEntries_eq (bucket : Nat) (ids : List Nat) (s : State T) :
    drainEntries bucket ids s = (ids.map fun orderId => (bucket, orderId)).foldlM drainEntry s := by
  induction ids generalizing s with
  | nil => rfl
  | cons first rest ih =>
    simp only [drainEntries, List.map_cons, List.foldlM_cons]
    exact congrArg _ (funext ih)

private theorem drainEntry_runs (s : State T) (entry : Nat × Nat) :
    ∃ after, drainEntry s entry = .ok after ∧
      after.ordersExpiringAt = s.ordersExpiringAt.remove entry.1 entry.2 :=
  let ⟨after, ran, index, _⟩ :=
    finaliseOrder_runs { s with ordersExpiringAt := s.ordersExpiringAt.remove entry.1 entry.2 } entry.2
  ⟨after, ran, index⟩

/-- Draining completes, and takes exactly the listed entries out of the index. -/
theorem drainAll_runs (entries : List (Nat × Nat)) (s : State T) :
    ∃ after, entries.foldlM drainEntry s = .ok after ∧
      ∀ bucket orderId, after.ordersExpiringAt.get bucket orderId =
        if (bucket, orderId) ∈ entries then none else s.ordersExpiringAt.get bucket orderId := by
  induction entries generalizing s with
  | nil => exact ⟨s, rfl, by simp⟩
  | cons first rest ih =>
    obtain ⟨middle, drained, removed⟩ := drainEntry_runs s first
    obtain ⟨after, ran, index⟩ := ih middle
    refine ⟨after, bind_success.mpr ⟨middle, drained, ran⟩, fun bucket orderId => ?_⟩
    rw [index, removed, StorageDoubleMap.get_remove]
    by_cases here : (bucket, orderId) = first
    · subst here
      simp
    · have apart : ¬(bucket = first.1 ∧ orderId = first.2) := fun same => here (Prod.ext same.1 same.2)
      simp [here, apart]

/-- What a run of the bucket loop from `bucket` did: the entries it removed, the
cursor it stopped at, and how many buckets it visited. -/
structure Progress (s : State T) (now orderBudget bucketBudget bucket : Nat) (entries : List (Nat × Nat))
    (cursor visited : Nat) : Prop where
  orders : entries.length ≤ orderBudget
  buckets : visited ≤ bucketBudget
  forward : bucket ≤ cursor
  caught : cursor ≤ max bucket (now + 1)
  sorted : entries.Pairwise fun earlier later => earlier.1 ≤ later.1
  distinct : entries.Nodup
  listed : ∀ entry ∈ entries,
    (s.ordersExpiringAt.get entry.1 entry.2).isSome ∧ bucket ≤ entry.1 ∧ entry.1 ≤ now
  passed : ∀ probe, bucket ≤ probe → probe < cursor → ∀ orderId,
    (s.ordersExpiringAt.get probe orderId).isSome → (probe, orderId) ∈ entries
  stops : bucket ≤ now →
    cursor = now + 1 ∨ entries.length = orderBudget ∨ visited = bucketBudget ∧ cursor = bucket + bucketBudget

namespace Progress
variable {now orderBudget bucketBudget bucket : Nat}

/-- The loop ends at once. -/
private theorem idle (spent : bucketBudget = 0 ∨ now < bucket ∨ orderBudget = 0) :
    Progress s now orderBudget bucketBudget bucket [] bucket 0 where
  orders := Nat.zero_le _
  buckets := Nat.zero_le _
  forward := Nat.le_refl _
  caught := Nat.le_max_left _ _
  sorted := .nil
  distinct := List.nodup_nil
  listed := by simp
  passed := by
    intro probe reached short
    omega
  stops := by
    intro due
    rcases spent with empty | ahead | empty
    · exact .inr (.inr ⟨empty.symm, by omega⟩)
    · omega
    · exact .inr (.inl empty.symm)

variable {taken : List Nat}

/-- The entries of one bucket that the order budget allows. -/
private def Takes (s : State T) (bucket orderBudget : Nat) (taken : List Nat) : Prop :=
  taken.Nodup ∧ taken.length ≤ orderBudget ∧
    (∀ orderId ∈ taken, (s.ordersExpiringAt.get bucket orderId).isSome) ∧
    (taken.length < orderBudget → ∀ orderId, (s.ordersExpiringAt.get bucket orderId).isSome → orderId ∈ taken)

private theorem takes_iterKeys (s : State T) (bucket orderBudget : Nat) :
    Takes s bucket orderBudget ((T.iterKeys (s.ordersExpiringAt bucket).keys).take orderBudget) := by
  have held : ∀ orderId, orderId ∈ T.iterKeys (s.ordersExpiringAt bucket).keys ↔
      (s.ordersExpiringAt.get bucket orderId).isSome := by
    intro orderId
    rw [(T.iterKeys_perm _).mem_iff, StorageMap.mem_keys_iff_lookup, Option.isSome_iff_exists]
    rfl
  have unique : (T.iterKeys (s.ordersExpiringAt bucket).keys).Nodup :=
    (T.iterKeys_perm _).nodup_iff.mpr (s.ordersExpiringAt bucket).keys_nodup
  refine ⟨unique.sublist (List.take_sublist _ _), List.length_take_le _ _, ?_, ?_⟩
  · exact fun orderId member => (held orderId).mp (List.mem_of_mem_take member)
  · intro fewer orderId found
    rw [List.length_take] at fewer
    -- Fewer ids than the budget were taken, so the take kept every key.
    rw [List.take_of_length_le (by omega)]
    exact (held orderId).mpr found

private theorem mem_bucket {bucket probe orderId : Nat} {taken : List Nat} :
    (probe, orderId) ∈ taken.map (fun orderId => (bucket, orderId)) ↔ probe = bucket ∧ orderId ∈ taken := by
  constructor
  · intro member
    obtain ⟨held, listed, same⟩ := List.mem_map.mp member
    cases same
    exact ⟨rfl, listed⟩
  · rintro ⟨rfl, listed⟩
    exact List.mem_map_of_mem listed

private theorem bucket_distinct (bucket : Nat) (unique : taken.Nodup) :
    (taken.map fun orderId => (bucket, orderId)).Nodup :=
  unique.map fun _ _ same => (Prod.ext_iff.mp same).2

private theorem bucket_sorted (bucket : Nat) (taken : List Nat) :
    (taken.map fun orderId => (bucket, orderId)).Pairwise fun earlier later => earlier.1 ≤ later.1 :=
  List.pairwise_map.mpr (List.pairwise_of_forall fun _ _ => Nat.le_refl _)

/-- The order budget is spent in this bucket, and the cursor stays on it. -/
private theorem stay (takes : Takes s bucket orderBudget taken) (due : bucket ≤ now)
    (spent : taken.length = orderBudget) :
    Progress s now orderBudget (bucketBudget + 1) bucket (taken.map fun orderId => (bucket, orderId)) bucket 1 where
  orders := by rw [List.length_map]; exact takes.2.1
  buckets := Nat.succ_le_succ (Nat.zero_le _)
  forward := Nat.le_refl _
  caught := Nat.le_max_left _ _
  sorted := bucket_sorted bucket taken
  distinct := bucket_distinct bucket takes.1
  listed := by
    rintro ⟨probe, orderId⟩ member
    obtain ⟨rfl, held⟩ := mem_bucket.mp member
    exact ⟨takes.2.2.1 orderId held, Nat.le_refl _, due⟩
  passed := by
    intro probe reached short
    omega
  stops := fun _ => .inr (.inl (by rw [List.length_map]; exact spent))

/-- The bucket is exhausted: what the loop does from the next one, with what is
left of the budgets, comes after this bucket's entries. -/
private theorem advance {middle : State T} {entries : List (Nat × Nat)} {cursor visited : Nat}
    (takes : Takes s bucket orderBudget taken) (due : bucket ≤ now) (spare : taken.length < orderBudget)
    (index : ∀ probe orderId, middle.ordersExpiringAt.get probe orderId =
      if (probe, orderId) ∈ taken.map (fun orderId => (bucket, orderId)) then none
      else s.ordersExpiringAt.get probe orderId)
    (rest : Progress middle now (orderBudget - taken.length) bucketBudget (bucket + 1) entries cursor visited) :
    Progress s now orderBudget (bucketBudget + 1) bucket
      ((taken.map fun orderId => (bucket, orderId)) ++ entries) cursor (visited + 1) := by
  obtain ⟨unique, within, held, whole⟩ := takes
  have shrinks : ∀ probe orderId, (middle.ordersExpiringAt.get probe orderId).isSome →
      (s.ordersExpiringAt.get probe orderId).isSome := by
    intro probe orderId found
    rw [index] at found
    split at found
    · cases found
    · exact found
  have later : ∀ entry ∈ entries, bucket < entry.1 := fun entry member => (rest.listed entry member).2.1
  exact
    { orders := by
        have orders := rest.orders
        rw [List.length_append, List.length_map]
        omega
      buckets := Nat.succ_le_succ rest.buckets
      forward := Nat.le_of_succ_le rest.forward
      caught := by
        have caught := rest.caught
        omega
      sorted := by
        refine List.pairwise_append.mpr ⟨bucket_sorted bucket taken, rest.sorted, ?_⟩
        rintro ⟨probe, orderId⟩ first last member
        obtain ⟨rfl, _⟩ := mem_bucket.mp first
        exact (later last member).le
      distinct := by
        refine List.nodup_append.mpr ⟨bucket_distinct bucket unique, rest.distinct, ?_⟩
        rintro ⟨probe, orderId⟩ first last member rfl
        obtain ⟨rfl, _⟩ := mem_bucket.mp first
        exact Nat.lt_irrefl _ (later _ member)
      listed := by
        rintro ⟨probe, orderId⟩ member
        rcases List.mem_append.mp member with here | there
        · obtain ⟨rfl, taking⟩ := mem_bucket.mp here
          exact ⟨held orderId taking, Nat.le_refl _, due⟩
        · obtain ⟨found, reached, inTime⟩ := rest.listed _ there
          exact ⟨shrinks _ _ found, Nat.le_of_succ_le reached, inTime⟩
      passed := by
        intro probe reached short orderId found
        rcases Nat.eq_or_lt_of_le reached with rfl | ahead
        · exact List.mem_append_left _ (mem_bucket.mpr ⟨rfl, whole spare orderId found⟩)
        · refine List.mem_append_right _ (rest.passed probe ahead short orderId ?_)
          rw [index, if_neg fun member => by have same := (mem_bucket.mp member).1; omega]
          exact found
      stops := by
        intro _
        have caught := rest.caught
        have forward := rest.forward
        rcases Nat.lt_or_ge now (bucket + 1) with last | further
        · exact .inl (by omega)
        · rcases rest.stops further with done | spent | passed
          · exact .inl done
          · refine .inr (.inl ?_)
            rw [List.length_append, List.length_map]
            omega
          · exact .inr (.inr ⟨by omega, by omega⟩) }

end Progress

/-- The bucket loop drains one list of entries and stops where `Progress` says. -/
theorem drainBuckets_progress {now : Nat} (below : now < T.maxBlockNumber)
    (bucketBudget orderBudget bucket finalised visited : Nat) (s : State T)
    (ordersFit : finalised + orderBudget ≤ u32Max) (bucketsFit : visited + bucketBudget ≤ u64Max) :
    ∃ drained entries cursor passed, entries.foldlM drainEntry s = .ok drained ∧
      drainBuckets now bucketBudget orderBudget bucket (finalised, visited) s =
        .ok ({ drained with nextExpiryBucket := cursor }, finalised + entries.length, visited + passed) ∧
      Progress s now orderBudget bucketBudget bucket entries cursor passed := by
  induction bucketBudget generalizing s orderBudget bucket finalised visited with
  | zero => exact ⟨s, [], bucket, 0, rfl, rfl, .idle (.inl rfl)⟩
  | succ bucketBudget ih =>
    rw [drainBuckets]
    split
    · rename_i due
      obtain ⟨due, positive⟩ := due
      have takes := Progress.takes_iterKeys s bucket orderBudget
      generalize (T.iterKeys (s.ordersExpiringAt bucket).keys).take orderBudget = taken at takes ⊢
      obtain ⟨middle, drained, index⟩ := drainAll_runs (taken.map fun orderId => (bucket, orderId)) s
      have within : taken.length ≤ orderBudget := takes.2.1
      simp only [drainEntries_eq, drained, ok_bind]
      rw [saturatingAdd_of_le (by omega), saturatingAdd_of_le (by omega)]
      split
      · rename_i spent
        exact ⟨middle, _, bucket, 1, drained, by rw [List.length_map]; rfl, .stay takes due spent⟩
      · rename_i fewer
        rw [saturatingAdd_of_le (by omega)]
        obtain ⟨last, entries, cursor, passed, ran, result, progress⟩ :=
          ih (orderBudget - taken.length) (bucket + 1) (finalised + taken.length) (visited + 1) middle (by omega)
            (by omega)
        refine ⟨last, _, cursor, passed + 1, ?_, ?_, .advance takes due (by omega) index progress⟩
        · rw [List.foldlM_append, drained]
          exact ran
        · rw [result, List.length_append, List.length_map]
          congr 3 <;> omega
    · rename_i idle
      exact ⟨s, [], bucket, 0, rfl, rfl, .idle (by omega)⟩

/-- One call of the hook, for every state and every order in which a bucket is
enumerated. `entries` is what it removed and finalised, one `finalise_order` for
each entry; a call that does not catch up with `now` has spent a whole budget. -/
theorem expiry_hook_progresses (s : State T) {now : Nat} (below : now < T.maxBlockNumber) :
    ∃ (after drained : State T) (entries : List (Nat × Nat)) (visited : Nat),
      finaliseExpiredOrders s now = .ok (after, entries.length, visited) ∧
      entries.foldlM drainEntry s = .ok drained ∧
      after = { drained with nextExpiryBucket := after.nextExpiryBucket } ∧
      (∀ bucket orderId, after.ordersExpiringAt.get bucket orderId =
        if (bucket, orderId) ∈ entries then none else s.ordersExpiringAt.get bucket orderId) ∧
      entries.Nodup ∧ entries.Pairwise (fun earlier later => earlier.1 ≤ later.1) ∧
      (∀ entry ∈ entries, (s.ordersExpiringAt.get entry.1 entry.2).isSome ∧ entry.1 ≤ now) ∧
      entries.length ≤ 8 ∧ visited ≤ 8 ∧
      s.nextExpiryBucket ≤ after.nextExpiryBucket ∧
      after.nextExpiryBucket ≤ max s.nextExpiryBucket (now + 1) ∧
      (∀ bucket, s.nextExpiryBucket ≤ bucket → bucket < after.nextExpiryBucket →
        ∀ orderId, after.ordersExpiringAt.get bucket orderId = none) ∧
      (s.nextExpiryBucket ≤ now →
        (after.nextExpiryBucket = now + 1 ∧ ∀ bucket, s.nextExpiryBucket ≤ bucket → bucket ≤ now →
          ∀ orderId, after.ordersExpiringAt.get bucket orderId = none) ∨
        entries.length = 8 ∨ (visited = 8 ∧ after.nextExpiryBucket = s.nextExpiryBucket + 8)) := by
  obtain ⟨drained, entries, cursor, visited, ran, result, progress⟩ :=
    drainBuckets_progress below MAX_FINALISED_ORDERS_PER_BLOCK MAX_FINALISED_ORDERS_PER_BLOCK s.nextExpiryBucket 0 0 s
      (by decide) (by decide)
  rw [Nat.zero_add, Nat.zero_add] at result
  have index : ∀ bucket orderId, drained.ordersExpiringAt.get bucket orderId =
      if (bucket, orderId) ∈ entries then none else s.ordersExpiringAt.get bucket orderId := by
    obtain ⟨last, same, index⟩ := drainAll_runs entries s
    rw [ran] at same
    cases same
    exact index
  have emptied : ∀ bucket, s.nextExpiryBucket ≤ bucket → bucket < cursor → ∀ orderId,
      drained.ordersExpiringAt.get bucket orderId = none := by
    intro bucket reached short orderId
    rw [index]
    by_cases member : (bucket, orderId) ∈ entries
    · rw [if_pos member]
    · rw [if_neg member]
      exact Option.not_isSome_iff_eq_none.mp fun found => member (progress.passed bucket reached short orderId found)
  refine ⟨{ drained with nextExpiryBucket := cursor }, drained, entries, visited, result, ran, rfl, index,
    progress.distinct, progress.sorted, ?_, progress.orders, progress.buckets, progress.forward, progress.caught,
    emptied, ?_⟩
  · intro entry member
    obtain ⟨found, _, inTime⟩ := progress.listed entry member
    exact ⟨found, inTime⟩
  · intro due
    rcases progress.stops due with caught | spent | ⟨passed, far⟩
    · exact .inl ⟨caught, fun bucket reached inTime => emptied bucket reached (by omega)⟩
    · exact .inr (.inl spent)
    · exact .inr (.inr ⟨passed, far⟩)

/-- Nine orders due in one bucket, two buckets behind the cursor. -/
def tinyCrowd : State tinyConfig :=
  { tinyGenesis with
    nextExpiryBucket := 1
    ordersExpiringAt := (List.range 9).foldl (fun rows orderId => rows.insert 3 orderId ()) ∅ }

/-- The cursor stays on the crowded bucket, which keeps one order for the next block. -/
theorem expiry_hook_progresses_tinyCrowd :
    (finaliseExpiredOrders tinyCrowd 4).map (fun result => (result.1.nextExpiryBucket, result.2)) = .ok (3, 8, 3) ∧
      ∃ (after drained : State tinyConfig) (entries : List (Nat × Nat)) (visited : Nat),
        finaliseExpiredOrders tinyCrowd 4 = .ok (after, entries.length, visited) ∧
        entries.foldlM drainEntry tinyCrowd = .ok drained ∧ entries.Nodup ∧ entries.length ≤ 8 := by
  obtain ⟨after, drained, entries, visited, result, ran, _, _, distinct, _, _, few, _⟩ :=
    @expiry_hook_progresses _ tinyCrowd 4 (by decide)
  exact ⟨by decide +kernel, after, drained, entries, visited, result, ran, distinct, few⟩

end QuipValidator.Mempool
