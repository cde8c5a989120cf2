import QuipValidator.StorageMap
import Mathlib.Data.List.Basic

/-! A numbered log kept in two maps. Items arrive in ascending order and get
the ids 1, 2, 3 and so on; one map finds the item of an id, the other the id of
an item. `Numbers` says that the two maps are exactly this log, and everything a
reader relies on follows from it. -/
namespace QuipValidator.OrdinalIndex

variable {α : Type} [LinearOrder α] {log : List α} {byId : StorageMap Nat α} {idOf : StorageMap α Nat}

/-- The maps index the log: ids start at 1 and follow its order. -/
structure Numbers (log : List α) (byId : StorageMap Nat α) (idOf : StorageMap α Nat) : Prop where
  ascending : log.Pairwise (· < ·)
  entry : ∀ id item, byId.lookup id = some item ↔ 1 ≤ id ∧ log[id - 1]? = some item
  inverse : ∀ id item, byId.lookup id = some item ↔ idOf.lookup item = some id

theorem numbers_nil : Numbers ([] : List α) ∅ ∅ where
  ascending := List.Pairwise.nil
  entry id item := by simp
  inverse id item := by simp

/-- Ids are given exactly up to the length of the log. -/
theorem Numbers.assigned (numbers : Numbers log byId idOf) (id : Nat) :
    (byId.lookup id).isSome ↔ 1 ≤ id ∧ id ≤ log.length := by
  rw [Option.isSome_iff_exists]
  constructor
  · rintro ⟨item, found⟩
    obtain ⟨positive, listed⟩ := (numbers.entry id item).mp found
    obtain ⟨inside, _⟩ := List.getElem?_eq_some_iff.mp listed
    omega
  · rintro ⟨positive, inside⟩
    have listed : log[id - 1]? = some (log.get ⟨id - 1, by omega⟩) := List.getElem?_eq_getElem (by omega)
    exact ⟨_, (numbers.entry id _).mpr ⟨positive, listed⟩⟩

/-- A later id belongs to a greater item. -/
theorem Numbers.increasing (numbers : Numbers log byId idOf) {i j : Nat} {a b : α} (less : i < j)
    (first : byId.lookup i = some a) (second : byId.lookup j = some b) : a < b := by
  obtain ⟨positive, atFirst⟩ := (numbers.entry i a).mp first
  obtain ⟨_, atSecond⟩ := (numbers.entry j b).mp second
  obtain ⟨insideFirst, rfl⟩ := List.getElem?_eq_some_iff.mp atFirst
  obtain ⟨insideSecond, rfl⟩ := List.getElem?_eq_some_iff.mp atSecond
  exact List.pairwise_iff_getElem.mp numbers.ascending (i - 1) (j - 1) insideFirst insideSecond (by omega)

/-- The items with an id are those of the log. -/
theorem Numbers.indexed_iff (numbers : Numbers log byId idOf) (item : α) :
    (idOf.lookup item).isSome ↔ item ∈ log := by
  rw [Option.isSome_iff_exists]
  constructor
  · rintro ⟨id, found⟩
    obtain ⟨_, listed⟩ := (numbers.entry id item).mp ((numbers.inverse id item).mpr found)
    exact List.mem_of_getElem? listed
  · intro member
    obtain ⟨position, listed⟩ := List.mem_iff_getElem?.mp member
    exact ⟨position + 1, (numbers.inverse _ _).mp ((numbers.entry _ _).mpr ⟨by omega, by simpa using listed⟩)⟩

/-- One more item, greater than all before it, under the next id. -/
theorem Numbers.extend (numbers : Numbers log byId idOf) {item : α} (greatest : ∀ other ∈ log, other < item) :
    Numbers (log ++ [item]) (byId.insert (log.length + 1) item) (idOf.insert item (log.length + 1)) := by
  have unassigned : byId.lookup (log.length + 1) = none := by
    have absent := (numbers.assigned (log.length + 1)).not.mpr (by omega)
    simpa using absent
  have unindexed : idOf.lookup item = none := by
    have absent := (numbers.indexed_iff item).not.mpr fun member => lt_irrefl item (greatest item member)
    simpa using absent
  refine ⟨?_, ?_, ?_⟩
  · apply List.pairwise_append.mpr
    refine ⟨numbers.ascending, List.pairwise_singleton _ _, ?_⟩
    intro other member last isLast
    rw [List.mem_singleton.mp isLast]
    exact greatest other member
  · intro id probe
    rw [StorageMap.lookup_insert_ite]
    by_cases newest : id = log.length + 1
    · subst newest
      simp
    · rw [if_neg newest, numbers.entry]
      apply and_congr_right
      intro positive
      by_cases inside : id - 1 < log.length
      · rw [List.getElem?_append_left inside]
      · have beyond : ¬ id - 1 < (log ++ [item]).length := by
          rw [List.length_append, List.length_singleton]
          omega
        rw [List.getElem?_eq_none (by omega), List.getElem?_eq_none (by omega)]
  · intro id probe
    rw [StorageMap.lookup_insert_ite, StorageMap.lookup_insert_ite]
    by_cases newest : id = log.length + 1
    · by_cases same : probe = item
      · simp [newest, same]
      · have other : idOf.lookup probe ≠ some id := by
          intro found
          rw [← numbers.inverse, newest, unassigned] at found
          cases found
        simp only [if_pos newest, if_neg same, Option.some.injEq, other, iff_false]
        exact fun equal => same equal.symm
    · by_cases same : probe = item
      · have other : byId.lookup id ≠ some probe := by
          intro found
          rw [numbers.inverse, same, unindexed] at found
          cases found
        simp only [if_neg newest, if_pos same, Option.some.injEq, other, false_iff]
        exact fun equal => newest equal.symm
      · rw [if_neg newest, if_neg same]
        exact numbers.inverse id probe

/-- What an id named before, it names after the log grew. -/
theorem Numbers.keeps (numbers : Numbers log byId idOf) {more : List α} {byId' : StorageMap Nat α}
    {idOf' : StorageMap α Nat} (grown : Numbers (log ++ more) byId' idOf') {id : Nat} {item : α}
    (found : byId.lookup id = some item) : byId'.lookup id = some item := by
  obtain ⟨positive, listed⟩ := (numbers.entry id item).mp found
  obtain ⟨inside, _⟩ := List.getElem?_eq_some_iff.mp listed
  apply (grown.entry id item).mpr
  refine ⟨positive, ?_⟩
  rw [List.getElem?_append_left inside]
  exact listed

end QuipValidator.OrdinalIndex
