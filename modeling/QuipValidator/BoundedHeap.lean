import Mathlib.Data.List.Induction
import Mathlib.Data.List.Perm.Subperm
import QuipValidator.StableRanking

/-! The best few of a scan. A priority queue hands out a greatest item first.
Pushing every item of a scan and popping once for each item over `slots` leaves
the `slots` least items, whatever order the scan runs in (`intoSortedVec_retain`).
A list cut from its tail until it fits is its longest fitting prefix
(`trim_reverse`). -/
namespace QuipValidator

/-- `BinaryHeap`: which arrangement holds the items is not observable. -/
structure BinaryHeap (α : Type) where
  items : List α

namespace BinaryHeap
variable {α : Type} [LinearOrder α]

def new : BinaryHeap α := ⟨[]⟩

def len (heap : BinaryHeap α) : Nat := heap.items.length

def push (heap : BinaryHeap α) (item : α) : BinaryHeap α := ⟨item :: heap.items⟩

/-- What is left after `pop` has taken a greatest item. -/
def pop (heap : BinaryHeap α) : BinaryHeap α :=
  match heap.items.max? with
  | none => heap
  | some greatest => ⟨heap.items.erase greatest⟩

/-- `into_sorted_vec`: ascending. -/
def intoSortedVec (heap : BinaryHeap α) : List α := StableRanking.sortByKey id heap.items

/-- One item of a scan that keeps no more than `slots` items. -/
def retain (slots : Nat) (heap : BinaryHeap α) (item : α) : BinaryHeap α :=
  if 0 < slots then
    if slots < (heap.push item).len then (heap.push item).pop else heap.push item
  else heap

/-- Two ascending lists of the same items are one list. -/
theorem ascending_unique {first second : List α} (firstSorted : first.Pairwise (· ≤ ·))
    (secondSorted : second.Pairwise (· ≤ ·)) (same : first.Perm second) : first = second :=
  same.eq_of_pairwise (fun _ _ _ _ => le_antisymm) firstSorted secondSorted

theorem sort_perm {first second : List α} (same : first.Perm second) :
    StableRanking.sortByKey id first = StableRanking.sortByKey id second :=
  ascending_unique (StableRanking.sortByKey_sorted id first) (StableRanking.sortByKey_sorted id second)
    ((StableRanking.sortByKey_perm id first).trans (same.trans (StableRanking.sortByKey_perm id second).symm))

theorem length_intoSortedVec (heap : BinaryHeap α) : heap.intoSortedVec.length = heap.len :=
  (StableRanking.sortByKey_perm id heap.items).length_eq

/-- A pop takes the last place of the sorted order. -/
theorem intoSortedVec_pop (heap : BinaryHeap α) : heap.pop.intoSortedVec = heap.intoSortedVec.dropLast := by
  unfold pop
  split
  · rename_i empty
    rw [List.max?_eq_none_iff] at empty
    simp [intoSortedVec, empty, StableRanking.sortByKey]
  · rename_i greatest found
    obtain ⟨held, top⟩ := List.max?_eq_some_iff.mp found
    have sorted := StableRanking.sortByKey_sorted id heap.items
    have perm := StableRanking.sortByKey_perm id heap.items
    rcases List.eq_nil_or_concat' (StableRanking.sortByKey id heap.items) with none | ⟨front, last, split⟩
    · rw [none] at perm
      simp [perm.symm.eq_nil] at held
    · rw [split] at sorted perm
      have lastHeld : last ∈ heap.items := perm.subset (by simp)
      have greatestLE : greatest ≤ last := by
        rcases List.mem_append.mp (perm.symm.subset held) with inFront | isLast
        · exact (List.pairwise_append.mp sorted).2.2 _ inFront _ (List.mem_singleton_self _)
        · exact (List.mem_singleton.mp isLast).le
      have same : last = greatest := le_antisymm (top _ lastHeld) greatestLE
      have rest : (heap.items.erase greatest).Perm front := by
        have erased := (perm.trans (List.perm_cons_erase held)).symm
        rw [same] at erased
        exact (erased.trans List.perm_append_comm).cons_inv
      simp only [intoSortedVec]
      rw [split, List.dropLast_concat]
      exact ascending_unique (StableRanking.sortByKey_sorted id _) (List.pairwise_append.mp sorted).1
        ((StableRanking.sortByKey_perm id _).trans rest)

/-- One step of the scan keeps the `slots` least of the items so far. -/
theorem intoSortedVec_retain_step {slots : Nat} {heap : BinaryHeap α} (small : heap.len ≤ slots) (item : α) :
    (retain slots heap item).intoSortedVec = (heap.push item).intoSortedVec.take slots := by
  have length : (heap.push item).intoSortedVec.length = heap.len + 1 := length_intoSortedVec _
  unfold retain
  split
  · split
    · rename_i outgrown
      have full : (heap.push item).intoSortedVec.length = slots + 1 := by
        rw [length_intoSortedVec] at length ⊢
        omega
      rw [intoSortedVec_pop, List.dropLast_eq_take, full, Nat.add_sub_cancel]
    · rename_i fits
      rw [List.take_of_length_le]
      rw [length_intoSortedVec]
      omega
  · rename_i none
    have noSlots : slots = 0 := by omega
    have empty : heap.items = [] := List.eq_nil_of_length_eq_zero (by unfold len at small; omega)
    simp [noSlots, intoSortedVec, empty, StableRanking.sortByKey]

/-- A whole scan keeps the `slots` least items, in whatever order it met them. -/
theorem intoSortedVec_retain (slots : Nat) (items : List α) :
    (items.foldl (retain slots) new).intoSortedVec = (StableRanking.sortByKey id items).take slots := by
  induction items using List.reverseRecOn with
  | nil => simp [new, intoSortedVec, StableRanking.sortByKey]
  | append_singleton items item ih =>
    have small : (items.foldl (retain slots) new).len ≤ slots := by
      rw [← length_intoSortedVec, ih]
      exact List.length_take_le _ _
    have pushed : ((items.foldl (retain slots) new).push item).intoSortedVec =
        StableRanking.place id item (items.foldl (retain slots) new).intoSortedVec := by
      rw [intoSortedVec, intoSortedVec, ← StableRanking.sortByKey_concat]
      exact sort_perm (List.perm_append_singleton item _).symm
    rw [List.foldl_concat, intoSortedVec_retain_step small, pushed, ih, StableRanking.sortByKey_concat,
      ← StableRanking.take_place]

end BinaryHeap

namespace LongestPrefix
variable {α : Type} (fits : List α → Prop) [DecidablePred fits]

/-- The longest prefix that fits, or the first `floor` items where those are more. -/
def longestPrefix (floor : Nat) (items : List α) : List α :=
  items.take (max floor (Nat.findGreatest (fun count => fits (items.take count)) items.length))

/-- Items given up from the tail, last first, down to `floor` of them. -/
def trim (floor : Nat) : List α → List α
  | [] => []
  | last :: front =>
    if floor < front.length + 1 ∧ ¬ fits (last :: front).reverse then trim floor front else last :: front

private theorem findGreatest_concat {items : List α} {last : α} (exceeds : ¬ fits (items ++ [last])) :
    Nat.findGreatest (fun count => fits ((items ++ [last]).take count)) (items.length + 1) =
      Nat.findGreatest (fun count => fits (items.take count)) items.length := by
  obtain ⟨within, found, none⟩ := Nat.findGreatest_eq_iff.mp
    (rfl : Nat.findGreatest (fun count => fits (items.take count)) items.length = _)
  refine Nat.findGreatest_eq_iff.mpr ⟨within.trans (Nat.le_succ _), fun positive => ?_, fun count above below => ?_⟩
  · rw [List.take_append_of_le_length within]
    exact found positive
  · rcases Nat.lt_or_ge items.length count with past | inside
    · have width : (items ++ [last]).length = items.length + 1 := List.length_append
      rw [List.take_of_length_le (by omega)]
      exact exceeds
    · rw [List.take_append_of_le_length inside]
      exact none above inside

/-- Giving up items from the tail until the rest fits leaves the longest prefix that fits. -/
theorem trim_reverse (floor : Nat) (items : List α) :
    (trim fits floor items.reverse).reverse = longestPrefix fits floor items := by
  induction items using List.reverseRecOn with
  | nil => simp [trim, longestPrefix]
  | append_singleton items last ih =>
    have whole : (last :: items.reverse).reverse = items ++ [last] := by simp
    rw [List.reverse_append, List.reverse_singleton, List.singleton_append, trim, whole, List.length_reverse]
    split
    · rename_i cut
      rw [ih]
      simp only [longestPrefix]
      rw [List.length_append, List.length_singleton, findGreatest_concat fits cut.2,
        List.take_append_of_le_length (Nat.max_le.mpr ⟨by omega, Nat.findGreatest_le _⟩)]
    · rename_i stays
      rw [whole, longestPrefix, List.take_of_length_le]
      rw [List.length_append, List.length_singleton]
      by_cases short : floor < items.length + 1
      · have fit : fits ((items ++ [last]).take (items.length + 1)) := by
          rw [List.take_of_length_le (by simp)]
          exact not_not.mp fun exceeds => stays ⟨short, exceeds⟩
        exact (Nat.le_findGreatest le_rfl fit).trans (Nat.le_max_right _ _)
      · exact (not_lt.mp short).trans (Nat.le_max_left _ _)

theorem longestPrefix_whole {items : List α} (fit : fits items) (floor : Nat) :
    longestPrefix fits floor items = items := by
  have whole : fits (items.take items.length) := by rwa [List.take_length]
  exact List.take_of_length_le ((Nat.le_findGreatest le_rfl whole).trans (Nat.le_max_right _ _))

end LongestPrefix

/-- Of distinct items, a shorter prefix leaves one out. -/
theorem prefix_misses {α : Type} {front whole : List α} (leads : front <+: whole) (distinct : whole.Nodup) :
    front.length < whole.length ↔ ∃ item ∈ whole, item ∉ front := by
  constructor
  · intro shorter
    by_contra misses
    push Not at misses
    exact absurd (List.subperm_of_subset distinct misses).length_le (not_le.mpr shorter)
  · rintro ⟨item, held, missed⟩
    refine lt_of_le_of_ne leads.length_le fun same => missed ?_
    rwa [leads.eq_of_length same]

end QuipValidator
