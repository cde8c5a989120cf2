import Mathlib.Algebra.Order.Ring.Int
import Mathlib.Data.List.Sort
import Mathlib.Order.Defs.LinearOrder

/-! Rankings of a growing history. Each owner counts with its latest entry
only; entries are ranked by key and, at equal keys, by age. The full ranking is
the stable sort of the latest entries, and the results here say how appending
one entry changes it, and that the first `n` places can be kept up to date from
the first `n` places alone. -/
namespace QuipValidator.StableRanking

variable {ε α κ : Type} [DecidableEq α] [LinearOrder κ] (owner : ε → α) (key : ε → κ)

/-- `sort_by_key`: the stable ascending sort. -/
def sortByKey (entries : List ε) : List ε := entries.insertionSort fun a b => key a ≤ key b

/-- Insert behind every entry whose key is not greater. -/
def place (entry : ε) (entries : List ε) : List ε :=
  entries.orderedInsert (fun a b => key a < key b) entry

/-- The entries no later entry of the same owner supersedes, oldest first. -/
def latest : List ε → List ε
  | [] => []
  | entry :: rest => if owner entry ∈ rest.map owner then latest rest else entry :: latest rest

/-- All owners of a history, each with its latest entry, best first. -/
def ranking (history : List ε) : List ε := sortByKey key (latest owner history)

private theorem orderedInsert_place (first last : ε) (entries : List ε) :
    (place key last entries).orderedInsert (fun a b => key a ≤ key b) first =
      place key last (entries.orderedInsert (fun a b => key a ≤ key b) first) := by
  induction entries with
  | nil =>
    by_cases le : key first ≤ key last
    · simp [place, le, not_lt.mpr le]
    · simp [place, le, not_le.mp le]
  | cons entry rest ih =>
    simp only [place] at ih
    by_cases below : key last < key entry
    · by_cases le : key first ≤ key last
      · have before : key first ≤ key entry := le.trans below.le
        simp [place, below, le, before, not_lt.mpr le]
      · by_cases before : key first ≤ key entry
        · simp [place, below, le, before, not_le.mp le]
        · simp [place, below, le, before]
    · have above : key entry ≤ key last := not_lt.mp below
      by_cases before : key first ≤ key entry
      · simp [place, below, before, before.trans above]
      · simp [place, below, before, ih]

/-- Appending an entry before a stable sort is placing it after the sort. -/
theorem sortByKey_concat (entries : List ε) (entry : ε) :
    sortByKey key (entries ++ [entry]) = place key entry (sortByKey key entries) := by
  induction entries with
  | nil => rfl
  | cons first rest ih =>
    simp only [sortByKey, List.cons_append, List.insertionSort_cons] at ih ⊢
    rw [ih, orderedInsert_place]

private theorem orderedInsert_comm_of_lt {low high : ε} (below : key low < key high) (entries : List ε) :
    (entries.orderedInsert (fun a b => key a ≤ key b) low).orderedInsert
        (fun a b => key a ≤ key b) high =
      (entries.orderedInsert (fun a b => key a ≤ key b) high).orderedInsert
        (fun a b => key a ≤ key b) low := by
  have above : ¬ key high ≤ key low := not_le.mpr below
  induction entries with
  | nil => simp [above, below.le]
  | cons entry rest ih =>
    by_cases lowFits : key low ≤ key entry
    · by_cases highFits : key high ≤ key entry
      · simp [lowFits, highFits, above, below.le]
      · simp [lowFits, highFits, above]
    · have highOut : ¬ key high ≤ key entry := fun le => lowFits (below.le.trans le)
      simp [lowFits, highOut, ih]

/-- A stable sort does not see an entry moved across strictly greater ones. -/
theorem sortByKey_move {entry : ε} {middle : List ε} (greater : ∀ other ∈ middle, key entry < key other)
    (front back : List ε) :
    sortByKey key (front ++ (middle ++ entry :: back)) =
      sortByKey key (front ++ (entry :: (middle ++ back))) := by
  induction front with
  | cons first rest ih =>
    simp only [sortByKey, List.cons_append, List.insertionSort_cons] at ih ⊢
    rw [ih]
  | nil =>
    simp only [List.nil_append]
    induction middle with
    | nil => rfl
    | cons other middle ih =>
      have tail := ih fun one member => greater one (List.mem_cons_of_mem _ member)
      simp only [sortByKey, List.cons_append, List.insertionSort_cons] at tail ⊢
      rw [tail, orderedInsert_comm_of_lt key (greater other List.mem_cons_self)]

theorem sortByKey_sorted (entries : List ε) :
    (sortByKey key entries).Pairwise fun a b => key a ≤ key b :=
  have : Std.Total fun a b : ε => key a ≤ key b := ⟨fun a b => le_total (key a) (key b)⟩
  have : IsTrans ε fun a b => key a ≤ key b := ⟨fun _ _ _ => le_trans⟩
  List.pairwise_insertionSort _ entries

theorem sortByKey_perm (entries : List ε) : (sortByKey key entries).Perm entries :=
  List.perm_insertionSort _ entries

theorem sortByKey_eq_self {entries : List ε} (sorted : entries.Pairwise fun a b => key a ≤ key b) :
    sortByKey key entries = entries :=
  sorted.insertionSort_eq

private theorem filter_orderedInsert (keep : ε → Bool) (entry : ε) {entries : List ε}
    (sorted : entries.Pairwise fun a b => key a ≤ key b) :
    (entries.orderedInsert (fun a b => key a ≤ key b) entry).filter keep =
      if keep entry then (entries.filter keep).orderedInsert (fun a b => key a ≤ key b) entry
      else entries.filter keep := by
  induction entries with
  | nil => by_cases kept : keep entry <;> simp [kept]
  | cons first rest ih =>
    obtain ⟨headLE, restSorted⟩ := List.pairwise_cons.mp sorted
    by_cases fits : key entry ≤ key first
    · by_cases kept : keep entry
      · have front : (rest.filter keep).orderedInsert (fun a b => key a ≤ key b) entry =
            entry :: rest.filter keep := by
          cases shape : rest.filter keep with
          | nil => rfl
          | cons next others =>
            have member : next ∈ rest.filter keep := by simp [shape]
            simp [fits.trans (headLE next (List.mem_filter.mp member).1)]
        by_cases firstKept : keep first <;> simp [fits, kept, firstKept, front]
      · simp [fits, kept]
    · by_cases firstKept : keep first
      · simp only [List.orderedInsert_cons, fits, ↓reduceIte, List.filter_cons, firstKept, ih restSorted]
        by_cases kept : keep entry <;> simp [kept]
      · simp [fits, firstKept, ih restSorted]

/-- Sorting and dropping entries commute. -/
theorem sortByKey_filter (keep : ε → Bool) (entries : List ε) :
    sortByKey key (entries.filter keep) = (sortByKey key entries).filter keep := by
  induction entries with
  | nil => rfl
  | cons entry rest ih =>
    have sorted := sortByKey_sorted key rest
    simp only [sortByKey] at ih sorted
    simp only [sortByKey, List.insertionSort_cons, filter_orderedInsert key keep entry sorted, ← ih]
    by_cases kept : keep entry <;> simp [kept]

theorem latest_concat (history : List ε) (entry : ε) :
    latest owner (history ++ [entry]) =
      (latest owner history).filter (fun other => decide (owner other ≠ owner entry)) ++ [entry] := by
  induction history with
  | nil => simp [latest]
  | cons first rest ih =>
    simp only [List.cons_append, latest, List.map_append, List.map_cons, List.map_nil, List.mem_append,
      List.mem_singleton, ih]
    by_cases superseded : owner first ∈ rest.map owner
    · simp only [superseded, true_or, ↓reduceIte]
    · by_cases same : owner first = owner entry
      · simp only [same, or_true, ↓reduceIte]
        rw [same] at superseded
        simp [superseded, same]
      · simp [superseded, same]

theorem mem_of_mem_latest {history : List ε} {entry : ε} (member : entry ∈ latest owner history) :
    entry ∈ history := by
  induction history with
  | nil => simp [latest] at member
  | cons first rest ih =>
    simp only [latest] at member
    split at member
    · exact List.mem_cons_of_mem _ (ih member)
    · rcases List.mem_cons.mp member with rfl | member
      · exact List.mem_cons_self
      · exact List.mem_cons_of_mem _ (ih member)

/-- No owner is listed twice. -/
theorem latest_nodup (history : List ε) : ((latest owner history).map owner).Nodup := by
  induction history with
  | nil => simp [latest]
  | cons first rest ih =>
    simp only [latest]
    split
    · exact ih
    · rename_i unseen
      rw [List.map_cons, List.nodup_cons]
      refine ⟨?_, ih⟩
      intro listed
      obtain ⟨other, member, same⟩ := List.mem_map.mp listed
      exact unseen (List.mem_map.mpr ⟨other, mem_of_mem_latest owner member, same⟩)

/-- Every owner of the history is listed. -/
theorem owner_mem_latest (history : List ε) (name : α) :
    name ∈ (latest owner history).map owner ↔ name ∈ history.map owner := by
  induction history with
  | nil => simp [latest]
  | cons first rest ih =>
    simp only [latest, List.map_cons, List.mem_cons]
    split
    · rename_i superseded
      rw [ih]
      constructor
      · exact Or.inr
      · rintro (rfl | member)
        · exact superseded
        · exact member
    · simp only [List.map_cons, List.mem_cons, ih]

theorem ranking_nodup (history : List ε) : ((ranking owner key history).map owner).Nodup :=
  ((sortByKey_perm key _).map owner).nodup_iff.mpr (latest_nodup owner history)

theorem ranking_sorted (history : List ε) :
    (ranking owner key history).Pairwise fun a b => key a ≤ key b :=
  sortByKey_sorted key _

/-- One more entry leaves its owner's old place and is placed anew. -/
theorem ranking_concat (history : List ε) (entry : ε) :
    ranking owner key (history ++ [entry]) =
      place key entry ((ranking owner key history).filter fun other => decide (owner other ≠ owner entry)) := by
  rw [ranking, latest_concat, sortByKey_concat, sortByKey_filter, ranking]

private theorem place_append_of_lt {entry : ε} {front : List ε} (greater : ∃ other ∈ front, key entry < key other)
    (back : List ε) : place key entry (front ++ back) = place key entry front ++ back := by
  induction front with
  | nil => obtain ⟨_, member, _⟩ := greater; cases member
  | cons first rest ih =>
    simp only [place] at ih
    by_cases below : key entry < key first
    · simp [place, below]
    · have inRest : ∃ other ∈ rest, key entry < key other := by
        obtain ⟨other, member, less⟩ := greater
        rcases List.mem_cons.mp member with rfl | member
        · exact absurd less below
        · exact ⟨other, member, less⟩
      simp [place, below, ih inRest]

private theorem place_append_of_le {entry : ε} {front : List ε} (least : ∀ other ∈ front, key other ≤ key entry)
    (back : List ε) : place key entry (front ++ back) = front ++ place key entry back := by
  induction front with
  | nil => rfl
  | cons first rest ih =>
    have fits : ¬ key entry < key first := not_lt.mpr (least first List.mem_cons_self)
    have tail := ih fun other member => least other (List.mem_cons_of_mem _ member)
    simp only [place] at tail ⊢
    simp [fits, tail]

private theorem place_append_of_greater {entry : ε} {back : List ε}
    (greater : ∀ other ∈ back, key entry < key other) (front : List ε) :
    place key entry (front ++ back) = place key entry front ++ back := by
  induction front with
  | nil =>
    cases back with
    | nil => rfl
    | cons first rest => simp [place, greater first List.mem_cons_self]
  | cons first rest ih =>
    simp only [place] at ih
    by_cases below : key entry < key first <;> simp [place, below, ih]

private theorem place_length (entry : ε) (entries : List ε) :
    (place key entry entries).length = entries.length + 1 := by
  simp [place, List.orderedInsert_length]

/-- The first `n` places after placing depend on the first `n` places before. -/
theorem take_place (n : Nat) (entry : ε) (entries : List ε) :
    (place key entry entries).take n = (place key entry (entries.take n)).take n := by
  by_cases short : entries.length ≤ n
  · rw [List.take_of_length_le short]
  · have width : (entries.take n).length = n := by
      rw [List.length_take]
      omega
    have split : entries = entries.take n ++ entries.drop n := (List.take_append_drop n entries).symm
    by_cases greater : ∃ other ∈ entries.take n, key entry < key other
    · conv_lhs => rw [split]
      rw [place_append_of_lt key greater, List.take_append_of_le_length]
      rw [place_length, width]
      omega
    · have least : ∀ other ∈ entries.take n, key other ≤ key entry := by
        intro other member
        exact not_lt.mp fun less => greater ⟨other, member, less⟩
      have kept : place key entry (entries.take n) = entries.take n ++ [entry] := by
        simpa [place] using place_append_of_le key least []
      conv_lhs => rw [split]
      rw [place_append_of_le key least, kept, List.take_append_of_le_length (by omega),
        List.take_append_of_le_length (by omega)]

section TopOf
variable {history : List ε} {entry : ε} (n : Nat)

/-- An owner outside the first `n` places enters them by a push and a stable
sort, whether or not it holds a worse place further down. -/
theorem take_ranking_push
    (absent : ∀ other ∈ (ranking owner key history).take n, owner other ≠ owner entry) :
    (sortByKey key ((ranking owner key history).take n ++ [entry])).take n =
      (ranking owner key (history ++ [entry])).take n := by
  have sorted : ((ranking owner key history).take n).Pairwise fun a b => key a ≤ key b :=
    (ranking_sorted owner key history).sublist (List.take_sublist n _)
  rw [sortByKey_concat, sortByKey_eq_self key sorted, ranking_concat]
  conv_rhs => rw [take_place]
  congr 2
  -- Dropping an owner below the cut does not move anything above it.
  generalize ranking owner key history = ranked at absent
  have keptFront : (ranked.take n).filter (fun other => decide (owner other ≠ owner entry)) = ranked.take n := by
    apply List.filter_eq_self.mpr
    intro other member
    simpa using absent other member
  conv_rhs => rw [← List.take_append_drop n ranked, List.filter_append, keptFront]
  by_cases short : ranked.length ≤ n
  · simp [List.take_of_length_le short, List.drop_of_length_le short]
  · rw [List.take_append_of_le_length (by rw [List.length_take]; omega), List.take_take, Nat.min_self]

/-- An owner inside the first `n` places improves in place: overwriting its
entry and sorting stably gives its new place. -/
theorem take_ranking_replace {front back : List ε} {old : ε}
    (listed : (ranking owner key history).take n = front ++ old :: back)
    (same : owner old = owner entry) (improved : key entry < key old) :
    (sortByKey key (front ++ entry :: back)).take n = (ranking owner key (history ++ [entry])).take n := by
  have sorted : (front ++ old :: back).Pairwise fun a b => key a ≤ key b := by
    rw [← listed]
    exact (ranking_sorted owner key history).sublist (List.take_sublist n _)
  have distinct : ((front ++ old :: back).map owner).Nodup := by
    rw [← listed]
    exact (ranking_nodup owner key history).sublist ((List.take_sublist n _).map owner)
  obtain ⟨frontSorted, oldSorted, crossing⟩ := List.pairwise_append.mp sorted
  obtain ⟨oldLE, backSorted⟩ := List.pairwise_cons.mp oldSorted
  have joined : (front ++ back).Pairwise fun a b => key a ≤ key b :=
    List.pairwise_append.mpr ⟨frontSorted, backSorted,
      fun a inFront b inBack => crossing a inFront b (List.mem_cons_of_mem _ inBack)⟩
  have overwritten : sortByKey key (front ++ entry :: back) = place key entry (front ++ back) := by
    have greater : ∀ other ∈ back, key entry < key other :=
      fun other member => lt_of_lt_of_le improved (oldLE other member)
    have moved := sortByKey_move key greater front []
    simp only [List.append_nil] at moved
    rw [← moved, ← List.append_assoc, sortByKey_concat, sortByKey_eq_self key joined]
  rw [overwritten, ranking_concat]
  have frontKept : ∀ other ∈ front, owner other ≠ owner entry := by
    intro other member equal
    rw [List.map_append, List.map_cons] at distinct
    exact (List.nodup_append.mp distinct).2.2 (owner other) (List.mem_map_of_mem member)
      (owner old) List.mem_cons_self (equal.trans same.symm)
  have backKept : ∀ other ∈ back, owner other ≠ owner entry := by
    intro other member equal
    rw [List.map_append, List.map_cons] at distinct
    have fresh := (List.nodup_cons.mp (List.nodup_append.mp distinct).2.1).1
    exact fresh (same.trans equal.symm ▸ List.mem_map_of_mem member)
  have shape : (ranking owner key history).filter (fun other => decide (owner other ≠ owner entry)) =
      (front ++ back) ++
        ((ranking owner key history).drop n).filter (fun other => decide (owner other ≠ owner entry)) := by
    conv_lhs => rw [← List.take_append_drop n (ranking owner key history), listed]
    have keptFront : front.filter (fun other => decide (owner other ≠ owner entry)) = front :=
      List.filter_eq_self.mpr fun other member => by simpa using frontKept other member
    have keptBack : back.filter (fun other => decide (owner other ≠ owner entry)) = back :=
      List.filter_eq_self.mpr fun other member => by simpa using backKept other member
    rw [List.filter_append, List.filter_append, List.filter_cons, keptFront, keptBack]
    simp [same]
  -- Everything below the cut is worse than the old entry, so the new one goes above it.
  have belowCut : ∀ other ∈ ((ranking owner key history).drop n).filter
      (fun other => decide (owner other ≠ owner entry)), key entry < key other := by
    intro other member
    have order := ranking_sorted owner key history
    rw [← List.take_append_drop n (ranking owner key history), listed] at order
    exact lt_of_lt_of_le improved
      ((List.pairwise_append.mp order).2.2 old (by simp) other (List.mem_filter.mp member).1)
  rw [shape, place_append_of_greater key belowCut]
  by_cases short : (ranking owner key history).length ≤ n
  · simp [List.drop_of_length_le short]
  · have width : (front ++ old :: back).length = n := by
      rw [← listed, List.length_take]
      omega
    rw [List.take_append_of_le_length]
    rw [place_length]
    simp only [List.length_append, List.length_cons] at width ⊢
    omega

end TopOf

section FirstLeast
variable {owner}
variable {history : List ε} {best entry : ε}

/-- `best` was the first of the history to reach the least key. -/
def FirstLeast (history : List ε) (best : ε) : Prop :=
  ∃ earlier later, history = earlier ++ best :: later ∧ (∀ other ∈ earlier, key best < key other) ∧
    ∀ other ∈ later, key best ≤ key other

theorem FirstLeast.least (first : FirstLeast key history best) : ∀ other ∈ history, key best ≤ key other := by
  obtain ⟨earlier, later, rfl, before, behind⟩ := first
  intro other member
  rcases List.mem_append.mp member with early | late
  · exact (before other early).le
  · rcases List.mem_cons.mp late with rfl | late
    · exact le_rfl
    · exact behind other late

theorem FirstLeast.ne_nil (first : FirstLeast key history best) : history ≠ [] := by
  obtain ⟨earlier, later, rfl, _⟩ := first
  simp

/-- The first entry of least key is one entry. -/
theorem FirstLeast.unique {other : ε} (first : FirstLeast key history best) (second : FirstLeast key history other) :
    best = other := by
  obtain ⟨earlier, later, rfl, before, behind⟩ := first
  obtain ⟨front, rest, same, ahead, after⟩ := second
  rcases List.append_eq_append_iff.mp same with ⟨gap, rfl, tail⟩ | ⟨gap, rfl, tail⟩
  · cases gap with
    | nil => exact (List.cons.inj tail).1
    | cons head gap =>
      obtain ⟨rfl, rfl⟩ := List.cons.inj tail
      have strict := ahead best (by simp)
      exact absurd (behind other (by simp)) (not_le.mpr strict)
  · cases gap with
    | nil => exact (List.cons.inj tail).1.symm
    | cons head gap =>
      obtain ⟨rfl, rfl⟩ := List.cons.inj tail
      have strict := before other (by simp)
      exact absurd (after best (by simp)) (not_le.mpr strict)

/-- A strictly better entry takes the lead. -/
theorem firstLeast_improve (better : ∀ other ∈ history, key entry < key other) :
    FirstLeast key (history ++ [entry]) entry :=
  ⟨history, [], rfl, better, fun _ none => nomatch none⟩

/-- An entry that only ties or trails leaves the lead where it is. -/
theorem FirstLeast.keep (first : FirstLeast key history best) (trails : key best ≤ key entry) :
    FirstLeast key (history ++ [entry]) best := by
  obtain ⟨earlier, later, rfl, before, behind⟩ := first
  refine ⟨earlier, later ++ [entry], by simp, before, ?_⟩
  intro other member
  rcases List.mem_append.mp member with old | new
  · exact behind other old
  · rw [List.mem_singleton.mp new]
    exact trails

end FirstLeast
end QuipValidator.StableRanking
