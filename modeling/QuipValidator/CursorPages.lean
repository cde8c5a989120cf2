import QuipValidator.StableRanking

/-! Paging through an unordered collection by a cursor. A page is what lies
strictly behind the cursor, sorted by key and cut to a limit; a client asks again
behind the last row it got and stops at an empty page. With distinct keys the
pages put together are the whole collection, sorted: after each call the rows seen
are a prefix of it and the cursor is the last of them. -/
namespace QuipValidator.CursorPages
open StableRanking

variable {V K : Type} [LinearOrder K] (key : V → K)

/-- The row lies strictly behind the cursor. -/
def behind (cursor : Option K) (row : V) : Bool := (cursor.map fun last => decide (last < key row)).getD true

/-- One page. -/
def page (rows : List V) (limit : Nat) (cursor : Option K) : List V :=
  (sortByKey key (rows.filter (behind key cursor))).take limit

/-- The pages a client collects until one is empty; `none` when `fuel` calls do not get there. -/
def crawl (fetch : Option K → List V) : Nat → Option K → Option (List (List V))
  | 0, _ => none
  | fuel + 1, cursor =>
    match (fetch cursor).getLast? with
    | none => some []
    | some last => (crawl fetch fuel (some (key last))).map fun rest => fetch cursor :: rest

variable {key}

/-- Distinct keys are sorted strictly. -/
theorem sortByKey_ascending {rows : List V} (distinct : (rows.map key).Nodup) :
    (sortByKey key rows).Pairwise fun a b => key a < key b := by
  have apart : (sortByKey key rows).Pairwise fun a b => key a ≠ key b :=
    List.pairwise_map.mp (((sortByKey_perm key rows).map key).nodup_iff.mpr distinct)
  exact (sortByKey_sorted key rows).imp₂ (fun _ _ le ne => lt_of_le_of_ne le ne) apart

/-- Behind the last row of a prefix lies the rest. -/
private theorem filter_behind {seen rest : List V} (ascending : (seen ++ rest).Pairwise fun a b => key a < key b) :
    (seen ++ rest).filter (behind key (seen.getLast?.map key)) = rest := by
  obtain ⟨before, _, across⟩ := List.pairwise_append.mp ascending
  rcases List.eq_nil_or_concat seen with rfl | ⟨earlier, last, rfl⟩
  · simp [behind]
  · rw [List.concat_eq_append] at before across ⊢
    have covered : ∀ row ∈ earlier ++ [last], ¬ key last < key row := by
      intro row member
      rcases List.mem_append.mp member with there | here
      · exact lt_asymm ((List.pairwise_append.mp before).2.2 row there last (List.mem_singleton_self last))
      · rw [List.mem_singleton.mp here]
        exact lt_irrefl _
    have ahead : ∀ row ∈ rest, key last < key row :=
      across last (List.mem_append_right _ (List.mem_singleton_self last))
    rw [List.filter_append, List.filter_eq_nil_iff.mpr, List.filter_eq_self.mpr, List.nil_append]
    · intro row member
      simpa [behind] using ahead row member
    · intro row member
      simpa [behind] using covered row member

/-- One call after another, from the state in which `seen` has been collected. -/
private theorem crawl_rest {rows seen rest : List V} (distinct : (rows.map key).Nodup) {limit : Nat}
    (positive : 0 < limit) (split : sortByKey key rows = seen ++ rest) {fuel : Nat} (enough : rest.length < fuel) :
    ∃ pages, crawl key (page key rows limit) fuel (seen.getLast?.map key) = some pages ∧ pages.flatten = rest := by
  induction fuel generalizing seen rest with
  | zero => omega
  | succ fuel ih =>
    have fetched : page key rows limit (seen.getLast?.map key) = rest.take limit := by
      have ascending := sortByKey_ascending distinct
      rw [split] at ascending
      rw [page, sortByKey_filter, split, filter_behind ascending]
    rw [crawl, fetched]
    cases more : (rest.take limit).getLast? with
    | none =>
      have empty : rest = [] := by
        rcases List.take_eq_nil_iff.mp (List.getLast?_eq_none_iff.mp more) with zero | empty
        · omega
        · exact empty
      exact ⟨[], rfl, by rw [empty]; rfl⟩
    | some last =>
      have filled : rest.take limit ≠ [] := by
        intro empty
        rw [empty] at more
        cases more
      have occupied : 0 < (rest.take limit).length := List.length_pos_iff.mpr filled
      have cursor : (seen ++ rest.take limit).getLast? = some last := by
        rw [List.getLast?_append, more]
        rfl
      obtain ⟨pages, ran, whole⟩ := @ih (seen ++ rest.take limit) (rest.drop limit)
        (by rw [List.append_assoc, List.take_append_drop]; exact split)
        (by rw [List.length_take] at occupied; rw [List.length_drop]; omega)
      rw [cursor, Option.map_some] at ran
      refine ⟨rest.take limit :: pages, by simp only [ran, Option.map_some], ?_⟩
      rw [List.flatten_cons, whole, List.take_append_drop]

/-- Enough calls collect every row once, in ascending order. -/
theorem crawl_complete {rows : List V} (distinct : (rows.map key).Nodup) {limit : Nat} (positive : 0 < limit)
    {fuel : Nat} (enough : rows.length < fuel) :
    ∃ pages, crawl key (page key rows limit) fuel none = some pages ∧ pages.flatten.Perm rows ∧
      pages.flatten.Pairwise fun a b => key a < key b := by
  have same := sortByKey_perm key rows
  obtain ⟨pages, ran, whole⟩ := @crawl_rest V K _ key rows [] _ distinct limit positive rfl fuel
    (same.length_eq ▸ enough)
  exact ⟨pages, ran, whole ▸ same, whole ▸ sortByKey_ascending distinct⟩

end QuipValidator.CursorPages
