import QuipValidator.IsingEnergy

/-! When the checked energy sum goes through. Every field and coupling is an `i32`
and every spin a sign, so a sum of fewer than `2 ^ 32` terms stays inside `i64`
and no intermediate total overflows either. -/
namespace QuipValidator.IsingEnergy
open Fallible IsingValidation

/-- The largest magnitude of an `i32`. -/
def termBound : Int := 2 ^ 31

/-- The running total of `terms` terms. -/
def Within (terms : Nat) (total : Int) : Prop := -(termBound * terms) ≤ total ∧ total ≤ termBound * terms

/-- A value of an `i32`, whatever sign it is taken with. -/
def SmallTerm (value : Int) : Prop := -termBound ≤ value ∧ value ≤ termBound

private theorem SmallTerm.spin {value spin : Int} (small : SmallTerm value) (isSpin : IsSpin spin) : SmallTerm (value * spin) := by
  obtain ⟨low, high⟩ := small
  rcases isSpin with rfl | rfl <;> constructor <;> omega

private theorem checkedAdd_within {terms : Nat} {total term : Int} (within : Within terms total) (small : SmallTerm term)
    (few : terms + 1 < 2 ^ 32) : checkedAdd total term = .ok (total + term) ∧ Within (terms + 1) (total + term) := by
  obtain ⟨low, high⟩ := within
  obtain ⟨least, most⟩ := small
  simp only [termBound] at low high least most
  refine ⟨?_, ?_⟩
  · apply checkedAdd_success.mpr
    simp only [i64Min, i64Max, and_true]
    omega
  · simp only [Within, termBound]
    omega

private theorem addFields_runs {solution : List Int} (spins : ∀ spin ∈ solution, IsSpin spin) (h : List Int)
    (small : ∀ field ∈ h, SmallTerm field) (position terms : Nat) (energy : Int) (within : Within terms energy)
    (inside : position + h.length ≤ solution.length) (few : terms + h.length < 2 ^ 32) :
    ∃ total, addFields solution position energy h = .ok total ∧ Within (terms + h.length) total := by
  induction h generalizing position terms energy with
  | nil => exact ⟨energy, rfl, within⟩
  | cons field rest ih =>
    rw [List.length_cons] at inside few
    obtain ⟨spin, there⟩ : ∃ spin, solution[position]? = some spin := ⟨_, List.getElem?_eq_getElem (by omega)⟩
    have isSpin := spins spin (List.mem_of_getElem? there)
    obtain ⟨added, grown⟩ := checkedAdd_within within ((small field List.mem_cons_self).spin isSpin) (by omega)
    obtain ⟨total, ran, bounded⟩ := ih (fun other member => small other (List.mem_cons_of_mem _ member))
      (position + 1) (terms + 1) _ grown (by omega) (by omega)
    refine ⟨total, ?_, ?_⟩
    · simp only [addFields, bind_success, spinAt, expect_success]
      exact ⟨_, there, _, added, ran⟩
    · rw [List.length_cons, show terms + (rest.length + 1) = terms + 1 + rest.length by omega]
      exact bounded

private theorem addCouplings_runs {nodes : List Nat} {edges : List (Nat × Nat)} {topology : TopologyIndex}
    (built : TopologyIndex.new nodes edges = .ok topology) {solution : List Int}
    (width : solution.length = nodes.length) (spins : ∀ spin ∈ solution, IsSpin spin)
    (pairs : List ((Nat × Nat) × Int)) (known : ∀ pair ∈ pairs, pair.1.1 ∈ nodes ∧ pair.1.2 ∈ nodes)
    (small : ∀ pair ∈ pairs, SmallTerm pair.2) (terms : Nat) (energy : Int) (within : Within terms energy)
    (few : terms + pairs.length < 2 ^ 32) :
    ∃ total, addCouplings solution topology energy pairs = .ok total ∧ Within (terms + pairs.length) total := by
  have located := (TopologyIndex.new_spec built).2
  -- Every listed node has a position, and the solution has a spin there.
  have reads : ∀ node ∈ nodes, ∃ place spin, topology.position node = some place ∧ solution[place]? = some spin ∧
      IsSpin spin := by
    intro node member
    have inside : nodes.idxOf node < solution.length := width ▸ List.idxOf_lt_length_of_mem member
    refine ⟨nodes.idxOf node, solution[nodes.idxOf node], ?_, List.getElem?_eq_getElem inside,
      spins _ (List.getElem_mem inside)⟩
    rw [located node, if_pos member]
  induction pairs generalizing terms energy with
  | nil => exact ⟨energy, rfl, within⟩
  | cons pair rest ih =>
    obtain ⟨⟨u, v⟩, coupling⟩ := pair
    rw [List.length_cons] at few
    obtain ⟨uKnown, vKnown⟩ := known _ List.mem_cons_self
    obtain ⟨uPos, uSpin, uAt, uRead, uSign⟩ := reads u uKnown
    obtain ⟨vPos, vSpin, vAt, vRead, vSign⟩ := reads v vKnown
    have term : SmallTerm (coupling * uSpin * vSpin) := ((small _ List.mem_cons_self).spin uSign).spin vSign
    obtain ⟨added, grown⟩ := checkedAdd_within within term (by omega)
    obtain ⟨total, ran, bounded⟩ := ih (fun other member => known other (List.mem_cons_of_mem _ member))
      (fun other member => small other (List.mem_cons_of_mem _ member)) (terms + 1) _ grown (by omega)
    refine ⟨total, ?_, ?_⟩
    · simp only [addCouplings, bind_success, spinAt, expect_success, okOr_success]
      exact ⟨uPos, uAt, vPos, vAt, uSpin, uRead, vSpin, vRead, _, added, ran⟩
    · rw [List.length_cons, show terms + (rest.length + 1) = terms + 1 + rest.length by omega]
      exact bounded

/-- The energy of a spin vector of the right length is computed, for `i32` fields
and couplings on fewer than `2 ^ 32` nodes and edges. -/
theorem energyOfSolutionIndexed_runs {nodes : List Nat} {edges : List (Nat × Nat)} {h j solution : List Int}
    {topology : TopologyIndex} (built : TopologyIndex.new nodes edges = .ok topology)
    (known : ∀ edge ∈ edges, edge.1 ∈ nodes ∧ edge.2 ∈ nodes) (occupied : nodes ≠ [])
    (width : solution.length = nodes.length) (fields : h.length = nodes.length) (couplings : j.length = edges.length)
    (spins : ∀ spin ∈ solution, IsSpin spin) (smallH : ∀ field ∈ h, SmallTerm field)
    (smallJ : ∀ coupling ∈ j, SmallTerm coupling) (few : nodes.length + edges.length < 2 ^ 32) :
    ∃ energy, energyOfSolutionIndexed solution h edges j topology = .ok energy := by
  obtain ⟨subtotal, added, within⟩ := addFields_runs spins h smallH 0 0 0 (by simp [Within]) (by omega) (by omega)
  have pairs : (edges.zip j).length = edges.length := by
    rw [List.length_zip, couplings, Nat.min_self]
  obtain ⟨total, ran, _⟩ := addCouplings_runs built width spins (edges.zip j)
    (fun pair member => known pair.1 (List.of_mem_zip member).1)
    (fun pair member => smallJ pair.2 (List.of_mem_zip member).2) (0 + h.length) subtotal within (by omega)
  refine ⟨total, ?_⟩
  have shaped : validateShapeLengths solution h edges j topology.len = .ok () := by
    rw [validateShapeLengths_success, (TopologyIndex.new_spec built).1]
    exact ⟨fun empty => occupied (List.length_eq_zero_iff.mp empty), width, fields, couplings.symm⟩
  simp only [energyOfSolutionIndexed, bind_success]
  exact ⟨(), shaped, (), (ensureValidSpins_success _ _).mpr spins, subtotal, added, ran⟩

end QuipValidator.IsingEnergy
