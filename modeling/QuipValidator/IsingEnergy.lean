import QuipValidator.IsingValidation

/-! `quantum-validation`, energy: the checked fixed-point sum the pallets score
solutions with, and the Ising energy it computes. -/
namespace QuipValidator.IsingEnergy
open Fallible IsingValidation

/-- `i64::checked_add`, with the overflow error its callers attach. -/
def checkedAdd (a b : Int) : Fallible ValidationError Int :=
  if i64Min ≤ a + b ∧ a + b ≤ i64Max then .ok (a + b) else fail .arithmeticOverflow

/-- Slice indexing. -/
def spinAt (solution : List Int) (position : Nat) : Fallible ValidationError Int :=
  expect solution[position]? "index out of bounds"

def validateShapeLengths (solution h : List Int) (edges : List (Nat × Nat)) (j : List Int)
    (nodeCount : Nat) : Fallible ValidationError Unit :=
  if nodeCount = 0 then fail .emptyNodes
  else if solution.length ≠ nodeCount then fail (.solutionLengthMismatch nodeCount solution.length)
  else if h.length ≠ nodeCount then fail (.fieldLengthMismatch nodeCount h.length)
  else if edges.length ≠ j.length then fail (.edgeWeightLengthMismatch edges.length j.length)
  else .ok ()

/-- The field loop: `h` from `position` on, added to `energy`. -/
def addFields (solution : List Int) (position : Nat) (energy : Int) : List Int → Fallible ValidationError Int
  | [] => .ok energy
  | field :: rest => do
    let spin ← spinAt solution position
    let total ← checkedAdd energy (field * spin)
    addFields solution (position + 1) total rest

/-- The coupling loop over `edges.iter().zip(j.iter())`. -/
def addCouplings (solution : List Int) (topology : TopologyIndex) (energy : Int) :
    List ((Nat × Nat) × Int) → Fallible ValidationError Int
  | [] => .ok energy
  | ((u, v), coupling) :: rest => do
    let uPos ← okOr (topology.position u) (.unknownNodeInEdge u)
    let vPos ← okOr (topology.position v) (.unknownNodeInEdge v)
    let uSpin ← spinAt solution uPos
    let vSpin ← spinAt solution vPos
    let total ← checkedAdd energy (coupling * uSpin * vSpin)
    addCouplings solution topology total rest

def energyOfSolutionIndexed (solution h : List Int) (edges : List (Nat × Nat)) (j : List Int)
    (topology : TopologyIndex) : Fallible ValidationError Int := do
  validateShapeLengths solution h edges j topology.len
  ensureValidSpins solution
  let energy ← addFields solution 0 0 h
  addCouplings solution topology energy (edges.zip j)

def energyOfSolution (solution h : List Int) (edges : List (Nat × Nat)) (j : List Int)
    (nodes : List Nat) : Fallible ValidationError Int := do
  validateShapeLengths solution h edges j nodes.length
  let topology ← TopologyIndex.new nodes edges
  energyOfSolutionIndexed solution h edges j topology

/-- The spin a configuration gives a node. -/
def spinOf (nodes : List Nat) (solution : List Int) (node : Nat) : Int :=
  solution.getD (nodes.idxOf node) 0

/-- What one weighted edge contributes. -/
def couplingTerm (nodes : List Nat) (solution : List Int) (weighted : (Nat × Nat) × Int) : Int :=
  weighted.2 * spinOf nodes solution weighted.1.1 * spinOf nodes solution weighted.1.2

/-- The Ising energy: fields times spins, plus couplings times the product of
their endpoints' spins. -/
def isingEnergy (nodes : List Nat) (edges : List (Nat × Nat)) (h j solution : List Int) : Int :=
  (List.zipWith (· * ·) h solution).sum + ((edges.zip j).map (couplingTerm nodes solution)).sum

@[simp] theorem checkedAdd_success {a b result : Int} :
    checkedAdd a b = .ok result ↔ (i64Min ≤ a + b ∧ a + b ≤ i64Max) ∧ a + b = result := by
  unfold checkedAdd
  split
  · rename_i fits
    simp [fits]
  · rename_i overflows
    simp only [fail, reduceCtorEq, false_iff]
    exact fun facts => overflows facts.1

@[simp] theorem validateShapeLengths_success {solution h j : List Int} {edges : List (Nat × Nat)}
    {nodeCount : Nat} {result : Unit} :
    validateShapeLengths solution h edges j nodeCount = .ok result ↔
      nodeCount ≠ 0 ∧ solution.length = nodeCount ∧ h.length = nodeCount ∧ edges.length = j.length := by
  unfold validateShapeLengths
  repeat' split
  all_goals simp_all [fail]

private theorem addFields_spec (solution : List Int) (h : List Int) (position : Nat) (energy total : Int)
    (start : energy ≤ i64Max) (ran : addFields solution position energy h = .ok total) :
    total = energy + (List.zipWith (· * ·) h (solution.drop position)).sum ∧ total ≤ i64Max := by
  induction h generalizing position energy with
  | nil =>
    cases ran
    simpa using start
  | cons field rest ih =>
    simp only [addFields, bind_success, spinAt, expect_success, checkedAdd_success] at ran
    obtain ⟨spin, found, middle, ⟨bounds, same⟩, rest⟩ := ran
    subst same
    obtain ⟨value, within⟩ := ih (position + 1) _ bounds.2 rest
    have shape : solution.drop position = spin :: solution.drop (position + 1) :=
      List.drop_eq_getElem?_toList_append ▸ by simp [found]
    refine ⟨?_, within⟩
    rw [value, shape, List.zipWith_cons_cons, List.sum_cons]
    omega

private theorem addCouplings_spec {nodes : List Nat} {edges : List (Nat × Nat)} {topology : TopologyIndex}
    (built : TopologyIndex.new nodes edges = .ok topology) (solution : List Int)
    (pairs : List ((Nat × Nat) × Int)) (energy total : Int) (start : energy ≤ i64Max)
    (ran : addCouplings solution topology energy pairs = .ok total) :
    total = energy + (pairs.map (couplingTerm nodes solution)).sum ∧ total ≤ i64Max := by
  have located := (TopologyIndex.new_spec built).2
  -- A looked-up position is the linear-scan position, so the spin read is `spinOf`.
  have reads : ∀ node place spin, topology.position node = some place → solution[place]? = some spin →
      spinOf nodes solution node = spin := by
    intro node place spin positioned found
    rw [located node] at positioned
    split at positioned
    · cases positioned
      simp [spinOf, List.getD_eq_getElem?_getD, found]
    · cases positioned
  induction pairs generalizing energy with
  | nil =>
    cases ran
    simpa using start
  | cons pair rest ih =>
    obtain ⟨⟨u, v⟩, coupling⟩ := pair
    simp only [addCouplings, bind_success, spinAt, expect_success, okOr_success, checkedAdd_success] at ran
    obtain ⟨uPos, uAt, vPos, vAt, uSpin, uRead, vSpin, vRead, middle, ⟨bounds, same⟩, rest⟩ := ran
    subst same
    obtain ⟨value, within⟩ := ih _ bounds.2 rest
    refine ⟨?_, within⟩
    rw [value, List.map_cons, List.sum_cons, couplingTerm, reads u uPos uSpin uAt uRead, reads v vPos vSpin vAt vRead]
    dsimp only
    omega

/-- Whatever the indexed computation returns is the Ising energy of a vector
with one spin for each node. -/
theorem energyOfSolutionIndexed_exact {nodes : List Nat} {edges : List (Nat × Nat)} {h j solution : List Int}
    {topology : TopologyIndex} {energy : Int} (built : TopologyIndex.new nodes edges = .ok topology)
    (ran : energyOfSolutionIndexed solution h edges j topology = .ok energy) :
    solution.length = nodes.length ∧ nodes ≠ [] ∧ (∀ spin ∈ solution, IsSpin spin) ∧
      energy = isingEnergy nodes edges h j solution ∧ energy ≤ i64Max := by
  simp only [energyOfSolutionIndexed, bind_success, validateShapeLengths_success,
    ensureValidSpins_success, (TopologyIndex.new_spec built).1] at ran
  obtain ⟨_, ⟨occupied, width, _, _⟩, _, spins, fields, added, coupled⟩ := ran
  obtain ⟨fieldTotal, fieldBound⟩ := addFields_spec solution h 0 0 fields (by decide) added
  obtain ⟨total, bound⟩ := addCouplings_spec built solution _ fields energy fieldBound coupled
  refine ⟨width, fun empty => occupied (by simp [empty]), spins, ?_, bound⟩
  rw [total, fieldTotal, isingEnergy, List.drop_zero, Int.zero_add]

private theorem spinAt_safe {solution : List Int} {position : Nat} (inside : position < solution.length) :
    Safe (spinAt solution position) fun _ => True :=
  (safe_expect (List.getElem?_eq_getElem inside)).mono fun _ _ => trivial

private theorem checkedAdd_safe (a b : Int) : Safe (checkedAdd a b) fun _ => True := by
  unfold checkedAdd
  split <;> trivial

private theorem addFields_safe (solution h : List Int) (position : Nat) (energy : Int)
    (fits : position + h.length ≤ solution.length) :
    Safe (addFields solution position energy h) fun _ => True := by
  induction h generalizing position energy with
  | nil => trivial
  | cons field rest ih =>
    simp only [List.length_cons] at fits
    refine safe_bind (spinAt_safe (by omega)) fun spin _ => ?_
    refine safe_bind (checkedAdd_safe _ _) fun total _ => ?_
    exact ih _ _ (by omega)

private theorem addCouplings_safe (solution : List Int) (topology : TopologyIndex) (energy : Int)
    (pairs : List ((Nat × Nat) × Int))
    (inside : ∀ node place, topology.position node = some place → place < solution.length) :
    Safe (addCouplings solution topology energy pairs) fun _ => True := by
  induction pairs generalizing energy with
  | nil => trivial
  | cons pair rest ih =>
    refine safe_bind safe_okOr fun uPos uAt => ?_
    refine safe_bind safe_okOr fun vPos vAt => ?_
    refine safe_bind (spinAt_safe (inside _ _ uAt)) fun uSpin _ => ?_
    refine safe_bind (spinAt_safe (inside _ _ vAt)) fun vSpin _ => ?_
    refine safe_bind (checkedAdd_safe _ _) fun total _ => ?_
    exact ih _

/-- The shape checks come first, so no slice is read past its end. -/
theorem energyOfSolutionIndexed_safe {nodes : List Nat} {edges : List (Nat × Nat)} {topology : TopologyIndex}
    (h j solution : List Int) (built : TopologyIndex.new nodes edges = .ok topology) :
    Safe (energyOfSolutionIndexed solution h edges j topology) fun energy =>
      energyOfSolutionIndexed solution h edges j topology = .ok energy := by
  obtain ⟨width, located⟩ := TopologyIndex.new_spec built
  have shaped : Safe (validateShapeLengths solution h edges j topology.len) fun result =>
      validateShapeLengths solution h edges j topology.len = .ok result := by
    apply Safe.of_no_panic
    intro message
    unfold validateShapeLengths
    repeat' split
    all_goals simp [fail]
  refine Safe.exact (show Safe _ (fun _ => True) from ?_)
  refine safe_bind shaped fun result passed => ?_
  obtain ⟨_, solutionWidth, fieldWidth, _⟩ := validateShapeLengths_success.mp passed
  refine safe_bind (ensureValidSpins_safe solution) fun _ _ => ?_
  refine safe_bind (addFields_safe solution h 0 0 (by omega)) fun energy _ => ?_
  apply addCouplings_safe
  intro node place found
  rw [located node] at found
  split at found
  · rename_i member
    cases found
    rw [solutionWidth, width]
    exact List.idxOf_lt_length_of_mem member
  · cases found

end QuipValidator.IsingEnergy
