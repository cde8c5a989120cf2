import QuipValidator.PackedSolutions
import QuipValidator.PowMoves

/-! What the checks of `register_topology` establish, and that they do not depend
on the order of anything: the node list, the edge list, the endpoints of an edge
and the values of a set may come in any order. -/
namespace QuipValidator.Pow
open Fallible IsingValidation IsingPuzzle

variable {T : Config}

/-- The same variant with the same bounds; sets are compared as multisets. -/
def SameSpec : Spec → Spec → Prop
  | .set first, .set second => first.Perm second
  | .integerRange min max, .integerRange low high => min = low ∧ max = high
  | .continuousRange min max, .continuousRange low high => min = low ∧ max = high
  | _, _ => False

theorem SameSpec.symm {first second : Spec} (same : SameSpec first second) : SameSpec second first := by
  cases first <;> cases second <;> simp_all [SameSpec, List.perm_comm]

theorem SameSpec.trans {first second third : Spec} (left : SameSpec first second) (right : SameSpec second third) :
    SameSpec first third := by
  cases first <;> cases second <;> cases third <;> simp_all only [SameSpec, and_self]
  exact left.trans right

/-- The width of a value depends on the multiset only. -/
theorem SameSpec.bitsPerValue {first second : Spec} (same : SameSpec first second) :
    first.bitsPerValue = second.bitsPerValue := by
  cases first with
  | set values =>
    cases second with
    | set others =>
      have perm : values.Perm others := same
      have occupied : values ≠ [] ↔ others ≠ [] := by
        rw [← List.length_pos_iff, ← List.length_pos_iff, perm.length_eq]
      simp only [AllowedValueSpec.bitsPerValue, perm.length_eq, occupied]
    | integerRange min max => exact same.elim
    | continuousRange min max => exact same.elim
  | integerRange min max =>
    cases second with
    | integerRange low high =>
      obtain ⟨rfl, rfl⟩ : min = low ∧ max = high := same
      rfl
    | set values => exact same.elim
    | continuousRange low high => exact same.elim
  | continuousRange min max =>
    cases second with
    | continuousRange low high =>
      obtain ⟨rfl, rfl⟩ : min = low ∧ max = high := same
      rfl
    | set values => exact same.elim
    | integerRange low high => exact same.elim

theorem SameSpec.inI32 {first second : Spec} (same : SameSpec first second) (typed : InI32 first) : InI32 second := by
  cases first <;> cases second <;> simp_all only [SameSpec, InI32, and_self]
  exact fun value member => typed value (List.Perm.mem_iff same |>.mpr member)

/-- The allowed values are those of the multiset. -/
theorem SameSpec.allows {first second : Spec} (same : SameSpec first second) (value : Int) :
    Allows first value ↔ Allows second value := by
  cases first <;> cases second <;> simp_all only [SameSpec, Allows]
  exact List.Perm.mem_iff same

/-- The spec as it is stored: a set in ascending order. -/
def canonical : AllowedValues T → AllowedValues T
  | .set values => .set ⟨values.val.insertionSort (· ≤ ·), by rw [List.length_insertionSort]; exact values.property⟩
  | .integerRange min max => .integerRange min max
  | .continuousRange min max => .continuousRange min max

theorem canonicalizeSpec_eq (spec : AllowedValues T) : canonicalizeSpec spec = .ok (canonical spec) := by
  cases spec with
  | set values =>
    have fits : (values.val.insertionSort (· ≤ ·)).length ≤ T.maxAllowedValues := by
      rw [List.length_insertionSort]
      exact values.property
    simp only [canonicalizeSpec, BoundedVec.tryFrom_of_le fits, okOr]
    rfl
  | integerRange min max => rfl
  | continuousRange min max => rfl

theorem canonical_same (spec : AllowedValues T) : SameSpec (canonical spec).asSlice spec.asSlice := by
  cases spec with
  | set values => exact List.perm_insertionSort _ _
  | integerRange min max => exact ⟨rfl, rfl⟩
  | continuousRange min max => exact ⟨rfl, rfl⟩

theorem checkSpec_success {spec : AllowedValues T} {result : Unit} :
    checkSpec spec = .ok result ↔ ∃ bits, spec.asSlice.bitsPerValue = .ok bits := by
  unfold checkSpec
  split <;> simp_all [fail]

/-- The nodes are distinct and the edges join nodes of the list. -/
def Consistent (nodes : List Nat) (edges : List (Nat × Nat)) : Prop :=
  nodes.Nodup ∧ ∀ edge ∈ edges, edge.1 ∈ nodes ∧ edge.2 ∈ nodes

/-- With fields of the right lengths and no value sets only the graph is checked. -/
theorem validateTopologyConsistency_nil {nodes : List Nat} {edges : List (Nat × Nat)} {h j : List Int}
    (fields : h.length = nodes.length) (couplings : j.length = edges.length) :
    validateTopologyConsistency nodes edges h j none none = [] ↔ Consistent nodes edges := by
  constructor
  · intro clean
    obtain ⟨distinct, _, _, known⟩ := validateTopologyConsistency_graph clean
    exact ⟨distinct, known⟩
  · rintro ⟨distinct, known⟩
    have edgeLoop : ∀ u v index, ((u, v), index) ∈ edges.zipIdx → edgeErrors nodes j none index u v = [] := by
      intro u v index member
      have held := known (u, v) (List.fst_mem_of_mem_zipIdx member)
      simp [edgeErrors, held.1, held.2]
    simp only [validateTopologyConsistency, fields, couplings, ne_eq, not_true_eq_false, if_false, List.append_nil,
      fieldValueErrors, List.append_eq_nil_iff, duplicateNodeErrors_nil, List.flatMap_eq_nil_iff, Prod.forall,
      List.not_mem_nil, not_false_eq_true, implies_true, and_true]
    exact ⟨distinct, edgeLoop⟩

/-- Everything the checks of `register_topology` establish. -/
structure Checked (registration : Registration T) : Prop where
  nodes : T.minNodes ≤ registration.nodes.val.length
  allowedH : ∃ bits, registration.allowedHValues.asSlice.bitsPerValue = .ok bits
  allowedJ : ∃ bits, registration.allowedJValues.asSlice.bitsPerValue = .ok bits
  allowedSpin : ∃ bits, registration.allowedSpinValues.asSlice.bitsPerValue = .ok bits
  packed : ∃ bytes, packedSolutionByteLen registration.nodes.val.length registration.allowedSpinValues.asSlice =
    .ok bytes ∧ bytes ≤ T.maxNodes
  consistent : Consistent registration.nodes.val registration.edges.val

/-- The specs a registration stores. -/
def Registration.stored (registration : Registration T) : StoredSpecs T :=
  (canonical registration.allowedHValues, canonical registration.allowedJValues,
    canonical registration.allowedSpinValues)

theorem checkRegistration_success {registration : Registration T} {specs : StoredSpecs T} :
    checkRegistration registration = .ok specs ↔ Checked registration ∧ specs = registration.stored := by
  have widths : ∀ count, packedSolutionByteLen count (canonical registration.allowedSpinValues).asSlice =
      packedSolutionByteLen count registration.allowedSpinValues.asSlice := by
    intro count
    simp only [packedSolutionByteLen, (canonical_same registration.allowedSpinValues).bitsPerValue]
  simp only [checkRegistration, bind_success, ensure_success, checkSpec_success, canonicalizeSpec_eq, reported,
    mapErr_success, List.isEmpty_iff,
    validateTopologyConsistency_nil (List.length_replicate) (List.length_replicate)]
  constructor
  · rintro ⟨_, nodes, _, allowedH, _, allowedJ, _, allowedSpin, _, sameH, _, sameJ, _, sameSpin, bytes, packed, _, fits,
      _, consistent, built⟩
    cases sameH
    cases sameJ
    cases sameSpin
    cases built
    exact ⟨⟨nodes, allowedH, allowedJ, allowedSpin, ⟨bytes, (widths _).symm.trans packed, fits⟩, consistent⟩, rfl⟩
  · rintro ⟨⟨nodes, allowedH, allowedJ, allowedSpin, ⟨bytes, packed, fits⟩, consistent⟩, rfl⟩
    exact ⟨(), nodes, (), allowedH, (), allowedJ, (), allowedSpin, _, rfl, _, rfl, _, rfl, bytes,
      (widths _).trans packed, (), fits, (), consistent, rfl⟩

end QuipValidator.Pow
