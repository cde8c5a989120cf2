import QuipValidator.StorageMap
import QuipValidator.Fallible

/-! `quantum-validation`, structural part: the fixed-point scale, the typed
failures, spin checks, and the node index every energy computation reads. Milli
values are unbounded integers here; where the source computes in a machine
width the check it makes is written out. -/
namespace QuipValidator.IsingValidation
open Fallible

def MILLI_SCALE : Nat := 1000

/-- `ValidationError`. -/
inductive ValidationError where
  | emptyNodes
  | emptyFieldValues
  | emptyAllowedValues
  | invalidEncodedValue (raw : Nat)
  | encodingTooWide (bits : Nat)
  | packedSolutionLengthMismatch (expected actual : Nat)
  | solutionLengthMismatch (expected actual : Nat)
  | fieldLengthMismatch (expected actual : Nat)
  | edgeWeightLengthMismatch (edges weights : Nat)
  | invalidSpinValue (index : Nat) (value : Int)
  | duplicateNode (node : Nat)
  | unknownNodeInEdge (node : Nat)
  | arithmeticOverflow
  deriving DecidableEq, Repr

/-- A spin is `-1` or `+1`. -/
def IsSpin (value : Int) : Prop := value = -1 ∨ value = 1

instance : DecidablePred IsSpin := fun value => inferInstanceAs (Decidable (value = -1 ∨ value = 1))

def validateSpins (spins : List Int) : Bool := spins.all fun spin => decide (IsSpin spin)

def validateSolutionSet (solutions : List (List Int)) (expectedLen : Nat) : Bool :=
  solutions.all fun spins => decide (spins.length = expectedLen) && validateSpins spins

/-- The loop of `ensure_valid_spins` from position `index` on. -/
def ensureValidSpinsFrom (index : Nat) : List Int → Fallible ValidationError Unit
  | [] => .ok ()
  | spin :: rest =>
    if IsSpin spin then ensureValidSpinsFrom (index + 1) rest else fail (.invalidSpinValue index spin)

def ensureValidSpins (spins : List Int) : Fallible ValidationError Unit := ensureValidSpinsFrom 0 spins

private theorem ensureValidSpinsFrom_success (index : Nat) (spins : List Int) (result : Unit) :
    ensureValidSpinsFrom index spins = .ok result ↔ ∀ spin ∈ spins, IsSpin spin := by
  induction spins generalizing index with
  | nil => simp [ensureValidSpinsFrom]
  | cons spin rest ih =>
    by_cases valid : IsSpin spin
    · simp [ensureValidSpinsFrom, valid, ih]
    · simp [ensureValidSpinsFrom, valid, fail]

@[simp] theorem ensureValidSpins_success (spins : List Int) (result : Unit) :
    ensureValidSpins spins = .ok result ↔ ∀ spin ∈ spins, IsSpin spin :=
  ensureValidSpinsFrom_success 0 spins result

private theorem ensureValidSpinsFrom_calm (index : Nat) (spins : List Int) (message : String) :
    ensureValidSpinsFrom index spins ≠ .error (.panic message) := by
  induction spins generalizing index with
  | nil => simp [ensureValidSpinsFrom]
  | cons spin rest ih =>
    by_cases valid : IsSpin spin
    · simpa [ensureValidSpinsFrom, valid] using ih (index + 1)
    · simp [ensureValidSpinsFrom, valid, fail]

theorem ensureValidSpins_safe (spins : List Int) :
    Safe (ensureValidSpins spins) fun _ => ∀ spin ∈ spins, IsSpin spin :=
  (Safe.of_no_panic (ensureValidSpinsFrom_calm 0 spins)).mono fun result ran =>
    (ensureValidSpins_success spins result).mp ran

/-- A scan for a listed value finds its first place. -/
theorem idxOf?_of_mem {α : Type} [DecidableEq α] {values : List α} {value : α} (member : value ∈ values) :
    values.idxOf? value = some (values.idxOf value) := by
  obtain ⟨place, found⟩ := Option.isSome_iff_exists.mp (List.isSome_idxOf?.mpr member)
  rw [List.idxOf_eq_getD_idxOf?, found]
  rfl

/-- `TopologyIndex`: each node id with its position in the solution vector. -/
structure TopologyIndex where
  positions : StorageMap Nat Nat

namespace TopologyIndex

/-- The node loop of `TopologyIndex::new`, with the next position to assign. -/
def insertNodes (positions : StorageMap Nat Nat) (position : Nat) :
    List Nat → Fallible ValidationError (StorageMap Nat Nat)
  | [] => .ok positions
  | node :: rest =>
    if (positions.lookup node).isSome then fail (.duplicateNode node)
    else insertNodes (positions.insert node position) (position + 1) rest

/-- The edge loop of `TopologyIndex::new`: both endpoints must be indexed. -/
def checkEdges (positions : StorageMap Nat Nat) : List (Nat × Nat) → Fallible ValidationError Unit
  | [] => .ok ()
  | (u, v) :: rest =>
    if (positions.lookup u).isNone then fail (.unknownNodeInEdge u)
    else if (positions.lookup v).isNone then fail (.unknownNodeInEdge v)
    else checkEdges positions rest

def new (nodes : List Nat) (edges : List (Nat × Nat)) : Fallible ValidationError TopologyIndex := do
  let positions ← insertNodes ∅ 0 nodes
  checkEdges positions edges
  pure ⟨positions⟩

def len (topology : TopologyIndex) : Nat := topology.positions.size

def position (topology : TopologyIndex) (node : Nat) : Option Nat := topology.positions.lookup node

private theorem insertNodes_refuses_repeat {node : Nat} {built : StorageMap Nat Nat} (nodes : List Nat)
    (positions : StorageMap Nat Nat) (start : Nat) (held : (positions.lookup node).isSome)
    (member : node ∈ nodes) : insertNodes positions start nodes ≠ .ok built := by
  induction nodes generalizing positions start with
  | nil => cases member
  | cons first rest ih =>
    intro ran
    simp only [insertNodes] at ran
    split at ran
    · cases ran
    · rename_i unseen
      have other : node ≠ first := by
        rintro rfl
        exact unseen held
      refine ih _ _ ?_ ((List.mem_cons.mp member).resolve_left other) ran
      rw [StorageMap.lookup_insert_ite]
      simpa [other] using held

private theorem insertNodes_spec (nodes : List Nat) (positions built : StorageMap Nat Nat) (start : Nat)
    (ran : insertNodes positions start nodes = .ok built) :
    StorageMap.size built = positions.size + nodes.length ∧
      ∀ node, built.lookup node =
        if node ∈ nodes then some (start + nodes.idxOf node) else positions.lookup node := by
  induction nodes generalizing positions start with
  | nil =>
    cases ran
    simp
  | cons first rest ih =>
    simp only [insertNodes] at ran
    split at ran
    · cases ran
    · rename_i unseen
      have absent : positions.lookup first = none := by simpa using unseen
      obtain ⟨width, found⟩ := ih _ _ ran
      rw [StorageMap.size_insert_new absent] at width
      refine ⟨by simp only [List.length_cons]; omega, ?_⟩
      intro node
      rw [found node, StorageMap.lookup_insert_ite]
      by_cases same : node = first
      · subst same
        have fresh : node ∉ rest :=
          fun member => insertNodes_refuses_repeat rest _ _ (by simp) member ran
        simp [fresh]
      · by_cases member : node ∈ rest
        · simp only [member, List.mem_cons, or_true, ↓reduceIte, Option.some.injEq]
          rw [List.idxOf_cons_ne _ (Ne.symm same)]
          omega
        · simp [member, same]

private theorem insertNodes_calm (nodes : List Nat) (positions : StorageMap Nat Nat) (start : Nat)
    (message : String) : insertNodes positions start nodes ≠ .error (.panic message) := by
  induction nodes generalizing positions start with
  | nil => simp [insertNodes]
  | cons node rest ih =>
    rw [insertNodes]
    split
    · simp [fail]
    · exact ih _ _

private theorem checkEdges_calm (positions : StorageMap Nat Nat) (edges : List (Nat × Nat)) (message : String) :
    checkEdges positions edges ≠ .error (.panic message) := by
  induction edges with
  | nil => simp [checkEdges]
  | cons edge rest ih =>
    rw [checkEdges]
    split
    · simp [fail]
    · split
      · simp [fail]
      · exact ih

theorem new_safe (nodes : List Nat) (edges : List (Nat × Nat)) :
    Safe (new nodes edges) fun topology => new nodes edges = .ok topology := by
  refine Safe.exact (show Safe _ (fun _ => True) from ?_)
  refine safe_bind (Safe.of_no_panic (insertNodes_calm nodes ∅ 0)) fun positions _ => ?_
  refine safe_bind (Safe.of_no_panic (checkEdges_calm positions edges)) fun _ _ => ?_
  exact safe_pure trivial

private theorem insertNodes_runs (nodes : List Nat) (positions : StorageMap Nat Nat) (start : Nat)
    (distinct : nodes.Nodup) (fresh : ∀ node ∈ nodes, positions.lookup node = none) :
    ∃ built, insertNodes positions start nodes = .ok built := by
  induction nodes generalizing positions start with
  | nil => exact ⟨positions, rfl⟩
  | cons first rest ih =>
    obtain ⟨unseen, later⟩ := List.nodup_cons.mp distinct
    rw [insertNodes, fresh first List.mem_cons_self]
    apply ih _ _ later
    intro node member
    have other : node ≠ first := by
      rintro rfl
      exact unseen member
    rw [StorageMap.lookup_insert_ite, if_neg other]
    exact fresh node (List.mem_cons_of_mem _ member)

private theorem checkEdges_success {positions : StorageMap Nat Nat} {edges : List (Nat × Nat)} {result : Unit} :
    checkEdges positions edges = .ok result ↔
      ∀ edge ∈ edges, (positions.lookup edge.1).isSome ∧ (positions.lookup edge.2).isSome := by
  induction edges with
  | nil => simp [checkEdges]
  | cons edge rest ih =>
    rw [checkEdges, List.forall_mem_cons, ← ih]
    cases first : positions.lookup edge.1 with
    | none => simp [fail]
    | some firstPlace =>
      cases second : positions.lookup edge.2 with
      | none => simp [fail]
      | some secondPlace => simp

/-- Distinct nodes and edges between them have an index. -/
theorem new_runs {nodes : List Nat} {edges : List (Nat × Nat)} (distinct : nodes.Nodup)
    (known : ∀ edge ∈ edges, edge.1 ∈ nodes ∧ edge.2 ∈ nodes) : ∃ topology, new nodes edges = .ok topology := by
  obtain ⟨positions, inserted⟩ := insertNodes_runs nodes ∅ 0 distinct fun node _ => rfl
  have found := (insertNodes_spec nodes ∅ positions 0 inserted).2
  refine ⟨⟨positions⟩, ?_⟩
  simp only [new, bind_success]
  refine ⟨positions, inserted, (), checkEdges_success.mpr ?_, rfl⟩
  intro edge member
  obtain ⟨first, second⟩ := known edge member
  rw [found, found, if_pos first, if_pos second]
  exact ⟨rfl, rfl⟩

/-- A built index has one position for each listed node, found as a linear
scan of the node list would find it. -/
theorem new_spec {nodes : List Nat} {edges : List (Nat × Nat)} {topology : TopologyIndex}
    (ran : new nodes edges = .ok topology) :
    topology.len = nodes.length ∧
      ∀ node, topology.position node = if node ∈ nodes then some (nodes.idxOf node) else none := by
  simp only [new, bind_success] at ran
  obtain ⟨positions, inserted, _, _, built⟩ := ran
  cases built
  obtain ⟨width, found⟩ := insertNodes_spec nodes ∅ positions 0 inserted
  refine ⟨by simpa [len] using width, ?_⟩
  intro node
  simpa [position] using found node

private theorem insertNodes_distinct {nodes : List Nat} {positions built : StorageMap Nat Nat} {start : Nat}
    (ran : insertNodes positions start nodes = .ok built) : nodes.Nodup := by
  induction nodes generalizing positions start with
  | nil => exact List.nodup_nil
  | cons first rest ih =>
    simp only [insertNodes] at ran
    split at ran
    · cases ran
    · refine List.nodup_cons.mpr ⟨?_, ih ran⟩
      intro member
      exact insertNodes_refuses_repeat rest _ _ (by simp) member ran

/-- Only distinct nodes and edges between them have an index. -/
theorem new_graph {nodes : List Nat} {edges : List (Nat × Nat)} {topology : TopologyIndex}
    (ran : new nodes edges = .ok topology) : nodes.Nodup ∧ ∀ edge ∈ edges, edge.1 ∈ nodes ∧ edge.2 ∈ nodes := by
  simp only [new, bind_success, checkEdges_success] at ran
  obtain ⟨positions, inserted, _, indexed, _⟩ := ran
  have found := (insertNodes_spec nodes ∅ positions 0 inserted).2
  have listed : ∀ node, (positions.lookup node).isSome → node ∈ nodes := by
    intro node held
    by_contra absent
    rw [found, if_neg absent] at held
    exact absurd held (by simp)
  refine ⟨insertNodes_distinct inserted, ?_⟩
  intro edge member
  exact ⟨listed _ (indexed edge member).1, listed _ (indexed edge member).2⟩

end TopologyIndex

/-- Pad a decimal to `width` digits with leading zeros. -/
def padDigits (width value : Nat) : String :=
  let digits := toString value
  String.ofList (List.replicate (width - digits.length) '0') ++ digits

def displayMilliValue (value : Int) : String :=
  let abs := value.natAbs
  let sign := if value < 0 then "-" else ""
  let whole := toString (abs / 1000)
  let frac := abs % 1000
  if frac = 0 then sign ++ whole ++ ".0"
  else if frac % 100 = 0 then sign ++ whole ++ "." ++ toString (frac / 100)
  else if frac % 10 = 0 then sign ++ whole ++ "." ++ padDigits 2 (frac / 10)
  else sign ++ whole ++ "." ++ padDigits 3 frac

def displayMilliList (values : List Int) : String :=
  "[" ++ String.intercalate ", " (values.map displayMilliValue) ++ "]"

def isBinaryJSet (values : List Int) : Bool :=
  decide (values.length = 2) && values.contains (-1000) && values.contains 1000

/-- The duplicate-node loop of `validate_topology_consistency`. -/
def duplicateNodeErrors (known : List Nat) : List Nat → List String
  | [] => []
  | node :: rest =>
    if node ∈ known then ("Duplicate node id: " ++ toString node) :: duplicateNodeErrors known rest
    else duplicateNodeErrors (node :: known) rest

def fieldValueErrors (nodes : List Nat) (h : List Int) : Option (List Int) → List String
  | none => []
  | some allowed => (nodes.zip h).filterMap fun (nodeId, value) =>
      if value ∈ allowed then none
      else some ("Invalid h[" ++ toString nodeId ++ "] = " ++ displayMilliValue value ++
        ", expected one of " ++ displayMilliList allowed)

/-- The errors one edge of the edge loop adds: an unknown endpoint, then a
coupling outside the allowed set. -/
def edgeErrors (nodes : List Nat) (j : List Int) (allowedJ : Option (List Int)) (index u v : Nat) :
    List String :=
  (if u ∉ nodes ∨ v ∉ nodes then
    ["J parameter for invalid edge: (" ++ toString u ++ ", " ++ toString v ++ ")"] else []) ++
  match allowedJ, j[index]? with
  | some allowed, some value =>
    if value ∈ allowed then []
    else
      let expectation := if isBinaryJSet allowed then "±1.0" else "one of " ++ displayMilliList allowed
      ["Invalid J value J[(" ++ toString u ++ ", " ++ toString v ++ ")] = " ++
        displayMilliValue value ++ " (expected " ++ expectation ++ ")"]
  | _, _ => []

def validateTopologyConsistency (nodes : List Nat) (edges : List (Nat × Nat)) (h j : List Int)
    (allowedH allowedJ : Option (List Int)) : List String :=
  duplicateNodeErrors [] nodes ++
  (if h.length ≠ nodes.length then
    ["Wrong h parameter count: " ++ toString h.length ++ " != " ++ toString nodes.length] else []) ++
  (if j.length ≠ edges.length then
    ["Wrong J parameter count: " ++ toString j.length ++ " != " ++ toString edges.length] else []) ++
  fieldValueErrors nodes h allowedH ++
  edges.zipIdx.flatMap fun ((u, v), index) => edgeErrors nodes j allowedJ index u v

theorem duplicateNodeErrors_nil (known nodes : List Nat) :
    duplicateNodeErrors known nodes = [] ↔ nodes.Nodup ∧ ∀ node ∈ nodes, node ∉ known := by
  induction nodes generalizing known with
  | nil => simp [duplicateNodeErrors]
  | cons node rest ih =>
    rw [duplicateNodeErrors]
    split
    · rename_i seen
      simp [seen]
    · rename_i unseen
      rw [ih, List.nodup_cons]
      constructor
      · rintro ⟨distinct, apart⟩
        refine ⟨⟨fun again => apart node again List.mem_cons_self, distinct⟩, ?_⟩
        intro other member
        rcases List.mem_cons.mp member with rfl | later
        · exact unseen
        · exact fun held => apart other later (List.mem_cons_of_mem node held)
      · rintro ⟨⟨fresh, distinct⟩, apart⟩
        refine ⟨distinct, ?_⟩
        intro other later held
        rcases List.mem_cons.mp held with rfl | before
        · exact fresh later
        · exact apart other (List.mem_cons_of_mem node later) before

/-- What an empty error list says of the graph, whatever values are allowed. -/
theorem validateTopologyConsistency_graph {nodes : List Nat} {edges : List (Nat × Nat)} {h j : List Int}
    {allowedH allowedJ : Option (List Int)}
    (clean : validateTopologyConsistency nodes edges h j allowedH allowedJ = []) :
    nodes.Nodup ∧ h.length = nodes.length ∧ j.length = edges.length ∧
      ∀ edge ∈ edges, edge.1 ∈ nodes ∧ edge.2 ∈ nodes := by
  simp only [validateTopologyConsistency, List.append_eq_nil_iff, duplicateNodeErrors_nil, ite_eq_right_iff,
    List.cons_ne_nil, imp_false, not_not, List.flatMap_eq_nil_iff, Prod.forall] at clean
  obtain ⟨⟨⟨⟨⟨distinct, _⟩, fields⟩, couplings⟩, _⟩, loop⟩ := clean
  refine ⟨distinct, fields, couplings, ?_⟩
  intro edge member
  obtain ⟨index, inside, found⟩ := List.mem_iff_getElem.mp member
  have here := loop edge.1 edge.2 index (by simp [List.mem_zipIdx_iff_getElem?, inside, found])
  simp only [edgeErrors, List.append_eq_nil_iff, ite_eq_right_iff, List.cons_ne_nil, imp_false] at here
  by_contra unknown
  rw [not_and_or] at unknown
  exact here.1 unknown

end QuipValidator.IsingValidation
