import QuipValidator.TopologyChecks
import QuipValidator.MineableTopologies

/-! What a topology hash names. The bytes that are hashed determine the puzzle up
to the order of its nodes, of its edges, of the endpoints of an edge and of the
values of a set, and nothing else is lost: the vectors carry their lengths, the
specs their variant. So a topology can be registered under one name only. -/
namespace QuipValidator.Pow
open Fallible IsingValidation IsingPuzzle AllowedValueSpec
open Scale (Codec)

variable {T : Config} {s s' s₀ : State T}

/-- A puzzle definition as `hash_topology` receives it. -/
structure Puzzle where
  nodes : List Nat
  edges : List (Nat × Nat)
  allowedH : Spec
  allowedJ : Spec
  allowedSpin : Spec

/-- An edge with its smaller endpoint first. -/
def orient (edge : Nat × Nat) : Nat × Nat := if edge.1 ≤ edge.2 then edge else (edge.2, edge.1)

/-- The values of a spec are `i32`, and a set is short enough for its bytes to have a length. -/
def TypedSpec (spec : Spec) : Prop := InI32 spec ∧ spec.canonicalBytes.length < 2 ^ 32

namespace Puzzle

/-- What `hash_topology` hashes. -/
def bytes (puzzle : Puzzle) : List UInt8 :=
  encodeTopology puzzle.nodes puzzle.edges puzzle.allowedH puzzle.allowedJ puzzle.allowedSpin

/-- The ranges of the Rust types: node ids are `u32`, values `i32`, lengths `u32`. -/
structure Typed (puzzle : Puzzle) : Prop where
  nodes : ∀ node ∈ puzzle.nodes, node < 2 ^ 32
  nodeCount : puzzle.nodes.length < 2 ^ 32
  edges : ∀ edge ∈ puzzle.edges, edge.1 < 2 ^ 32 ∧ edge.2 < 2 ^ 32
  edgeCount : puzzle.edges.length < 2 ^ 32
  allowedH : TypedSpec puzzle.allowedH
  allowedJ : TypedSpec puzzle.allowedJ
  allowedSpin : TypedSpec puzzle.allowedSpin

/-- The same puzzle up to order. -/
structure Same (first second : Puzzle) : Prop where
  nodes : first.nodes.Perm second.nodes
  edges : (first.edges.map orient).Perm (second.edges.map orient)
  allowedH : SameSpec first.allowedH second.allowedH
  allowedJ : SameSpec first.allowedJ second.allowedJ
  allowedSpin : SameSpec first.allowedSpin second.allowedSpin

end Puzzle

private theorem beBytes_inj {first second : Int} (low : i32Min ≤ first ∧ first ≤ i32Max)
    (high : i32Min ≤ second ∧ second ≤ i32Max) (same : beBytes first = beBytes second) : first = second := by
  simp only [beBytes, List.cons.injEq, and_true, ← UInt8.toNat_inj, UInt8.toNat_ofNat'] at same
  obtain ⟨b3, b2, b1, b0⟩ := same
  simp only [i32Min, i32Max] at low high
  omega

private theorem flatMap_beBytes_inj {first second : List Int} (low : ∀ value ∈ first, i32Min ≤ value ∧ value ≤ i32Max)
    (high : ∀ value ∈ second, i32Min ≤ value ∧ value ≤ i32Max)
    (same : first.flatMap beBytes = second.flatMap beBytes) : first = second := by
  induction first generalizing second with
  | nil =>
    cases second with
    | nil => rfl
    | cons value rest => simp [beBytes] at same
  | cons value rest ih =>
    cases second with
    | nil => simp [beBytes] at same
    | cons other others =>
      rw [List.flatMap_cons, List.flatMap_cons] at same
      obtain ⟨head, tail⟩ := List.append_inj same rfl
      have equal := beBytes_inj (low value List.mem_cons_self) (high other List.mem_cons_self) head
      have later := ih (fun held member => low held (List.mem_cons_of_mem _ member))
        (fun held member => high held (List.mem_cons_of_mem _ member)) tail
      rw [equal, later]

private theorem insertionSort_eq_iff {α : Type} (r : α → α → Prop) [DecidableRel r] [Std.Total r] [IsTrans α r]
    [Std.Antisymm r] {first second : List α} : first.insertionSort r = second.insertionSort r ↔ first.Perm second := by
  constructor
  · intro same
    exact (List.perm_insertionSort r first).symm.trans (same ▸ List.perm_insertionSort r second)
  · intro perm
    apply List.Perm.eq_of_pairwise' (List.pairwise_insertionSort r first) (List.pairwise_insertionSort r second)
    exact (List.perm_insertionSort r first).trans (perm.trans (List.perm_insertionSort r second).symm)

private theorem beBytes_pair_inj {min max low high : Int} (first : (i32Min ≤ min ∧ min ≤ i32Max) ∧ i32Min ≤ max ∧ max ≤ i32Max)
    (second : (i32Min ≤ low ∧ low ≤ i32Max) ∧ i32Min ≤ high ∧ high ≤ i32Max)
    (same : beBytes min ++ beBytes max = beBytes low ++ beBytes high) : min = low ∧ max = high := by
  obtain ⟨left, right⟩ := List.append_inj same rfl
  exact ⟨beBytes_inj first.1 second.1 left, beBytes_inj first.2 second.2 right⟩

theorem SameSpec.canonicalBytes {first second : Spec} (same : SameSpec first second) :
    first.canonicalBytes = second.canonicalBytes := by
  cases first <;> cases second <;> simp_all only [SameSpec]
  rw [AllowedValueSpec.canonicalBytes, AllowedValueSpec.canonicalBytes, (insertionSort_eq_iff (· ≤ ·)).mpr same]

/-- The canonical bytes are injective across the variants and lengths. -/
theorem sameSpec_of_canonicalBytes {first second : Spec} (typed : TypedSpec first) (other : TypedSpec second)
    (same : first.canonicalBytes = second.canonicalBytes) : SameSpec first second := by
  cases first with
  | set values =>
    cases second with
    | set others =>
      apply (insertionSort_eq_iff (· ≤ ·)).mp
      apply flatMap_beBytes_inj
      · intro value member
        exact typed.1 value ((List.mem_insertionSort _).mp member)
      · intro value member
        exact other.1 value ((List.mem_insertionSort _).mp member)
      · exact (List.cons.inj same).2
    | integerRange low high => simp [canonicalBytes] at same
    | continuousRange low high => simp [canonicalBytes] at same
  | integerRange min max =>
    cases second with
    | set others => simp [canonicalBytes] at same
    | integerRange low high => exact beBytes_pair_inj typed.1 other.1 (List.cons.inj same).2
    | continuousRange low high => simp [canonicalBytes] at same
  | continuousRange min max =>
    cases second with
    | set others => simp [canonicalBytes] at same
    | integerRange low high => simp [canonicalBytes] at same
    | continuousRange low high => exact beBytes_pair_inj typed.1 other.1 (List.cons.inj same).2

/-- `canonical_bytes` branch by branch: a set already in order is written without sorting it. -/
def canonicalBytesOf : Spec → List UInt8
  | .set values => 0 :: (if values.IsChain (· ≤ ·) then values else values.insertionSort (· ≤ ·)).flatMap beBytes
  | .integerRange min max => 1 :: (beBytes min ++ beBytes max)
  | .continuousRange min max => 2 :: (beBytes min ++ beBytes max)

/-- The fast path writes the same bytes. -/
theorem canonicalBytesOf_eq (spec : Spec) : canonicalBytesOf spec = spec.canonicalBytes := by
  cases spec with
  | set values =>
    rw [canonicalBytesOf, AllowedValueSpec.canonicalBytes]
    split
    · rename_i ordered
      rw [(List.isChain_iff_pairwise.mp ordered).insertionSort_eq]
    · rfl
  | integerRange min max => rfl
  | continuousRange min max => rfl

private theorem canonicalNodes_eq_iff {first second : List Nat} :
    canonicalNodes first = canonicalNodes second ↔ first.Perm second := insertionSort_eq_iff (· ≤ ·)

private theorem canonicalEdges_eq_iff {first second : List (Nat × Nat)} :
    canonicalEdges first = canonicalEdges second ↔ (first.map orient).Perm (second.map orient) := by
  let r : Nat × Nat → Nat × Nat → Prop := fun a b => a.1 < b.1 ∨ a.1 = b.1 ∧ a.2 ≤ b.2
  have : Std.Total r := ⟨fun a b => by simp only [r]; omega⟩
  have : IsTrans (Nat × Nat) r := ⟨fun a b c ab bc => by simp only [r] at *; omega⟩
  have : Std.Antisymm r := ⟨fun a b ab ba => by
    simp only [r] at ab ba
    exact Prod.ext (by omega) (by omega)⟩
  exact insertionSort_eq_iff r

/-- The codec of the hashed tuple. -/
private def puzzleCodec :
    Codec (List Nat × List (Nat × Nat) × List UInt8 × List UInt8 × List UInt8) :=
  .pair (.vec u32Max (.word 4)) (.pair (.vec u32Max (.pair (.word 4) (.word 4)))
    (.pair (.vec u32Max .byte) (.pair (.vec u32Max .byte) (.vec u32Max .byte))))

private theorem bytes_eq (puzzle : Puzzle) :
    puzzle.bytes = puzzleCodec.encode (canonicalNodes puzzle.nodes, canonicalEdges puzzle.edges,
      puzzle.allowedH.canonicalBytes, puzzle.allowedJ.canonicalBytes, puzzle.allowedSpin.canonicalBytes) := by
  simp only [Puzzle.bytes, encodeTopology, List.append_assoc]
  rfl

private theorem Puzzle.Typed.codec {puzzle : Puzzle} (typed : puzzle.Typed) :
    puzzleCodec.valid (canonicalNodes puzzle.nodes, canonicalEdges puzzle.edges,
      puzzle.allowedH.canonicalBytes, puzzle.allowedJ.canonicalBytes, puzzle.allowedSpin.canonicalBytes) := by
  have short : ∀ {count : Nat}, count < 2 ^ 32 → count ≤ u32Max ∧ count < 2 ^ 32 := by
    intro count less
    simp only [u32Max]
    omega
  have bytes : ∀ {spec : Spec}, TypedSpec spec → (Codec.vec u32Max .byte).valid spec.canonicalBytes := by
    intro spec fine
    obtain ⟨within, less⟩ := short fine.2
    exact ⟨within, less, fun _ _ => trivial⟩
  refine ⟨?_, ?_, bytes typed.allowedH, bytes typed.allowedJ, bytes typed.allowedSpin⟩
  · have count : (canonicalNodes puzzle.nodes).length = puzzle.nodes.length := List.length_insertionSort _ _
    obtain ⟨within, less⟩ := short (count ▸ typed.nodeCount)
    exact ⟨within, less, fun node member => typed.nodes node ((List.mem_insertionSort _).mp member)⟩
  · have count : (canonicalEdges puzzle.edges).length = puzzle.edges.length := by
      simp only [canonicalEdges, List.length_insertionSort, List.length_map]
    obtain ⟨within, less⟩ := short (count ▸ typed.edgeCount)
    refine ⟨within, less, ?_⟩
    intro edge member
    obtain ⟨⟨u, v⟩, held, rfl⟩ := List.mem_map.mp ((List.mem_insertionSort _).mp member)
    obtain ⟨first, second⟩ := typed.edges (u, v) held
    dsimp only
    split
    · exact ⟨first, second⟩
    · exact ⟨second, first⟩

theorem Puzzle.Same.trans {first second third : Puzzle} (left : first.Same second) (right : second.Same third) :
    first.Same third :=
  ⟨left.nodes.trans right.nodes, left.edges.trans right.edges, left.allowedH.trans right.allowedH,
    left.allowedJ.trans right.allowedJ, left.allowedSpin.trans right.allowedSpin⟩

theorem Puzzle.Same.symm {first second : Puzzle} (same : first.Same second) : second.Same first :=
  ⟨same.nodes.symm, same.edges.symm, same.allowedH.symm, same.allowedJ.symm, same.allowedSpin.symm⟩

theorem Puzzle.Same.bytes {first second : Puzzle} (same : first.Same second) : first.bytes = second.bytes := by
  rw [bytes_eq, bytes_eq, canonicalNodes_eq_iff.mpr same.nodes, canonicalEdges_eq_iff.mpr same.edges,
    same.allowedH.canonicalBytes, same.allowedJ.canonicalBytes, same.allowedSpin.canonicalBytes]

/-- The hashed bytes determine the puzzle up to order. -/
theorem Puzzle.same_of_bytes {first second : Puzzle} (typed : first.Typed) (other : second.Typed)
    (same : first.bytes = second.bytes) : first.Same second := by
  rw [bytes_eq, bytes_eq] at same
  obtain ⟨fields, _⟩ := puzzleCodec.encode_inj typed.codec other.codec (congrArg (· ++ []) same)
  simp only [Prod.mk.injEq] at fields
  obtain ⟨nodes, edges, allowedH, allowedJ, allowedSpin⟩ := fields
  exact ⟨canonicalNodes_eq_iff.mp nodes, canonicalEdges_eq_iff.mp edges,
    sameSpec_of_canonicalBytes typed.allowedH other.allowedH allowedH,
    sameSpec_of_canonicalBytes typed.allowedJ other.allowedJ allowedJ,
    sameSpec_of_canonicalBytes typed.allowedSpin other.allowedSpin allowedSpin⟩

def Registration.puzzle (registration : Registration T) : Puzzle where
  nodes := registration.nodes.val
  edges := registration.edges.val
  allowedH := registration.allowedHValues.asSlice
  allowedJ := registration.allowedJValues.asSlice
  allowedSpin := registration.allowedSpinValues.asSlice

/-- The registration that would store a topology as it is. -/
def TopologyMeta.registration (topology : TopologyMeta T) : Registration T where
  nodes := topology.nodes
  edges := topology.edges
  allowedHValues := topology.allowedHValues
  allowedJValues := topology.allowedJValues
  allowedSpinValues := topology.allowedSpinValues

def TopologyMeta.puzzle (topology : TopologyMeta T) : Puzzle := topology.registration.puzzle

/-- A registration is stored up to order. -/
theorem Registration.stored_same (registration : Registration T) (n : Nat) :
    (registration.topology registration.stored n).puzzle.Same registration.puzzle :=
  ⟨List.Perm.refl _, List.Perm.refl _, canonical_same _, canonical_same _, canonical_same _⟩

private theorem orient_endpoints {nodes : List Nat} (edge : Nat × Nat) :
    ((orient edge).1 ∈ nodes ∧ (orient edge).2 ∈ nodes) ↔ (edge.1 ∈ nodes ∧ edge.2 ∈ nodes) := by
  unfold orient
  split
  · exact Iff.rfl
  · exact and_comm

private theorem consistent_iff_oriented (nodes : List Nat) (edges : List (Nat × Nat)) :
    Consistent nodes edges ↔ nodes.Nodup ∧ ∀ edge ∈ edges.map orient, edge.1 ∈ nodes ∧ edge.2 ∈ nodes := by
  simp only [Consistent, List.forall_mem_map, orient_endpoints]

/-- The checks do not see the order. -/
theorem Checked.same {first second : Registration T} (checked : Checked first)
    (same : first.puzzle.Same second.puzzle) : Checked second := by
  have nodes : first.nodes.val.Perm second.nodes.val := same.nodes
  have edges : (first.edges.val.map orient).Perm (second.edges.val.map orient) := same.edges
  have allowedH := same.allowedH.bitsPerValue
  have allowedJ := same.allowedJ.bitsPerValue
  have allowedSpin := same.allowedSpin.bitsPerValue
  refine ⟨nodes.length_eq ▸ checked.nodes, ?_, ?_, ?_, ?_, ?_⟩
  · obtain ⟨bits, width⟩ := checked.allowedH
    exact ⟨bits, allowedH.symm.trans width⟩
  · obtain ⟨bits, width⟩ := checked.allowedJ
    exact ⟨bits, allowedJ.symm.trans width⟩
  · obtain ⟨bits, width⟩ := checked.allowedSpin
    exact ⟨bits, allowedSpin.symm.trans width⟩
  · obtain ⟨bytes, packed, fits⟩ := checked.packed
    refine ⟨bytes, ?_, fits⟩
    rw [← packed, nodes.length_eq]
    simp only [packedSolutionByteLen]
    rw [show second.allowedSpinValues.asSlice.bitsPerValue = _ from allowedSpin.symm]
    rfl
  · obtain ⟨distinct, known⟩ := (consistent_iff_oriented _ _).mp checked.consistent
    apply (consistent_iff_oriented _ _).mpr
    refine ⟨nodes.nodup_iff.mp distinct, ?_⟩
    intro edge member
    obtain ⟨first, second⟩ := known edge (edges.mem_iff.mpr member)
    exact ⟨nodes.mem_iff.mp first, nodes.mem_iff.mp second⟩

/-- The topology is what a checked registration stored. -/
structure Recorded (registration : Registration T) (hash : H256) (topology : TopologyMeta T) : Prop where
  checked : Checked registration
  hash : hash = T.blake2_256 topology.puzzle.bytes
  same : topology.puzzle.Same registration.puzzle

/-- The step is this registration, by whatever origin. -/
def Step.Registers (step : Step T) (registration : Registration T) : Prop :=
  ∃ env origin, step = .action (.dispatch env origin (.registerTopology registration))

private theorem moved_registeredTopologies {origin : Origin T.AccountId} {call : Call T} (moved : Moved s origin s' call)
    {hash : H256} {topology : TopologyMeta T} (found : s'.registeredTopologies.lookup hash = some topology) :
    s.registeredTopologies.lookup hash = some topology ∨
      ∃ registration, call = .registerTopology registration ∧ Recorded registration hash topology := by
  cases call with
  | registerTopology registration =>
    obtain ⟨_, specs, events, passed, _, rfl⟩ := moved
    obtain ⟨checked, rfl⟩ := checkRegistration_success.mp passed
    rw [StorageMap.lookup_insert_ite] at found
    split at found
    · rename_i same
      cases found
      exact .inr ⟨registration, rfl, checked, same, registration.stored_same _⟩
    · exact .inl found
  | registerMiner => obtain ⟨_, _, _, rfl⟩ := moved; exact .inl found
  | deregisterMiner => obtain ⟨_, _, _, rfl⟩ := moved; exact .inl found
  | setDifficulty topologyHash difficulty => obtain ⟨_, _, _, rfl⟩ := moved; exact .inl found
  | submitProof proof => obtain ⟨_, _, _, _, _, rfl⟩ := moved; exact .inl found
  | setDefaultTopology topologyHash => obtain ⟨_, _, _, _, rfl⟩ := moved; exact .inl found
  | addMineableTopology topologyHash => obtain ⟨_, _, rfl | ⟨_, _, _, rfl⟩⟩ := moved <;> exact .inl found
  | removeMineableTopology topologyHash => obtain ⟨_, _, rfl | ⟨_, rfl⟩⟩ := moved <;> exact .inl found
  | setTopologyCurve topologyHash curveC => obtain ⟨_, _, _, rfl⟩ := moved; exact .inl found
  | setBlockReward amount => obtain ⟨_, rfl⟩ := moved; exact .inl found
  | setTargetProofBlocks blocks => obtain ⟨_, rfl⟩ := moved; exact .inl found

/-- One step registers a topology or leaves the registered ones alone. -/
private theorem step_registeredTopologies (step : Step T) {hash : H256} {topology : TopologyMeta T}
    (found : ((steps T).next s step).registeredTopologies.lookup hash = some topology) :
    s.registeredTopologies.lookup hash = some topology ∨
      ∃ registration, step.Registers registration ∧ Recorded registration hash topology := by
  cases step with
  | initialise n parentHash =>
    simp only [steps, onInitialize] at found
    split at found <;> exact .inl found
  | finalise pay n =>
    obtain ⟨after, ran, ended⟩ := onFinalize_moves s pay n
    simp only [steps, ran, committed] at found
    rcases ended with ⟨_, rfl⟩ | ⟨_, _, _, _, _, _, _, rfl⟩ <;> exact .inl found
  | action action =>
    cases action with
    | external balances => exact .inl found
    | dispatch env origin call =>
      simp only [steps, body] at found
      cases ran : execute s env origin call with
      | error fault =>
        rw [ran] at found
        exact .inl found
      | ok after =>
        rw [ran] at found
        refine (moved_registeredTopologies (execute_moved ran) found).imp_right ?_
        rintro ⟨registration, rfl, recorded⟩
        exact ⟨registration, ⟨env, origin, rfl⟩, recorded⟩

/-- Every registered topology of a run was recorded by one of its steps. -/
theorem registered_recorded (genesis : Genesis s₀) (inputs : List (Step T)) {hash : H256} {topology : TopologyMeta T}
    (found : ((steps T).run s₀ inputs).registeredTopologies.lookup hash = some topology) :
    ∃ step ∈ inputs, ∃ registration, step.Registers registration ∧ Recorded registration hash topology := by
  induction inputs using List.reverseRecOn with
  | nil =>
    rw [show (steps T).run s₀ [] = s₀ from rfl, genesis.registeredTopologies] at found
    cases found
  | append_singleton earlier step ih =>
    rw [(steps T).run_concat] at found
    rcases step_registeredTopologies step found with before | ⟨registration, registers, recorded⟩
    · obtain ⟨held, member, rest⟩ := ih before
      exact ⟨held, List.mem_append_left _ member, rest⟩
    · exact ⟨step, by simp, registration, registers, recorded⟩

/-- Registering the same puzzle again is refused for that reason, after every check has passed. -/
private theorem registerTopology_again {registration : Registration T} {hash : H256} {topology : TopologyMeta T}
    (found : s.registeredTopologies.lookup hash = some topology)
    (named : hash = T.blake2_256 topology.puzzle.bytes) (checked : Checked registration)
    (same : registration.puzzle.Same topology.puzzle) :
    registerTopology s .root registration = fail (.module .topologyAlreadyRegistered) := by
  have passed : checkRegistration registration = .ok registration.stored :=
    checkRegistration_success.mpr ⟨checked, rfl⟩
  have key : registration.hash registration.stored = hash := by
    have bytes := ((registration.stored_same 0).trans same).bytes
    rw [named, ← bytes]
    rfl
  have taken : s.registeredTopologies.lookup (registration.hash registration.stored) = some topology := key ▸ found
  rw [Registration.hash] at taken
  simp only [registerTopology, ensureRoot, passed, bind, Except.bind, ensure, taken, Option.isNone_some,
    Bool.false_eq_true, if_false, fail]

private theorem checkSpec_avoids (spec : AllowedValues T) :
    Avoids (.module .topologyAlreadyRegistered) (checkSpec spec) := by
  unfold checkSpec Avoids
  split <;> simp [fail]

private theorem canonicalizeSpec_avoids (spec : AllowedValues T) :
    Avoids (.module .topologyAlreadyRegistered) (canonicalizeSpec spec) := by
  rw [canonicalizeSpec_eq]
  exact avoids_pure _

private theorem checkRegistration_avoids (registration : Registration T) :
    Avoids (.module .topologyAlreadyRegistered) (checkRegistration registration) := by
  refine avoids_bind (avoids_ensure (.inr (by simp))) fun _ _ => ?_
  refine avoids_bind (checkSpec_avoids _) fun _ _ => ?_
  refine avoids_bind (checkSpec_avoids _) fun _ _ => ?_
  refine avoids_bind (checkSpec_avoids _) fun _ _ => ?_
  refine avoids_bind (canonicalizeSpec_avoids _) fun _ _ => ?_
  refine avoids_bind (canonicalizeSpec_avoids _) fun _ _ => ?_
  refine avoids_bind (canonicalizeSpec_avoids _) fun _ _ => ?_
  refine avoids_bind (avoids_mapErr (by simp)) fun bytes _ => ?_
  refine avoids_bind (avoids_ensure (.inr (by simp))) fun _ _ => ?_
  refine avoids_bind (avoids_ensure (.inr (by simp))) fun _ _ => ?_
  exact avoids_pure _

/-- A registration under a free key is not refused as registered before. -/
private theorem registerTopology_avoids {origin : Origin T.AccountId} {registration : Registration T}
    (free : s.registeredTopologies.lookup (registration.hash registration.stored) = none) :
    Avoids (.module .topologyAlreadyRegistered) (registerTopology s origin registration) := by
  refine avoids_bind ?_ fun _ _ => ?_
  · cases origin <;> simp [ensureRoot, Avoids, fail]
  refine avoids_bind (checkRegistration_avoids registration) fun specs passed => ?_
  obtain ⟨_, rfl⟩ := checkRegistration_success.mp passed
  refine avoids_bind (avoids_ensure (.inl ?_)) fun _ _ => avoids_pure _
  exact Option.isNone_iff_eq_none.mpr free

/-- The digest has no collision among these inputs. -/
def CollisionFree (T : Config) (inputs : List UInt8 → Prop) : Prop :=
  ∀ first second, inputs first → inputs second → T.blake2_256 first = T.blake2_256 second → first = second

/-- The hashed bytes of the registered topologies and of one more puzzle. -/
def Hashed (s : State T) (puzzle : Puzzle) (bytes : List UInt8) : Prop :=
  bytes = puzzle.bytes ∨
    ∃ hash topology, s.registeredTopologies.lookup hash = some topology ∧ bytes = topology.puzzle.bytes

/-- The arguments of a registration are in the ranges of their Rust types. -/
def Step.Typed (step : Step T) : Prop := ∀ registration, step.Registers registration → registration.puzzle.Typed

private theorem TypedSpec.same {first second : Spec} (typed : TypedSpec first) (same : SameSpec second first) :
    TypedSpec second :=
  ⟨same.symm.inI32 typed.1, same.canonicalBytes ▸ typed.2⟩

/-- What is stored has the ranges of what was registered. -/
private theorem Recorded.typed {registration : Registration T} {hash : H256} {topology : TopologyMeta T}
    (recorded : Recorded registration hash topology) (typed : registration.puzzle.Typed) : topology.puzzle.Typed := by
  have same := recorded.same
  refine ⟨?_, ?_, ?_, ?_, typed.allowedH.same same.allowedH, typed.allowedJ.same same.allowedJ,
    typed.allowedSpin.same same.allowedSpin⟩
  · exact fun node member => typed.nodes node (same.nodes.mem_iff.mp member)
  · exact same.nodes.length_eq ▸ typed.nodeCount
  · intro edge member
    obtain ⟨other, held, oriented⟩ := List.mem_map.mp (same.edges.mem_iff.mp (List.mem_map_of_mem member))
    obtain ⟨first, second⟩ := typed.edges other held
    unfold orient at oriented
    split at oriented <;> split at oriented <;> simp_all [Prod.ext_iff]
  · have count := same.edges.length_eq
    rw [List.length_map, List.length_map] at count
    exact count ▸ typed.edgeCount

/-- Topology identity. For puzzles in the ranges of their types the hashed bytes are
equal exactly if the puzzles are the same up to the order of nodes, edges,
endpoints and set values. After any sequence of calls and hooks from genesis
every key is the hash of the fields stored under it; registering a registered
puzzle again, in any order, is refused as already registered; and, where the
digest has no collision, nothing else is refused for that reason. -/
theorem topology_identity (T : Config) :
    (∀ first second : Puzzle, first.Typed → second.Typed → (first.bytes = second.bytes ↔ first.Same second)) ∧
    ∀ s₀ : State T, Genesis s₀ → ∀ inputs : List (Step T), (∀ step ∈ inputs, step.Typed) →
      let s := (steps T).run s₀ inputs
      (∀ hash topology, s.registeredTopologies.lookup hash = some topology →
        hash = hashTopology T topology.nodes.val topology.edges.val topology.allowedHValues.asSlice
          topology.allowedJValues.asSlice topology.allowedSpinValues.asSlice) ∧
      (∀ registration : Registration T, ∀ hash topology, s.registeredTopologies.lookup hash = some topology →
        registration.puzzle.Same topology.puzzle →
        registerTopology s .root registration = fail (.module .topologyAlreadyRegistered)) ∧
      (∀ (registration : Registration T) (origin : Origin T.AccountId), registration.puzzle.Typed →
        CollisionFree T (Hashed s registration.puzzle) →
        registerTopology s origin registration = fail (.module .topologyAlreadyRegistered) →
        ∃ hash topology, s.registeredTopologies.lookup hash = some topology ∧
          registration.puzzle.Same topology.puzzle) := by
  refine ⟨fun first second typed other => ⟨Puzzle.same_of_bytes typed other, Puzzle.Same.bytes⟩, ?_⟩
  intro s₀ genesis inputs typed s
  have recorded : ∀ {hash topology}, s.registeredTopologies.lookup hash = some topology →
      ∃ registration : Registration T, registration.puzzle.Typed ∧ Recorded registration hash topology := by
    intro hash topology found
    obtain ⟨step, member, registration, registers, recorded⟩ := registered_recorded genesis inputs found
    exact ⟨registration, typed step member registration registers, recorded⟩
  refine ⟨?_, ?_, ?_⟩
  · intro hash topology found
    obtain ⟨_, _, recorded⟩ := recorded found
    exact recorded.hash
  · intro registration hash topology found same
    obtain ⟨original, _, recorded⟩ := recorded found
    exact registerTopology_again found recorded.hash
      (recorded.checked.same (same.trans recorded.same).symm) same
  · intro registration origin fits free refused
    cases found : s.registeredTopologies.lookup (registration.hash registration.stored) with
    | none => exact absurd refused (registerTopology_avoids found)
    | some topology =>
      obtain ⟨original, inRange, recorded⟩ := recorded found
      have stored := (registration.stored_same 0).bytes
      have digest : T.blake2_256 registration.puzzle.bytes = T.blake2_256 topology.puzzle.bytes := by
        rw [← recorded.hash, ← stored]
        rfl
      have bytes := free _ _ (.inl rfl) (.inr ⟨_, topology, found, rfl⟩) digest
      exact ⟨_, topology, found, Puzzle.same_of_bytes fits (recorded.typed inRange) bytes⟩

theorem topology_identity_tinyReordered :
    registerTopology ((steps tinyConfig).run tinyGenesis tinyRepointing) .root tinyReordered =
      fail (.module .topologyAlreadyRegistered) := by
  have typed : ∀ step ∈ tinyRepointing, step.Typed := by
    intro step member registration registers
    obtain ⟨env, origin, rfl⟩ := registers
    simp only [tinyRepointing, List.mem_cons, List.not_mem_nil, or_false, Step.action.injEq, Action.dispatch.injEq,
      Call.registerTopology.injEq, reduceCtorEq, and_false] at member
    rcases member with ⟨_, _, rfl⟩ | ⟨_, _, rfl⟩ <;>
      constructor <;> simp [Registration.puzzle, tinyRegistration, tinyIsolated, asSlice, TypedSpec, InI32,
        canonicalBytes, beBytes, i32Min, i32Max]
  have found : ((steps tinyConfig).run tinyGenesis tinyRepointing).registeredTopologies.lookup tinyTopology =
      some (tinyRegistration.topology tinyRegistration.stored 0) := rfl
  apply ((topology_identity tinyConfig).2 tinyGenesis tinyGenesis_genesis tinyRepointing typed).2.1 _ _ _ found
  exact ⟨List.Perm.swap 0 1 [], List.Perm.refl _, List.Perm.refl _, List.Perm.refl _,
    List.Perm.swap (-1000) 1000 []⟩

end QuipValidator.Pow
