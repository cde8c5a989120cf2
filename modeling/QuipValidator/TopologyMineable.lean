import QuipValidator.EnergyBounds
import QuipValidator.TopologyChecks

/-! Whether a registered topology can be mined at all. The checks of
`register_topology` do carry over to the pipeline of `submit_proof`: the index is
built, every nonce samples allowed fields and couplings, and every vector of allowed
spins has a packing that fits and unpacks to it. The one step they say nothing about
is `spin_signs`, which refuses a zero spin. -/
namespace QuipValidator.Pow
open Fallible IsingValidation IsingPuzzle IsingEnergy AllowedValueSpec

variable {T : Config}

/-- What `submit_proof` computes for the topology under a nonce goes through: the
index, a model of allowed values of the right lengths, and the score of at least
one packed solution of at most `MaxNodes` bytes. -/
def MinesUnder (topology : TopologyMeta T) (nonce : Nat) : Prop :=
  ∃ index h j, TopologyIndex.new topology.nodes.val topology.edges.val = .ok index ∧
    generateIsingModelIndexed T.generator nonce topology.nodes.val topology.edges.val
      topology.allowedHValues.asSlice topology.allowedJValues.asSlice index = .ok (h, j) ∧
    (h.length = topology.nodes.val.length ∧ ∀ field ∈ h, Allows topology.allowedHValues.asSlice field) ∧
    (j.length = topology.edges.val.length ∧ ∀ coupling ∈ j, Allows topology.allowedJValues.asSlice coupling) ∧
    ∃ packed values spins energy, packed.length ≤ T.maxNodes ∧
      unpackSolution packed topology.nodes.val.length topology.allowedSpinValues.asSlice = .ok values ∧
      spinSigns values = .ok spins ∧ energyOfSolutionIndexed spins h topology.edges.val j index = .ok energy

/-- The values and bounds of the three specs are `i32`. -/
def Registration.InI32 (registration : Registration T) : Prop :=
  IsingPuzzle.InI32 registration.allowedHValues.asSlice ∧ IsingPuzzle.InI32 registration.allowedJValues.asSlice ∧
    IsingPuzzle.InI32 registration.allowedSpinValues.asSlice

/-- Some spin value has a sign. -/
def HasSpin (registration : Registration T) : Prop :=
  ∃ value, Allows registration.allowedSpinValues.asSlice value ∧ value ≠ 0

private theorem small_of_allows {spec : Spec} (typed : InI32 spec) {bits : Nat} (wide : spec.bitsPerValue = .ok bits)
    {value : Int} (allowed : Allows spec value) : SmallTerm value := by
  suffices i32Min ≤ value ∧ value ≤ i32Max by
    simp only [i32Min, i32Max] at this
    simp only [SmallTerm, termBound]
    omega
  cases spec with
  | set values => exact typed value allowed
  | integerRange min max =>
    obtain ⟨_, _, _, low, high⟩ := bitsPerValue_integerRange.mp wide
    obtain ⟨whole, within, rfl⟩ := allowed
    simp only [MILLI_SCALE] at low high ⊢
    omega
  | continuousRange min max => exact ⟨typed.1.1.trans allowed.1, allowed.2.trans typed.2.2⟩

private theorem generates {nodes : List Nat} {edges : List (Nat × Nat)} {allowedH allowedJ : Spec}
    {index : TopologyIndex} (built : TopologyIndex.new nodes edges = .ok index) (occupied : nodes ≠ [])
    (typedH : InI32 allowedH) (typedJ : InI32 allowedJ) {bitsH bitsJ : Nat} (wideH : allowedH.bitsPerValue = .ok bitsH)
    (wideJ : allowedJ.bitsPerValue = .ok bitsJ) (generator : Nat → Nat → Nat) (nonce : Nat) :
    ∃ h j, generateIsingModelIndexed generator nonce nodes edges allowedH allowedJ index = .ok (h, j) ∧
      (h.length = nodes.length ∧ ∀ field ∈ h, Allows allowedH field) ∧
      (j.length = edges.length ∧ ∀ coupling ∈ j, Allows allowedJ coupling) := by
  obtain ⟨h, sampledH, fields⟩ := sampleValues_allows typedH wideH (generator nonce) 0 nodes.length
  obtain ⟨j, sampledJ, couplings⟩ := sampleValues_allows typedJ wideJ (generator nonce) nodes.length edges.length
  refine ⟨h, j, ?_, fields, couplings⟩
  simp only [generateIsingModelIndexed, wideH, bind_success, ensure_success]
  exact ⟨(), occupied, bitsJ, wideJ, (), (TopologyIndex.new_spec built).1, h, sampledH, j, sampledJ, rfl⟩

private theorem isSpin_sign {value : Int} (nonzero : value ≠ 0) : IsSpin value.sign := by
  rcases Int.sign_trichotomy value with positive | zero | negative
  · exact .inr positive
  · exact absurd (Int.sign_eq_zero_iff_zero.mp zero) nonzero
  · exact .inl negative

/-- The solution that gives every node the same allowed value has a packing, and the
length check has made room for it. -/
private theorem Checked.packs {registration : Registration T} (checked : Checked registration)
    (typed : IsingPuzzle.InI32 registration.allowedSpinValues.asSlice) (sized : T.maxNodes < 2 ^ 32) {value : Int}
    (allowed : Allows registration.allowedSpinValues.asSlice value) :
    ∃ packed : List UInt8, packed.length ≤ T.maxNodes ∧
      unpackSolution packed registration.nodes.val.length (canonical registration.allowedSpinValues).asSlice =
        .ok (List.replicate registration.nodes.val.length value) := by
  obtain ⟨bits, wide⟩ := checked.allowedSpin
  have same := (canonical_same registration.allowedSpinValues).symm
  have width : (canonical registration.allowedSpinValues).asSlice.bitsPerValue = .ok bits := same.bitsPerValue ▸ wide
  have everywhere : ∀ held ∈ List.replicate registration.nodes.val.length value,
      Allows (canonical registration.allowedSpinValues).asSlice held := by
    intro held member
    rw [List.eq_of_mem_replicate member]
    exact (same.allows value).mp allowed
  have short : (List.replicate registration.nodes.val.length value).length * bits + 7 ≤ u64Max := by
    have narrow := Nat.mul_le_mul_left registration.nodes.val.length (bitsPerValue_bounds wide).2
    have nodeCount := registration.nodes.property
    simp only [List.length_replicate, u64Max]
    omega
  obtain ⟨packed, length, unpacked⟩ := unpackSolution_complete (same.inI32 typed) width everywhere short
  rw [List.length_replicate] at length unpacked
  refine ⟨packed, ?_, unpacked⟩
  obtain ⟨bytes, counted, few⟩ := checked.packed
  rw [packedSolutionByteLen, same.bitsPerValue] at counted
  cases length.symm.trans counted
  exact few

/-- What a registration stores is mined under every nonce, given a spin with a sign. -/
private theorem Checked.mines {registration : Registration T} (checked : Checked registration)
    (typed : registration.InI32) (sized : T.maxNodes + T.maxEdges < 2 ^ 32) (occupied : registration.nodes.val ≠ [])
    (signed : HasSpin registration) (n nonce : Nat) :
    MinesUnder (registration.topology registration.stored n) nonce := by
  obtain ⟨typedH, typedJ, typedSpin⟩ := typed
  obtain ⟨bitsH, wideH⟩ := checked.allowedH
  obtain ⟨bitsJ, wideJ⟩ := checked.allowedJ
  have sameH := (canonical_same registration.allowedHValues).symm
  have sameJ := (canonical_same registration.allowedJValues).symm
  obtain ⟨distinct, known⟩ := checked.consistent
  obtain ⟨index, built⟩ := TopologyIndex.new_runs distinct known
  rw [sameH.bitsPerValue] at wideH
  rw [sameJ.bitsPerValue] at wideJ
  obtain ⟨h, j, generated, fields, couplings⟩ :=
    generates built occupied (sameH.inI32 typedH) (sameJ.inI32 typedJ) wideH wideJ T.generator nonce
  have nodeCount := registration.nodes.property
  have edgeCount := registration.edges.property
  obtain ⟨value, allowed, nonzero⟩ := signed
  obtain ⟨packed, fits, unpacked⟩ := checked.packs typedSpin (by omega) allowed
  have spun : spinSigns (List.replicate registration.nodes.val.length value) =
      .ok (List.replicate registration.nodes.val.length value.sign) := by
    rw [spinSigns_success, List.map_replicate]
    exact ⟨fun held member => List.eq_of_mem_replicate member ▸ nonzero, rfl⟩
  have signs : ∀ spin ∈ List.replicate registration.nodes.val.length value.sign, IsSpin spin := by
    intro spin member
    rw [List.eq_of_mem_replicate member]
    exact isSpin_sign nonzero
  obtain ⟨energy, scored⟩ := energyOfSolutionIndexed_runs built known occupied List.length_replicate fields.1
    couplings.1 signs
    (fun field member => small_of_allows (sameH.inI32 typedH) wideH (fields.2 field member))
    (fun coupling member => small_of_allows (sameJ.inI32 typedJ) wideJ (couplings.2 coupling member)) (by omega)
  exact ⟨index, h, j, built, generated, fields, couplings, packed, _, _, energy, fits, unpacked, spun, scored⟩

/-- Mining needs a node and a spin with a sign. -/
private theorem MinesUnder.needs {registration : Registration T} (typed : registration.InI32) {n nonce : Nat}
    (mines : MinesUnder (registration.topology registration.stored n) nonce) :
    registration.nodes.val ≠ [] ∧ HasSpin registration := by
  have sameSpin := canonical_same registration.allowedSpinValues
  obtain ⟨index, h, j, _, generated, _, _, packed, values, spins, _, _, unpacked, spun, _⟩ := mines
  have occupied : registration.nodes.val ≠ [] := by
    simp only [generateIsingModelIndexed, bind_success, ensure_success] at generated
    obtain ⟨_, some, _⟩ := generated
    exact some
  refine ⟨occupied, ?_⟩
  obtain ⟨length, allowed⟩ := unpackSolution_sound (sameSpin.symm.inI32 typed.2.2) unpacked
  obtain ⟨nonzero, _⟩ := spinSigns_success.mp spun
  obtain ⟨value, member⟩ : ∃ value, value ∈ values := by
    apply List.exists_mem_of_length_pos
    rw [length]
    exact List.length_pos_iff.mpr occupied
  exact ⟨value, (sameSpin.allows value).mp (allowed value member), nonzero value member⟩

/-- Of the inputs `register_topology` accepts, those that can be mined under every
nonce are exactly the ones with a node and an allowed spin value other than zero. -/
theorem registered_mines_iff (sized : T.maxNodes + T.maxEdges < 2 ^ 32) {s s' : State T} {origin : Origin T.AccountId}
    {registration : Registration T} (typed : registration.InI32)
    (registered : registerTopology s origin registration = .ok s') :
    ∃ topology, s'.registeredTopologies.lookup (registration.hash registration.stored) = some topology ∧
      ((∀ nonce, MinesUnder topology nonce) ↔ registration.nodes.val ≠ [] ∧ HasSpin registration) := by
  obtain ⟨_, specs, events, passed, _, rfl⟩ := registerTopology_moved registered
  obtain ⟨checked, rfl⟩ := checkRegistration_success.mp passed
  refine ⟨registration.topology registration.stored s.blockNumber, by simp, ?_, ?_⟩
  · intro mines
    exact (mines 0).needs typed
  · rintro ⟨occupied, signed⟩ nonce
    exact checked.mines typed sized occupied signed s.blockNumber nonce

theorem registered_mines_iff_tinyRegistration :
    ∃ s topology, registerTopology tinyGenesis .root tinyRegistration = .ok s ∧
      s.registeredTopologies.lookup tinyTopology = some topology ∧ ∀ nonce, MinesUnder topology nonce := by
  have typed : tinyRegistration.InI32 := by
    simp [Registration.InI32, tinyRegistration, asSlice, InI32, i32Min, i32Max]
  obtain ⟨s, registered⟩ : ∃ s, registerTopology tinyGenesis .root tinyRegistration = .ok s := ⟨_, rfl⟩
  obtain ⟨topology, found, mines⟩ := registered_mines_iff (by decide) typed registered
  refine ⟨s, topology, registered, found, mines.mpr ⟨by decide, 1000, ?_, by decide⟩⟩
  simp [Allows, tinyRegistration, asSlice]

/-- It is registered, becomes the default topology that every miner is served, and
no nonce has a solution that is scored. -/
theorem spinless_topology_registered :
    ∃ s topology, registerTopology tinyGenesis .root tinySpinless = .ok s ∧
      s.registeredTopologies.lookup (tinySpinless.hash tinySpinless.stored) = some topology ∧
      s.defaultTopology = some (tinySpinless.hash tinySpinless.stored) ∧ ∀ nonce, ¬ MinesUnder topology nonce := by
  have typed : tinySpinless.InI32 := by
    simp [Registration.InI32, tinySpinless, asSlice, InI32, i32Min, i32Max]
  refine ⟨_, tinySpinless.topology tinySpinless.stored 0, rfl, rfl, rfl, ?_⟩
  intro nonce mines
  obtain ⟨_, value, allowed, nonzero⟩ := mines.needs typed
  exact nonzero (List.mem_singleton.mp allowed)

end QuipValidator.Pow
