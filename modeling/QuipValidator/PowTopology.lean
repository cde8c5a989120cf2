import QuipValidator.PowTypes
import QuipValidator.Scale

/-! `pallet-quantum-pow`, `topology.rs` and the spec checks of
`register_topology`: the SCALE bytes of a puzzle definition and the hash that
names it. -/
namespace QuipValidator.Pow
open Fallible IsingValidation IsingPuzzle

variable {T : Config}

export Scale (littleEndian encodeLength encodeVec)

def encodeEdge (edge : Nat × Nat) : List UInt8 := littleEndian 4 edge.1 ++ littleEndian 4 edge.2

/-- The nodes in ascending order. -/
def canonicalNodes (nodes : List Nat) : List Nat := nodes.insertionSort (· ≤ ·)

/-- Every edge with its smaller endpoint first, in ascending order. -/
def canonicalEdges (edges : List (Nat × Nat)) : List (Nat × Nat) :=
  (edges.map fun (u, v) => if u ≤ v then (u, v) else (v, u)).insertionSort fun a b =>
    a.1 < b.1 ∨ a.1 = b.1 ∧ a.2 ≤ b.2

/-- The bytes `hash_topology` hashes. -/
def encodeTopology (nodes : List Nat) (edges : List (Nat × Nat)) (allowedH allowedJ allowedSpin : Spec) :
    List UInt8 :=
  encodeVec (littleEndian 4) (canonicalNodes nodes) ++ encodeVec encodeEdge (canonicalEdges edges) ++
    encodeVec (fun byte => [byte]) allowedH.canonicalBytes ++
    encodeVec (fun byte => [byte]) allowedJ.canonicalBytes ++
    encodeVec (fun byte => [byte]) allowedSpin.canonicalBytes

def hashTopology (T : Config) (nodes : List Nat) (edges : List (Nat × Nat)) (allowedH allowedJ allowedSpin : Spec) :
    H256 :=
  T.blake2_256 (encodeTopology nodes edges allowedH allowedJ allowedSpin)

def checkSpec (spec : AllowedValues T) : Fallible DispatchError Unit :=
  match spec.asSlice.bitsPerValue with
  | .ok _ => .ok ()
  | .error (.error .emptyAllowedValues) => fail Error.emptyAllowedValues
  | .error (.error (.encodingTooWide _)) => fail Error.encodingTooWide
  | .error (.error _) => fail Error.invalidTopology
  | .error (.panic message) => .error (.panic message)

/-- `canonicalize_spec`: a set is stored in ascending order. -/
def canonicalizeSpec : AllowedValues T → Fallible DispatchError (AllowedValues T)
  | .set values => do
    let sorted ← okOr (BoundedVec.tryFrom T.maxAllowedValues (values.val.insertionSort (· ≤ ·))) Error.invalidTopology
    pure (.set sorted)
  | other => pure other

end QuipValidator.Pow
