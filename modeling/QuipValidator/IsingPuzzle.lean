import Mathlib.Data.List.Sort
import QuipValidator.IsingValidation

/-! `quantum-validation`, puzzles: the allowed-value specs, the bit-packed
solutions read under them, and the model a nonce generates. The generator a
nonce seeds is a parameter. -/
namespace QuipValidator.IsingPuzzle
open Fallible IsingValidation

/-- `MAX_INDEXED_BITS`. -/
def MAX_INDEXED_BITS : Nat := 8

def i32Min : Int := -2 ^ 31
def i32Max : Int := 2 ^ 31 - 1

/-- `value as i32` for a `u32`. -/
def asI32 (raw : Nat) : Int := if raw < 2 ^ 31 then raw else (raw : Int) - 2 ^ 32

/-- `value as u32` for an `i32`. -/
def i32AsU32 (value : Int) : Nat := (value % 2 ^ 32).toNat

/-- `value as u64` for an `i64`. -/
def asU64 (value : Int) : Nat := (value % 2 ^ 64).toNat

/-- Sampling distribution for a single puzzle parameter (h, j, or spin). -/
inductive AllowedValueSpec (S : Type) where
  | set (values : S)
  | integerRange (min max : Int)
  | continuousRange (min max : Int)

namespace AllowedValueSpec

/-- `as_slice`. -/
def asSlice {bound : Nat} : AllowedValueSpec (BoundedVec Int bound) → AllowedValueSpec (List Int)
  | set values => set values.val
  | integerRange min max => integerRange min max
  | continuousRange min max => continuousRange min max

end AllowedValueSpec

abbrev Spec := AllowedValueSpec (List Int)

/-- `bits_for_count`: the width of `count - 1`, at least one bit. -/
def bitsForCount (count : Nat) : Nat := if count ≤ 1 then 1 else Nat.log2 (count - 1) + 1

def checkIndexedBits (bits : Nat) : Fallible ValidationError Unit :=
  ensure (bits ≤ MAX_INDEXED_BITS) (ValidationError.encodingTooWide bits)

/-- The number of whole integers in a range, as the source computes it in `u64`. -/
def rangeSpan (min max : Int) : Nat := asU64 (max - min + 1)

namespace AllowedValueSpec

/-- `bits_per_value`. -/
def bitsPerValue : Spec → Fallible ValidationError Nat
  | set values => do
    ensure (values ≠ []) ValidationError.emptyAllowedValues
    let bits := bitsForCount values.length
    checkIndexedBits bits
    pure bits
  | integerRange min max => do
    ensure (min ≤ max) ValidationError.emptyAllowedValues
    let bits := bitsForCount (rangeSpan min max)
    checkIndexedBits bits
    ensure (i32Min ≤ min * MILLI_SCALE ∧ max * MILLI_SCALE ≤ i32Max) ValidationError.arithmeticOverflow
    pure bits
  | continuousRange min max => do
    ensure (min ≤ max) ValidationError.emptyAllowedValues
    pure 32

/-- `decode_value`. -/
def decodeValue (raw : Nat) : Spec → Fallible ValidationError Int
  | set values => okOr values[raw]? (.invalidEncodedValue raw)
  | integerRange min max => do
    ensure (raw < rangeSpan min max) (ValidationError.invalidEncodedValue raw)
    let value := (min + raw) * MILLI_SCALE
    ensure (i32Min ≤ value ∧ value ≤ i32Max) ValidationError.arithmeticOverflow
    pure value
  | continuousRange min max => do
    let value := asI32 raw
    ensure (min ≤ value ∧ value ≤ max) (ValidationError.invalidEncodedValue raw)
    pure value

/-- `sample`, with the next draw of the generator. -/
def sample (draw : Nat) : Spec → Fallible ValidationError Int
  | set values => do
    ensure (values ≠ []) ValidationError.emptyAllowedValues
    expect values[draw % values.length]? "index out of bounds"
  | integerRange min max => do
    ensure (min ≤ max) ValidationError.emptyAllowedValues
    decodeValue (asU32 (draw % rangeSpan min max)) (integerRange min max)
  | continuousRange min max => do
    ensure (min ≤ max) ValidationError.emptyAllowedValues
    pure (min + (draw % rangeSpan min max : Nat))

/-- `i32::to_be_bytes`. -/
def beBytes (value : Int) : List UInt8 :=
  let word := (value % 2 ^ 32).toNat
  [UInt8.ofNat (word / 2 ^ 24), UInt8.ofNat (word / 2 ^ 16), UInt8.ofNat (word / 2 ^ 8), UInt8.ofNat word]

/-- `canonical_bytes`: a variant byte, then the values in ascending order or
the two bounds. -/
def canonicalBytes : Spec → List UInt8
  | set values => 0 :: (values.insertionSort (· ≤ ·)).flatMap beBytes
  | integerRange min max => 1 :: (beBytes min ++ beBytes max)
  | continuousRange min max => 2 :: (beBytes min ++ beBytes max)

end AllowedValueSpec

open AllowedValueSpec

/-- `packed_solution_byte_len`; `usize` is taken as 64 bits wide. -/
def packedSolutionByteLen (numSpins : Nat) (spec : Spec) : Fallible ValidationError Nat := do
  let bitsPerSpin ← bitsPerValue spec
  pure (saturatingAdd u64Max (saturatingMul u64Max numSpins bitsPerSpin) 7 / 8)

/-- The loop of `decode_indexed` over the spin positions. -/
def decodeIndexed (packed : List UInt8) (bitsPerSpin : Nat) (spec : Spec) :
    List Nat → Fallible ValidationError (List Int)
  | [] => pure []
  | spinIndex :: rest => do
    let bitOffset := spinIndex * bitsPerSpin
    let byteIndex := bitOffset / 8
    let intraByte := bitOffset % 8
    let b0 ← expect packed[byteIndex]? "index out of bounds"
    let b1 := packed.getD (byteIndex + 1) 0
    let raw := (b0.toNat ||| (b1.toNat <<< 8)) >>> intraByte % 2 ^ bitsPerSpin
    let value ← decodeValue raw spec
    let values ← decodeIndexed packed bitsPerSpin spec rest
    pure (value :: values)

/-- The loop of `decode_continuous`: four big-endian bytes for each spin. -/
def decodeContinuous (packed : List UInt8) (numSpins : Nat) (spec : Spec) :
    List Nat → Fallible ValidationError (List Int)
  | [] => pure []
  | spinIndex :: rest => do
    let bytes := (packed.drop (spinIndex * 4)).take 4
    ensure (bytes.length = 4) (ValidationError.packedSolutionLengthMismatch (numSpins * 4) packed.length)
    let raw := bytes.foldl (fun word byte => word * 256 + byte.toNat) 0
    let value ← decodeValue raw spec
    let values ← decodeContinuous packed numSpins spec rest
    pure (value :: values)

def unpackSolution (packed : List UInt8) (numSpins : Nat) (spec : Spec) : Fallible ValidationError (List Int) := do
  let bitsPerSpin ← bitsPerValue spec
  let expected ← packedSolutionByteLen numSpins spec
  ensure (packed.length = expected) (ValidationError.packedSolutionLengthMismatch expected packed.length)
  if bitsPerSpin = 32 then decodeContinuous packed numSpins spec (List.range numSpins)
  else decodeIndexed packed bitsPerSpin spec (List.range numSpins)

/-- `encode_value`; `%` and `/` on `i32` truncate towards zero. -/
def encodeValue (value : Int) : Spec → Fallible ValidationError Nat
  | .set values => okOr ((values.idxOf? value).map asU32) (.invalidEncodedValue (i32AsU32 value))
  | .integerRange min max => do
    ensure (value.tmod MILLI_SCALE = 0) (ValidationError.invalidEncodedValue (i32AsU32 value))
    let whole := value.tdiv MILLI_SCALE
    ensure (min ≤ whole ∧ whole ≤ max) (ValidationError.invalidEncodedValue (i32AsU32 value))
    pure (i32AsU32 (whole - min))
  | .continuousRange min max => do
    ensure (min ≤ value ∧ value ≤ max) (ValidationError.invalidEncodedValue (i32AsU32 value))
    pure (i32AsU32 value)

/-- The 32-bit loop of `pack_solution` from spin `index` on: the four bytes at
`index * 4` of `out` are overwritten, and the value is not looked at. -/
def packContinuous (index : Nat) : List Int → List UInt8 → Fallible ValidationError (List UInt8)
  | [], out => pure out
  | spin :: rest, out => do
    let offset := index * 4
    asserts (offset + 4 ≤ out.length) "range end index out of range for slice"
    packContinuous (index + 1) rest (out.take offset ++ beBytes spin ++ out.drop (offset + 4))

/-- The indexed loop of `pack_solution` from spin `spinIndex` on; the second
byte of a value is dropped where `out` ends. -/
def packIndexed (bitsPerSpin : Nat) (spec : Spec) (spinIndex : Nat) :
    List Int → List UInt8 → Fallible ValidationError (List UInt8)
  | [], out => pure out
  | spin :: rest, out => do
    let raw ← encodeValue spin spec
    let bitOffset := spinIndex * bitsPerSpin
    let byteIndex := bitOffset / 8
    let intraByte := bitOffset % 8
    let shifted := (raw <<< intraByte) % 2 ^ 32
    asserts (byteIndex < out.length) "index out of bounds"
    let out := out.modify byteIndex fun byte => byte ||| UInt8.ofNat shifted
    let out := out.modify (byteIndex + 1) fun byte => byte ||| UInt8.ofNat (shifted >>> 8)
    packIndexed bitsPerSpin spec (spinIndex + 1) rest out

def packSolution (spins : List Int) (spec : Spec) : Fallible ValidationError (List UInt8) := do
  let bitsPerSpin ← bitsPerValue spec
  let byteLen ← packedSolutionByteLen spins.length spec
  let out := List.replicate byteLen (0 : UInt8)
  if bitsPerSpin = 32 then packContinuous 0 spins out else packIndexed bitsPerSpin spec 0 spins out

/-- The loop of `spin_signs` from position `index` on. -/
def spinSignsFrom (index : Nat) : List Int → Fallible ValidationError (List Int)
  | [] => pure []
  | value :: rest => do
    ensure (value.sign ≠ 0) (ValidationError.invalidSpinValue index 0)
    let signs ← spinSignsFrom (index + 1) rest
    pure (value.sign :: signs)

def spinSigns (milli : List Int) : Fallible ValidationError (List Int) := spinSignsFrom 0 milli

/-- `count` samples from draw `start` on. -/
def sampleValues (draws : Nat → Nat) (spec : Spec) : Nat → Nat → Fallible ValidationError (List Int)
  | _, 0 => pure []
  | start, count + 1 => do
    let value ← sample (draws start) spec
    let values ← sampleValues draws spec (start + 1) count
    pure (value :: values)

/-- `generate_ising_model_indexed`; `generator` gives the draws of a seed. -/
def generateIsingModelIndexed (generator : Nat → Nat → Nat) (nonce : Nat) (nodes : List Nat)
    (edges : List (Nat × Nat)) (allowedH allowedJ : Spec) (topology : TopologyIndex) :
    Fallible ValidationError (List Int × List Int) := do
  ensure (nodes ≠ []) ValidationError.emptyNodes
  match bitsPerValue allowedH with
  | .error (.error .emptyAllowedValues) => fail .emptyFieldValues
  | .error fault => .error fault
  | .ok _ => do
    let _ ← bitsPerValue allowedJ
    ensure (topology.len = nodes.length) (ValidationError.fieldLengthMismatch nodes.length topology.len)
    let draws := generator nonce
    let h ← sampleValues draws allowedH 0 nodes.length
    let j ← sampleValues draws allowedJ nodes.length edges.length
    pure (h, j)

end QuipValidator.IsingPuzzle
