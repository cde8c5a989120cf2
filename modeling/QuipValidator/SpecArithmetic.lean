import Mathlib.Order.Bounds.Basic
import QuipValidator.PackedSolutions

/-! The arithmetic of `puzzle_spec.rs` in machine widths. Each function is written
again with the operators the source uses on `i64`, `u64` and `u8`, every one of
which panics where its type cannot hold the result; on `i32` bounds none does, and
the results are those of the exact functions. -/
namespace QuipValidator.IsingPuzzle
open Fallible IsingValidation AllowedValueSpec

section Checked
variable {ε : Type}

/-- `a + b` on `i64`. -/
def i64Add (a b : Int) : Fallible ε Int := do
  asserts (i64Min ≤ a + b ∧ a + b ≤ i64Max) "attempt to add with overflow"
  pure (a + b)

/-- `a - b` on `i64`. -/
def i64Sub (a b : Int) : Fallible ε Int := do
  asserts (i64Min ≤ a - b ∧ a - b ≤ i64Max) "attempt to subtract with overflow"
  pure (a - b)

/-- `a - b` on an unsigned type. -/
def unsignedSub (a b : Nat) : Fallible ε Nat := do
  asserts (b ≤ a) "attempt to subtract with overflow"
  pure (a - b)

/-- `a % b` on an unsigned type. -/
def unsignedRem (a b : Nat) : Fallible ε Nat := do
  asserts (b ≠ 0) "attempt to calculate the remainder with a divisor of zero"
  pure (a % b)

end Checked

/-- `i64::saturating_add`. -/
def i64SaturatingAdd (a b : Int) : Int := max i64Min (min i64Max (a + b))

/-- `i64::saturating_mul`. -/
def i64SaturatingMul (a b : Int) : Int := max i64Min (min i64Max (a * b))

/-- `value as i64` for a `u32` or a `u64`. -/
def asI64 (value : Nat) : Int := if value < 2 ^ 63 then value else (value : Int) - 2 ^ 64

/-- `u64::leading_zeros`. -/
def leadingZeros (value : Nat) : Nat := if value = 0 then 64 else 63 - Nat.log2 value

/-- `bits_for_count`. -/
def bitsForCountChecked (count : Nat) : Fallible ValidationError Nat :=
  if count ≤ 1 then pure 1
  else do
    let last ← unsignedSub count 1
    unsignedSub 64 (leadingZeros last % 2 ^ 8)

/-- `(max as i64 - min as i64 + 1) as u64`. -/
def rangeSpanChecked (min max : Int) : Fallible ValidationError Nat := do
  let width ← i64Sub max min
  let count ← i64Add width 1
  pure (asU64 count)

/-- `bits_per_value`. -/
def bitsPerValueChecked : Spec → Fallible ValidationError Nat
  | .set values => do
    ensure (values ≠ []) ValidationError.emptyAllowedValues
    let bits ← bitsForCountChecked values.length
    checkIndexedBits bits
    pure bits
  | .integerRange min max => do
    ensure (min ≤ max) ValidationError.emptyAllowedValues
    let span ← rangeSpanChecked min max
    let bits ← bitsForCountChecked span
    checkIndexedBits bits
    let scaledMin := i64SaturatingMul min MILLI_SCALE
    let scaledMax := i64SaturatingMul max MILLI_SCALE
    ensure (i32Min ≤ scaledMin ∧ scaledMax ≤ i32Max) ValidationError.arithmeticOverflow
    pure bits
  | .continuousRange min max => do
    ensure (min ≤ max) ValidationError.emptyAllowedValues
    pure 32

/-- `decode_value`. -/
def decodeValueChecked (raw : Nat) : Spec → Fallible ValidationError Int
  | .set values => okOr values[raw]? (.invalidEncodedValue raw)
  | .integerRange min max => do
    let span ← rangeSpanChecked min max
    ensure (raw < span) (ValidationError.invalidEncodedValue raw)
    let value := i64SaturatingAdd min (asI64 raw)
    let scaled := i64SaturatingMul value MILLI_SCALE
    ensure (i32Min ≤ scaled ∧ scaled ≤ i32Max) ValidationError.arithmeticOverflow
    pure scaled
  | .continuousRange min max => do
    let value := asI32 raw
    ensure (min ≤ value ∧ value ≤ max) (ValidationError.invalidEncodedValue raw)
    pure value

/-- `sample`, with the next draw of the generator. -/
def sampleChecked (draw : Nat) : Spec → Fallible ValidationError Int
  | .set values => do
    ensure (values ≠ []) ValidationError.emptyAllowedValues
    let index ← unsignedRem draw values.length
    expect values[index]? "index out of bounds"
  | .integerRange min max => do
    ensure (min ≤ max) ValidationError.emptyAllowedValues
    let span ← rangeSpanChecked min max
    let offset ← unsignedRem draw span
    decodeValueChecked (asU32 offset) (.integerRange min max)
  | .continuousRange min max => do
    ensure (min ≤ max) ValidationError.emptyAllowedValues
    let span ← rangeSpanChecked min max
    let offset ← unsignedRem draw span
    let value := i64SaturatingAdd min (asI64 offset)
    pure (asI32 (i32AsU32 value))

/-- A spec as the source's types can hold it: `i32` values and bounds, and a
slice no longer than `usize` counts. -/
def MachineSpec (spec : Spec) : Prop := InI32 spec ∧ ∀ values, spec = .set values → values.length ≤ u64Max

private theorem bitsForCountChecked_eq {count : Nat} (fits : count ≤ u64Max) :
    bitsForCountChecked count = .ok (bitsForCount count) := by
  rw [bitsForCountChecked, bitsForCount]
  by_cases few : count ≤ 1
  · rw [if_pos few, if_pos few]
    rfl
  · have high : Nat.log2 (count - 1) < 64 := by
      rw [Nat.log2_lt (by omega)]
      simp only [u64Max] at fits
      omega
    have zeros : leadingZeros (count - 1) % 2 ^ 8 = 63 - Nat.log2 (count - 1) := by
      rw [leadingZeros, if_neg (by omega)]
      omega
    rw [if_neg few, if_neg few]
    simp only [unsignedSub, bind_success, asserts_success]
    refine ⟨count - 1, ⟨(), by omega, rfl⟩, (), by omega, ?_⟩
    rw [zeros]
    exact congrArg Except.ok (by omega)

/-- Any two `i32` bounds, ordered or not, have a span. -/
private theorem rangeSpanChecked_eq {min max : Int} (low : i32Min ≤ min ∧ min ≤ i32Max)
    (high : i32Min ≤ max ∧ max ≤ i32Max) : rangeSpanChecked min max = .ok (rangeSpan min max) := by
  simp only [i32Min, i32Max] at low high
  simp only [rangeSpanChecked, i64Sub, i64Add, bind_success, asserts_success]
  simp only [i64Min, i64Max]
  exact ⟨max - min, ⟨(), by omega, rfl⟩, max - min + 1, ⟨(), by omega, rfl⟩, rfl⟩

private theorem i64SaturatingMul_scaled {value : Int} (low : -2 ^ 40 ≤ value) (high : value ≤ 2 ^ 40) :
    i64SaturatingMul value MILLI_SCALE = value * MILLI_SCALE := by
  simp only [i64SaturatingMul, i64Min, i64Max, MILLI_SCALE]
  omega

theorem decodeValueChecked_eq {spec : Spec} (typed : InI32 spec) {raw : Nat} (word : raw < 2 ^ 32) :
    decodeValueChecked raw spec = spec.decodeValue raw := by
  cases spec with
  | set values => rfl
  | integerRange min max =>
    obtain ⟨low, high⟩ := typed
    have span := rangeSpanChecked_eq low high
    simp only [i32Min, i32Max] at low
    have value : i64SaturatingAdd min (asI64 raw) = min + raw := by
      simp only [i64SaturatingAdd, asI64, i64Min, i64Max]
      omega
    simp only [decodeValueChecked, decodeValue, span, ok_bind, value]
    rw [i64SaturatingMul_scaled (by omega) (by omega)]
  | continuousRange min max => rfl

/-- Ordered `i32` bounds span at least one and at most `2 ^ 32` values. -/
private theorem rangeSpan_bounds {min max : Int} (low : i32Min ≤ min ∧ min ≤ i32Max)
    (high : i32Min ≤ max ∧ max ≤ i32Max) (ordered : min ≤ max) :
    rangeSpan min max ≠ 0 ∧ rangeSpan min max ≤ 2 ^ 32 ∧ (rangeSpan min max : Int) = max - min + 1 := by
  have span := rangeSpan_eq low.1 high.2 ordered
  simp only [i32Min, i32Max] at low high
  omega

private theorem unsignedRem_eq {ε : Type} {a b : Nat} (positive : b ≠ 0) :
    (unsignedRem a b : Fallible ε Nat) = .ok (a % b) := by
  rw [unsignedRem, asserts, if_pos positive]
  rfl

/-- Two computations that start with the same check agree when they agree past it. -/
private theorem ensure_congr {ε α : Type} {condition : Prop} [Decidable condition] {reason : ε}
    {first second : Unit → Fallible ε α} (past : condition → first () = second ()) :
    (ensure condition reason >>= first) = (ensure condition reason >>= second) := by
  by_cases holds : condition
  · rw [ensure, if_pos holds, ok_bind, ok_bind, past holds]
  · rw [ensure, if_neg holds]
    rfl

theorem bitsPerValueChecked_eq {spec : Spec} (typed : MachineSpec spec) :
    bitsPerValueChecked spec = spec.bitsPerValue := by
  obtain ⟨typed, slice⟩ := typed
  cases spec with
  | set values =>
    apply ensure_congr
    intro _
    rw [bitsForCountChecked_eq (slice values rfl), ok_bind]
  | integerRange min max =>
    obtain ⟨low, high⟩ := typed
    apply ensure_congr
    intro ordered
    have narrow := (rangeSpan_bounds low high ordered).2.1
    have fits : rangeSpan min max ≤ u64Max := by
      simp only [u64Max]
      omega
    rw [rangeSpanChecked_eq low high, ok_bind, bitsForCountChecked_eq fits, ok_bind]
    simp only [i32Min, i32Max] at low high
    rw [i64SaturatingMul_scaled (by omega) (by omega), i64SaturatingMul_scaled (by omega) (by omega)]
  | continuousRange min max => rfl

theorem sampleChecked_eq {spec : Spec} (typed : InI32 spec) {draw : Nat} :
    sampleChecked draw spec = spec.sample draw := by
  cases spec with
  | set values =>
    apply ensure_congr
    intro occupied
    rw [unsignedRem_eq (by simpa using occupied), ok_bind]
  | integerRange min max =>
    apply ensure_congr
    intro ordered
    have positive := (rangeSpan_bounds typed.1 typed.2 ordered).1
    rw [rangeSpanChecked_eq typed.1 typed.2, ok_bind, unsignedRem_eq positive, ok_bind]
    exact decodeValueChecked_eq typed (Nat.mod_lt _ (by omega))
  | continuousRange min max =>
    obtain ⟨low, high⟩ := typed
    apply ensure_congr
    intro ordered
    obtain ⟨positive, _, span⟩ := rangeSpan_bounds low high ordered
    rw [rangeSpanChecked_eq low high, ok_bind, unsignedRem_eq positive, ok_bind]
    have below := Nat.mod_lt draw (Nat.pos_of_ne_zero positive)
    simp only [i32Min, i32Max] at low high
    have value : i64SaturatingAdd min (asI64 (draw % rangeSpan min max)) = min + (draw % rangeSpan min max : Nat) := by
      simp only [i64SaturatingAdd, asI64, i64Min, i64Max]
      omega
    rw [value]
    refine congrArg Except.ok ?_
    rw [asI32, i32AsU32]
    omega

private theorem sample_safe (spec : Spec) (draw : Nat) : Safe (spec.sample draw) fun _ => True := by
  cases spec with
  | set values =>
    refine safe_bind safe_ensure fun _ occupied => ?_
    have inside := Nat.mod_lt draw (List.length_pos_iff.mpr occupied)
    exact (safe_expect (List.getElem?_eq_getElem inside)).mono fun _ _ => trivial
  | integerRange min max => exact safe_bind safe_ensure fun _ _ => decodeValue_safe _ _
  | continuousRange min max => exact safe_bind safe_ensure fun _ _ => safe_pure trivial

/-- The number of values an indexed spec lists. -/
def listedValues : Spec → Nat
  | .set values => values.length
  | .integerRange min max => (max - min + 1).toNat
  | .continuousRange _ _ => 0

private theorem bitsForCount_least (count : Nat) : IsLeast { bits | 1 ≤ bits ∧ count ≤ 2 ^ bits } (bitsForCount count) := by
  refine ⟨bitsForCount_spec count, ?_⟩
  rintro bits ⟨positive, enough⟩
  rw [bitsForCount]
  split
  · exact positive
  · have below : Nat.log2 (count - 1) < bits := (Nat.log2_lt (by omega)).mpr (by omega)
    omega

/-- An indexed width is the least that tells the listed values apart. -/
private theorem bitsPerValue_least {spec : Spec} (typed : InI32 spec) {bits : Nat} (wide : spec.bitsPerValue = .ok bits)
    (indexed : ∀ min max, spec ≠ .continuousRange min max) :
    IsLeast { width | 1 ≤ width ∧ listedValues spec ≤ 2 ^ width } bits ∧ bits ≤ 8 := by
  cases spec with
  | set values =>
    obtain ⟨_, rfl, narrow⟩ := bitsPerValue_set.mp wide
    exact ⟨bitsForCount_least _, narrow⟩
  | integerRange min max =>
    obtain ⟨ordered, rfl, narrow, _⟩ := bitsPerValue_integerRange.mp wide
    have listed : listedValues (.integerRange min max) = rangeSpan min max := by
      have span := rangeSpan_eq typed.1.1 typed.2.2 ordered
      rw [listedValues]
      omega
    rw [listed]
    exact ⟨bitsForCount_least _, narrow⟩
  | continuousRange min max => exact absurd rfl (indexed min max)

/-- Every allowed value is drawn. -/
private theorem sample_reaches {spec : Spec} (typed : InI32 spec) {bits : Nat} (wide : spec.bitsPerValue = .ok bits)
    {value : Int} (allowed : Allows spec value) : ∃ draw < 2 ^ 32, spec.sample draw = .ok value := by
  cases spec with
  | set values =>
    obtain ⟨occupied, rfl, narrow⟩ := bitsPerValue_set.mp wide
    obtain ⟨draw, inside, rfl⟩ := List.mem_iff_getElem.mp allowed
    have few : values.length ≤ 2 ^ 32 :=
      (bitsForCount_spec _).2.trans (Nat.pow_le_pow_right (by omega) (narrow.trans (show MAX_INDEXED_BITS ≤ 32 by decide)))
    refine ⟨draw, by omega, ?_⟩
    simp only [sample, bind_success, ensure_success, expect_success]
    refine ⟨(), occupied, ?_⟩
    rw [Nat.mod_eq_of_lt inside, List.getElem?_eq_getElem inside]
  | integerRange min max =>
    obtain ⟨ordered, _⟩ := bitsPerValue_integerRange.mp wide
    obtain ⟨_, narrow, span⟩ := rangeSpan_bounds typed.1 typed.2 ordered
    obtain ⟨whole, within, rfl⟩ := allowed
    have below : (whole - min).toNat < rangeSpan min max := by omega
    refine ⟨(whole - min).toNat, by omega, ?_⟩
    simp only [sample, bind_success, ensure_success]
    refine ⟨(), ordered, ?_⟩
    rw [Nat.mod_eq_of_lt below, asU32_of_lt (by omega), decodeValue_offset typed wide below]
    congr 2
    omega
  | continuousRange min max =>
    obtain ⟨ordered, _⟩ := bitsPerValue_continuousRange.mp wide
    obtain ⟨_, narrow, span⟩ := rangeSpan_bounds typed.1 typed.2 ordered
    obtain ⟨least, most⟩ := allowed
    have below : (value - min).toNat < rangeSpan min max := by omega
    refine ⟨(value - min).toNat, by omega, ?_⟩
    simp only [sample, bind_success, ensure_success]
    refine ⟨(), ordered, congrArg Except.ok ?_⟩
    rw [Nat.mod_eq_of_lt below]
    omega

/-- The decoded values are the allowed ones. -/
private theorem decodeValue_image {spec : Spec} (typed : InI32 spec) {bits : Nat} (wide : spec.bitsPerValue = .ok bits)
    (value : Int) : (∃ raw < 2 ^ bits, spec.decodeValue raw = .ok value) ↔ Allows spec value := by
  constructor
  · rintro ⟨raw, _, decoded⟩
    exact decodeValue_allows typed wide decoded
  · intro allowed
    by_cases continuous : ∃ min max, spec = .continuousRange min max
    · obtain ⟨min, max, rfl⟩ := continuous
      obtain ⟨_, rfl⟩ := bitsPerValue_continuousRange.mp wide
      obtain ⟨least, most⟩ := allowed
      obtain ⟨low, high⟩ := typed
      simp only [i32Min, i32Max] at low high
      refine ⟨i32AsU32 value, by rw [i32AsU32]; omega, ?_⟩
      have back : asI32 (i32AsU32 value) = value := by
        rw [asI32, i32AsU32]
        omega
      simp only [decodeValue, bind_success, ensure_success, back]
      exact ⟨(), ⟨least, most⟩, rfl⟩
    · obtain ⟨_, encodes⟩ := indexed_encodes typed wide fun min max same => continuous ⟨min, max, same⟩
      exact encodes value allowed

/-- Sampling and decoding agree on the declared values, and on no spec does the
machine arithmetic of either panic. -/
theorem sampling_agrees_with_decoding {spec : Spec} (typed : MachineSpec spec) :
    (∀ bits, bitsPerValueChecked spec = .ok bits →
      (∀ draw < 2 ^ 32, ∃ value, sampleChecked draw spec = .ok value ∧ Allows spec value) ∧
      (∀ value, Allows spec value → ∃ draw < 2 ^ 32, sampleChecked draw spec = .ok value) ∧
      (∀ value, (∃ raw < 2 ^ bits, decodeValueChecked raw spec = .ok value) ↔ Allows spec value) ∧
      ((∀ min max, spec ≠ .continuousRange min max) →
        IsLeast { width | 1 ≤ width ∧ listedValues spec ≤ 2 ^ width } bits ∧ bits ≤ 8)) ∧
    (∀ message, bitsPerValueChecked spec ≠ .error (.panic message)) ∧
    (∀ raw < 2 ^ 32, ∀ message, decodeValueChecked raw spec ≠ .error (.panic message)) ∧
    ∀ draw < 2 ^ 32, ∀ message, sampleChecked draw spec ≠ .error (.panic message) := by
  obtain ⟨inI32, _⟩ := id typed
  refine ⟨?_, ?_, ?_, ?_⟩
  · intro bits wide
    rw [bitsPerValueChecked_eq typed] at wide
    have narrow : 2 ^ bits ≤ 2 ^ 32 := Nat.pow_le_pow_right (by omega) (bitsPerValue_bounds wide).2
    refine ⟨?_, ?_, ?_, bitsPerValue_least inI32 wide⟩
    · intro draw _
      rw [sampleChecked_eq inI32]
      exact sample_allows inI32 wide draw
    · intro value allowed
      obtain ⟨draw, word, drawn⟩ := sample_reaches inI32 wide allowed
      exact ⟨draw, word, by rw [sampleChecked_eq inI32, drawn]⟩
    · intro value
      rw [← decodeValue_image inI32 wide value]
      constructor
      · rintro ⟨raw, below, decoded⟩
        exact ⟨raw, below, by rw [← decodeValueChecked_eq inI32 (by omega), decoded]⟩
      · rintro ⟨raw, below, decoded⟩
        exact ⟨raw, below, by rw [decodeValueChecked_eq inI32 (by omega), decoded]⟩
  · rw [bitsPerValueChecked_eq typed]
    exact (bitsPerValue_safe spec).no_panic
  · intro raw word
    rw [decodeValueChecked_eq inI32 word]
    exact (decodeValue_safe spec raw).no_panic
  · intro draw _
    rw [sampleChecked_eq inI32]
    exact (sample_safe spec draw).no_panic

/-- The full `i32` span, sampled at the largest draw. -/
theorem sampling_agrees_with_decoding_full_span :
    ∃ value, sampleChecked (2 ^ 32 - 1) (.continuousRange i32Min i32Max) = .ok value ∧
      Allows (.continuousRange i32Min i32Max) value := by
  have typed : MachineSpec (.continuousRange i32Min i32Max) := by
    refine ⟨by simp [InI32, i32Min, i32Max], ?_⟩
    intro values impossible
    cases impossible
  exact ((sampling_agrees_with_decoding typed).1 32 rfl).1 _ (by omega)

end QuipValidator.IsingPuzzle
