import QuipValidator.IsingPuzzle
import QuipValidator.Scale

/-! Reading and writing under an allowed-value spec. The bit-packed bytes of an
indexed solution are one number written least byte first, each spin a digit in
base `2 ^ bits`; the two-byte window of the decoder reads the digit back. What a
spec decodes or samples is a value it allows. -/
namespace QuipValidator.IsingPuzzle
open Fallible IsingValidation AllowedValueSpec
open Scale (littleEndian fromLittleEndian)

/-- The values a spec declares. -/
def Allows : Spec → Int → Prop
  | .set values, value => value ∈ values
  | .integerRange min max, value => ∃ whole, (min ≤ whole ∧ whole ≤ max) ∧ value = whole * MILLI_SCALE
  | .continuousRange min max, value => min ≤ value ∧ value ≤ max

/-- The values and bounds of a spec are `i32`. -/
def InI32 : Spec → Prop
  | .set values => ∀ value ∈ values, i32Min ≤ value ∧ value ≤ i32Max
  | .integerRange min max => (i32Min ≤ min ∧ min ≤ i32Max) ∧ i32Min ≤ max ∧ max ≤ i32Max
  | .continuousRange min max => (i32Min ≤ min ∧ min ≤ i32Max) ∧ i32Min ≤ max ∧ max ≤ i32Max

theorem rangeSpan_eq {min max : Int} (low : i32Min ≤ min) (high : max ≤ i32Max) (ordered : min ≤ max) :
    (rangeSpan min max : Int) = max - min + 1 := by
  simp only [i32Min, i32Max] at low high
  simp only [rangeSpan, asU64]
  omega

theorem bitsForCount_spec (count : Nat) : 1 ≤ bitsForCount count ∧ count ≤ 2 ^ bitsForCount count := by
  unfold bitsForCount
  split
  · exact ⟨le_rfl, by omega⟩
  · refine ⟨by omega, ?_⟩
    have below := (Nat.log2_lt (by omega : count - 1 ≠ 0)).mp (Nat.lt_succ_self (Nat.log2 (count - 1)))
    omega

/-- The indexed widths, and what a set or a whole range has passed. -/
theorem bitsPerValue_set {values : List Int} {bits : Nat} :
    (AllowedValueSpec.set values : Spec).bitsPerValue = .ok bits ↔
      values ≠ [] ∧ bits = bitsForCount values.length ∧ bits ≤ MAX_INDEXED_BITS := by
  simp only [AllowedValueSpec.bitsPerValue, bind_success, ensure_success, checkIndexedBits]
  constructor
  · rintro ⟨_, occupied, _, narrow, same⟩
    cases same
    exact ⟨occupied, rfl, narrow⟩
  · rintro ⟨occupied, rfl, narrow⟩
    exact ⟨(), occupied, (), narrow, rfl⟩

theorem bitsPerValue_integerRange {min max : Int} {bits : Nat} :
    (AllowedValueSpec.integerRange min max : Spec).bitsPerValue = .ok bits ↔
      min ≤ max ∧ bits = bitsForCount (rangeSpan min max) ∧ bits ≤ MAX_INDEXED_BITS ∧
        i32Min ≤ min * MILLI_SCALE ∧ max * MILLI_SCALE ≤ i32Max := by
  simp only [AllowedValueSpec.bitsPerValue, bind_success, ensure_success, checkIndexedBits]
  constructor
  · rintro ⟨_, ordered, _, narrow, _, scaled, same⟩
    cases same
    exact ⟨ordered, rfl, narrow, scaled⟩
  · rintro ⟨ordered, rfl, narrow, scaled⟩
    exact ⟨(), ordered, (), narrow, (), scaled, rfl⟩

theorem bitsPerValue_continuousRange {min max : Int} {bits : Nat} :
    (AllowedValueSpec.continuousRange min max : Spec).bitsPerValue = .ok bits ↔ min ≤ max ∧ bits = 32 := by
  simp only [AllowedValueSpec.bitsPerValue, bind_success, ensure_success]
  constructor
  · rintro ⟨_, ordered, same⟩
    cases same
    exact ⟨ordered, rfl⟩
  · rintro ⟨ordered, rfl⟩
    exact ⟨(), ordered, rfl⟩

theorem bitsPerValue_bounds {spec : Spec} {bits : Nat} (wide : spec.bitsPerValue = .ok bits) : 1 ≤ bits ∧ bits ≤ 32 := by
  cases spec with
  | set values =>
    obtain ⟨_, rfl, narrow⟩ := bitsPerValue_set.mp wide
    exact ⟨(bitsForCount_spec _).1, narrow.trans (by decide)⟩
  | integerRange min max =>
    obtain ⟨_, rfl, narrow, _⟩ := bitsPerValue_integerRange.mp wide
    exact ⟨(bitsForCount_spec _).1, narrow.trans (by decide)⟩
  | continuousRange min max =>
    obtain ⟨_, rfl⟩ := bitsPerValue_continuousRange.mp wide
    decide

/-- What a spec decodes it allows. -/
theorem decodeValue_allows {spec : Spec} (typed : InI32 spec) {bits raw : Nat} {value : Int}
    (wide : spec.bitsPerValue = .ok bits) (decoded : spec.decodeValue raw = .ok value) : Allows spec value := by
  cases spec with
  | set values => exact List.mem_of_getElem? (okOr_success.mp decoded)
  | integerRange min max =>
    obtain ⟨ordered, _⟩ := bitsPerValue_integerRange.mp wide
    have span := rangeSpan_eq typed.1.1 typed.2.2 ordered
    simp only [decodeValue, bind_success, ensure_success] at decoded
    obtain ⟨_, below, _, _, same⟩ := decoded
    cases same
    exact ⟨min + raw, ⟨by omega, by omega⟩, rfl⟩
  | continuousRange min max =>
    simp only [decodeValue, bind_success, ensure_success] at decoded
    obtain ⟨_, within, same⟩ := decoded
    cases same
    exact within

/-- A raw offset inside a whole range decodes. -/
theorem decodeValue_offset {min max : Int} (typed : InI32 (.integerRange min max)) {bits raw : Nat}
    (wide : (AllowedValueSpec.integerRange min max : Spec).bitsPerValue = .ok bits) (below : raw < rangeSpan min max) :
    (AllowedValueSpec.integerRange min max : Spec).decodeValue raw = .ok ((min + raw) * MILLI_SCALE) := by
  obtain ⟨ordered, _, _, low, high⟩ := bitsPerValue_integerRange.mp wide
  have span := rangeSpan_eq typed.1.1 typed.2.2 ordered
  have fits : i32Min ≤ (min + raw) * MILLI_SCALE ∧ (min + raw) * MILLI_SCALE ≤ i32Max := by
    simp only [i32Min, i32Max, MILLI_SCALE] at low high ⊢
    omega
  simp only [decodeValue, bind_success, ensure_success]
  exact ⟨(), below, (), fits, rfl⟩

/-- Every draw samples a value the spec allows. -/
theorem sample_allows {spec : Spec} (typed : InI32 spec) {bits : Nat} (wide : spec.bitsPerValue = .ok bits)
    (draw : Nat) : ∃ value, spec.sample draw = .ok value ∧ Allows spec value := by
  cases spec with
  | set values =>
    obtain ⟨occupied, _⟩ := bitsPerValue_set.mp wide
    have inside : draw % values.length < values.length := Nat.mod_lt _ (List.length_pos_iff.mpr occupied)
    refine ⟨values[draw % values.length], ?_, List.getElem_mem inside⟩
    simp only [sample, bind_success, ensure_success, expect_success]
    exact ⟨(), occupied, List.getElem?_eq_getElem inside⟩
  | integerRange min max =>
    obtain ⟨ordered, _⟩ := bitsPerValue_integerRange.mp wide
    have span := rangeSpan_eq typed.1.1 typed.2.2 ordered
    have below : draw % rangeSpan min max < rangeSpan min max := Nat.mod_lt _ (by omega)
    have narrow : draw % rangeSpan min max < 2 ^ 32 := by
      obtain ⟨⟨low, _⟩, _, high⟩ := typed
      simp only [i32Min, i32Max] at low high
      omega
    have decoded := decodeValue_offset typed wide below
    refine ⟨_, ?_, decodeValue_allows typed wide decoded⟩
    simp only [sample, bind_success, ensure_success, asU32_of_lt narrow]
    exact ⟨(), ordered, decoded⟩
  | continuousRange min max =>
    obtain ⟨ordered, _⟩ := bitsPerValue_continuousRange.mp wide
    have span := rangeSpan_eq typed.1.1 typed.2.2 ordered
    have below : draw % rangeSpan min max < rangeSpan min max := Nat.mod_lt _ (by omega)
    refine ⟨min + (draw % rangeSpan min max : Nat), ?_, by omega, by omega⟩
    simp only [sample, bind_success, ensure_success]
    exact ⟨(), ordered, rfl⟩

theorem sampleValues_allows {spec : Spec} (typed : InI32 spec) {bits : Nat} (wide : spec.bitsPerValue = .ok bits)
    (draws : Nat → Nat) (start count : Nat) :
    ∃ values, sampleValues draws spec start count = .ok values ∧ values.length = count ∧
      ∀ value ∈ values, Allows spec value := by
  induction count generalizing start with
  | zero => exact ⟨[], rfl, rfl, by simp⟩
  | succ count ih =>
    obtain ⟨value, sampled, allowed⟩ := sample_allows typed wide (draws start)
    obtain ⟨values, ran, length, each⟩ := ih (start + 1)
    refine ⟨value :: values, ?_, by simp [length], ?_⟩
    · simp only [sampleValues, bind_success]
      exact ⟨value, sampled, values, ran, rfl⟩
    · intro other member
      rcases List.mem_cons.mp member with rfl | later
      · exact allowed
      · exact each other later

theorem bitsPerValue_safe (spec : Spec) : Safe spec.bitsPerValue fun bits => spec.bitsPerValue = .ok bits := by
  refine Safe.exact (show Safe _ (fun _ => True) from ?_)
  cases spec with
  | set values => exact safe_bind safe_ensure fun _ _ => safe_bind safe_ensure fun _ _ => safe_pure trivial
  | integerRange min max =>
    exact safe_bind safe_ensure fun _ _ => safe_bind safe_ensure fun _ _ => safe_bind safe_ensure fun _ _ =>
      safe_pure trivial
  | continuousRange min max => exact safe_bind safe_ensure fun _ _ => safe_pure trivial

theorem decodeValue_safe (spec : Spec) (raw : Nat) : Safe (spec.decodeValue raw) fun _ => True := by
  cases spec with
  | set values => exact safe_okOr.mono fun _ _ => trivial
  | integerRange min max => exact safe_bind safe_ensure fun _ _ => safe_bind safe_ensure fun _ _ => safe_pure trivial
  | continuousRange min max => exact safe_bind safe_ensure fun _ _ => safe_pure trivial

/-- The number whose digits in base `2 ^ bits` are the raw values, the first one lowest. -/
def packedNumber (bits : Nat) : List Nat → Nat
  | [] => 0
  | raw :: rest => raw + 2 ^ bits * packedNumber bits rest

theorem packedNumber_lt {bits : Nat} {raws : List Nat} (narrow : ∀ raw ∈ raws, raw < 2 ^ bits) :
    packedNumber bits raws < 2 ^ (bits * raws.length) := by
  induction raws with
  | nil => simp [packedNumber]
  | cons raw rest ih =>
    have first := narrow raw List.mem_cons_self
    have later := ih fun other member => narrow other (List.mem_cons_of_mem _ member)
    rw [List.length_cons, Nat.mul_succ, Nat.add_comm, pow_add, packedNumber]
    calc raw + 2 ^ bits * packedNumber bits rest
        < 2 ^ bits + 2 ^ bits * packedNumber bits rest := by omega
      _ = 2 ^ bits * (packedNumber bits rest + 1) := by rw [Nat.mul_succ, Nat.add_comm]
      _ ≤ 2 ^ bits * 2 ^ (bits * rest.length) := Nat.mul_le_mul_left _ later

/-- Each digit is read back. -/
theorem packedNumber_digit {bits : Nat} {raws : List Nat} (narrow : ∀ raw ∈ raws, raw < 2 ^ bits) {index raw : Nat}
    (found : raws[index]? = some raw) : packedNumber bits raws / 2 ^ (index * bits) % 2 ^ bits = raw := by
  induction raws generalizing index with
  | nil => simp at found
  | cons first rest ih =>
    have below := narrow first List.mem_cons_self
    cases index with
    | zero =>
      simp only [List.getElem?_cons_zero, Option.some.injEq] at found
      rw [Nat.zero_mul, pow_zero, Nat.div_one, packedNumber, Nat.add_mul_mod_self_left, Nat.mod_eq_of_lt below, found]
    | succ index =>
      rw [List.getElem?_cons_succ] at found
      have tail : packedNumber bits (first :: rest) / 2 ^ bits = packedNumber bits rest := by
        rw [packedNumber, Nat.add_mul_div_left _ _ (Nat.two_pow_pos bits), Nat.div_eq_of_lt below, Nat.zero_add]
      rw [Nat.succ_mul, Nat.add_comm, pow_add, ← Nat.div_div_eq_div_mul, tail]
      exact ih (fun other member => narrow other (List.mem_cons_of_mem _ member)) found

/-- A byte of a packed number, zero past its end. -/
theorem byte_of_number (packed : List UInt8) (place : Nat) :
    (packed.getD place 0).toNat = fromLittleEndian packed / 256 ^ place % 256 := by
  induction packed generalizing place with
  | nil => simp [fromLittleEndian]
  | cons byte rest ih =>
    have small := byte.toNat_lt
    rw [fromLittleEndian]
    cases place with
    | zero =>
      rw [List.getD_cons_zero, pow_zero, Nat.div_one]
      omega
    | succ place =>
      have tail : (byte.toNat + 256 * fromLittleEndian rest) / 256 = fromLittleEndian rest := by omega
      rw [List.getD_cons_succ, pow_succ', ← Nat.div_div_eq_div_mul, tail]
      exact ih place

/-- The two-byte window reads the bits at any offset. -/
private theorem window_eq {bits offset low high number : Nat} (narrow : bits ≤ 8)
    (first : low = number / 256 ^ (offset / 8) % 256) (second : high = number / 256 ^ (offset / 8 + 1) % 256) :
    (low ||| (high <<< 8)) >>> (offset % 8) % 2 ^ bits = number / 2 ^ offset % 2 ^ bits := by
  generalize shifted : number / 256 ^ (offset / 8) = x at first second
  have higher : number / 256 ^ (offset / 8 + 1) = x / 256 := by
    rw [← shifted, pow_succ, Nat.div_div_eq_div_mul]
  rw [higher] at second
  have joined : low ||| (high <<< 8) = x % 2 ^ 16 := by
    have small : low < 2 ^ 8 := by omega
    rw [Nat.or_comm, ← Nat.shiftLeft_add_eq_or_of_lt small, Nat.shiftLeft_eq, first, second]
    omega
  have cut : x % 2 ^ 16 / 2 ^ (offset % 8) = x / 2 ^ (offset % 8) % 2 ^ (16 - offset % 8) := by
    have split : 2 ^ 16 = 2 ^ (offset % 8) * 2 ^ (16 - offset % 8) := by
      rw [← pow_add]
      congr 1
      omega
    rw [split, Nat.mod_mul_right_div_self]
  have whole : x / 2 ^ (offset % 8) = number / 2 ^ offset := by
    have base : 256 ^ (offset / 8) = 2 ^ (8 * (offset / 8)) := by
      rw [pow_mul]
      rfl
    rw [← shifted, base, Nat.div_div_eq_div_mul, ← pow_add, Nat.div_add_mod]
  rw [joined, Nat.shiftRight_eq_div_pow, cut, whole]
  apply Nat.mod_mod_of_dvd
  exact Nat.pow_dvd_pow 2 (by omega)

/-- The decoding loop reads the digits of the packed number. -/
theorem decodeIndexed_success {bits : Nat} (narrow : bits ≤ 8) {packed : List UInt8} {spec : Spec} {indices : List Nat}
    {values : List Int} :
    decodeIndexed packed bits spec indices = .ok values ↔
      List.Forall₂ (fun index value => index * bits / 8 < packed.length ∧
        spec.decodeValue (fromLittleEndian packed / 2 ^ (index * bits) % 2 ^ bits) = .ok value) indices values := by
  induction indices generalizing values with
  | nil =>
    rw [List.forall₂_nil_left_iff]
    constructor
    · intro read
      cases read
      rfl
    · rintro rfl
      rfl
  | cons index rest ih =>
    have window : ∀ b0, packed[index * bits / 8]? = some b0 →
        (b0.toNat ||| ((packed.getD (index * bits / 8 + 1) 0).toNat <<< 8)) >>> (index * bits % 8) % 2 ^ bits =
          fromLittleEndian packed / 2 ^ (index * bits) % 2 ^ bits := by
      intro b0 found
      have low := byte_of_number packed (index * bits / 8)
      rw [List.getD_eq_getElem?_getD, found, Option.getD_some] at low
      exact window_eq narrow low (byte_of_number packed (index * bits / 8 + 1))
    simp only [decodeIndexed, bind_success, expect_success, ih, List.forall₂_cons_left_iff]
    constructor
    · rintro ⟨b0, found, value, decoded, later, read, same⟩
      cases same
      rw [window b0 found] at decoded
      exact ⟨value, later, ⟨(List.getElem?_eq_some_iff.mp found).1, decoded⟩, read, rfl⟩
    · rintro ⟨value, later, ⟨inside, decoded⟩, read, rfl⟩
      have found := List.getElem?_eq_getElem inside
      refine ⟨_, found, value, ?_, later, read, rfl⟩
      rw [window _ found]
      exact decoded

/-- The four bytes of spin `index`, and the word they spell. -/
def chunkAt (packed : List UInt8) (index : Nat) : List UInt8 := (packed.drop (index * 4)).take 4

def wordOf (bytes : List UInt8) : Nat := bytes.foldl (fun word byte => word * 256 + byte.toNat) 0

theorem length_flatMap_beBytes (values : List Int) : (values.flatMap beBytes).length = 4 * values.length := by
  induction values with
  | nil => rfl
  | cons value rest ih =>
    rw [List.flatMap_cons, List.length_append, ih, List.length_cons]
    exact Nat.add_comm 4 _

private theorem drop_flatMap_beBytes (values : List Int) (index : Nat) :
    (values.flatMap beBytes).drop (index * 4) = (values.drop index).flatMap beBytes := by
  induction values generalizing index with
  | nil => simp
  | cons value rest ih =>
    cases index with
    | zero => simp
    | succ index =>
      rw [List.flatMap_cons, List.drop_succ_cons, ← ih index, Nat.succ_mul, Nat.add_comm, ← List.drop_drop]
      rfl

/-- Four big-endian bytes read back as the `i32` they were written from. -/
theorem asI32_beBytes {value : Int} (low : i32Min ≤ value) (high : value ≤ i32Max) :
    asI32 (wordOf (beBytes value)) = value := by
  simp only [i32Min, i32Max] at low high
  simp only [wordOf, beBytes, List.foldl_cons, List.foldl_nil, UInt8.toNat_ofNat', asI32]
  split <;> omega

private theorem decodeContinuous_success {packed : List UInt8} {numSpins : Nat} {spec : Spec} {indices : List Nat}
    {values : List Int} :
    decodeContinuous packed numSpins spec indices = .ok values ↔
      List.Forall₂ (fun index value => (chunkAt packed index).length = 4 ∧
        spec.decodeValue (wordOf (chunkAt packed index)) = .ok value) indices values := by
  induction indices generalizing values with
  | nil =>
    rw [List.forall₂_nil_left_iff]
    constructor
    · intro read
      cases read
      rfl
    · rintro rfl
      rfl
  | cons index rest ih =>
    simp only [decodeContinuous, bind_success, ensure_success, ih, List.forall₂_cons_left_iff]
    constructor
    · rintro ⟨_, whole, value, decoded, later, read, same⟩
      cases same
      exact ⟨value, later, ⟨whole, decoded⟩, read, rfl⟩
    · rintro ⟨value, later, ⟨whole, decoded⟩, read, rfl⟩
      exact ⟨(), whole, value, decoded, later, read, rfl⟩

theorem forall₂_range {α : Type} {related : Nat → α → Prop} {count : Nat} {values : List α} :
    List.Forall₂ related (List.range count) values ↔
      values.length = count ∧ ∀ index value, values[index]? = some value → related index value := by
  rw [List.forall₂_iff_get]
  constructor
  · rintro ⟨length, each⟩
    refine ⟨by rw [← length, List.length_range], ?_⟩
    intro index value found
    obtain ⟨inside, rfl⟩ := List.getElem?_eq_some_iff.mp found
    simpa using each index (by rw [length]; exact inside) inside
  · rintro ⟨rfl, each⟩
    refine ⟨List.length_range, ?_⟩
    intro index _ inside
    simpa using each index _ (List.getElem?_eq_getElem inside)

/-- What an indexed spec unpacks: one digit of the packed number for each spin. -/
theorem unpackSolution_indexed {spec : Spec} {bits : Nat} (wide : spec.bitsPerValue = .ok bits) (narrow : bits ≤ 8)
    {packed : List UInt8} {numSpins : Nat} {values : List Int} :
    unpackSolution packed numSpins spec = .ok values ↔
      packedSolutionByteLen numSpins spec = .ok packed.length ∧ values.length = numSpins ∧
        ∀ index value, values[index]? = some value → index * bits / 8 < packed.length ∧
          spec.decodeValue (fromLittleEndian packed / 2 ^ (index * bits) % 2 ^ bits) = .ok value := by
  simp only [unpackSolution, wide, ok_bind, bind_success, ensure_success, if_neg (show bits ≠ 32 by omega),
    decodeIndexed_success narrow, forall₂_range]
  constructor
  · rintro ⟨_, expected, _, rfl, read⟩
    exact ⟨expected, read⟩
  · rintro ⟨expected, read⟩
    exact ⟨_, expected, (), rfl, read⟩

/-- What a continuous range unpacks: one big-endian word for each spin. -/
theorem unpackSolution_continuous {min max : Int} (ordered : min ≤ max) {packed : List UInt8} {numSpins : Nat}
    {values : List Int} :
    unpackSolution packed numSpins (.continuousRange min max) = .ok values ↔
      packedSolutionByteLen numSpins (.continuousRange min max) = .ok packed.length ∧ values.length = numSpins ∧
        ∀ index value, values[index]? = some value → (chunkAt packed index).length = 4 ∧
          asI32 (wordOf (chunkAt packed index)) = value ∧ min ≤ value ∧ value ≤ max := by
  have wide := bitsPerValue_continuousRange.mpr ⟨ordered, rfl⟩
  have decoded : ∀ (raw : Nat) (value : Int),
      (AllowedValueSpec.continuousRange min max : Spec).decodeValue raw = .ok value ↔
        asI32 raw = value ∧ min ≤ value ∧ value ≤ max := by
    intro raw value
    simp only [decodeValue, bind_success, ensure_success]
    constructor
    · rintro ⟨_, within, same⟩
      cases same
      exact ⟨rfl, within⟩
    · rintro ⟨rfl, within⟩
      exact ⟨(), within, rfl⟩
  simp only [unpackSolution, wide, ok_bind, bind_success, ensure_success, if_true, decodeContinuous_success,
    forall₂_range, decoded]
  constructor
  · rintro ⟨_, expected, _, rfl, read⟩
    exact ⟨expected, read⟩
  · rintro ⟨expected, read⟩
    exact ⟨_, expected, (), rfl, read⟩

/-- Every value an indexed spec allows has an index of its width. -/
theorem indexed_encodes {spec : Spec} (typed : InI32 spec) {bits : Nat} (wide : spec.bitsPerValue = .ok bits)
    (indexed : ∀ min max, spec ≠ .continuousRange min max) :
    bits ≤ MAX_INDEXED_BITS ∧
      ∀ value, Allows spec value → ∃ raw, raw < 2 ^ bits ∧ spec.decodeValue raw = .ok value := by
  cases spec with
  | set values =>
    obtain ⟨_, rfl, narrow⟩ := bitsPerValue_set.mp wide
    refine ⟨narrow, ?_⟩
    intro value allowed
    obtain ⟨raw, inside, found⟩ := List.mem_iff_getElem.mp allowed
    refine ⟨raw, lt_of_lt_of_le inside (bitsForCount_spec _).2, ?_⟩
    rw [decodeValue, okOr_success, List.getElem?_eq_getElem inside, found]
  | integerRange min max =>
    obtain ⟨ordered, rfl, narrow, _⟩ := bitsPerValue_integerRange.mp wide
    refine ⟨narrow, ?_⟩
    rintro value ⟨whole, within, rfl⟩
    have span := rangeSpan_eq typed.1.1 typed.2.2 ordered
    have below : (whole - min).toNat < rangeSpan min max := by omega
    refine ⟨(whole - min).toNat, lt_of_lt_of_le below (bitsForCount_spec _).2, ?_⟩
    rw [decodeValue_offset typed wide below]
    congr 2
    omega
  | continuousRange min max => exact absurd rfl (indexed min max)

theorem byteLen_eq {count bits : Nat} (short : count * bits + 7 ≤ u64Max) :
    saturatingAdd u64Max (saturatingMul u64Max count bits) 7 / 8 = (count * bits + 7) / 8 := by
  rw [saturatingMul, Nat.min_eq_left (by omega), saturatingAdd, Nat.min_eq_left short]

theorem packedSolutionByteLen_eq {spec : Spec} {bits : Nat} (wide : spec.bitsPerValue = .ok bits) {count : Nat}
    (short : count * bits + 7 ≤ u64Max) : packedSolutionByteLen count spec = .ok ((count * bits + 7) / 8) := by
  simp only [packedSolutionByteLen, bind_success]
  exact ⟨bits, wide, congrArg Except.ok (byteLen_eq short)⟩

/-- The first byte of every value lies inside the payload. -/
theorem firstByte_inside {bits count place : Nat} (positive : 1 ≤ bits) (below : place < count) :
    place * bits / 8 < (count * bits + 7) / 8 := by
  have upto := Nat.mul_le_mul_right bits (Nat.succ_le_of_lt below)
  rw [Nat.succ_mul] at upto
  omega

/-- A number written from digits of the spec's width unpacks to what the digits decode to. -/
theorem unpackSolution_digits {spec : Spec} {bits : Nat} (wide : spec.bitsPerValue = .ok bits) (narrow : bits ≤ 8)
    {raws : List Nat} {values : List Int} (short : values.length * bits + 7 ≤ u64Max)
    (encoded : List.Forall₂ (fun value raw => raw < 2 ^ bits ∧ spec.decodeValue raw = .ok value) values raws) :
    unpackSolution (littleEndian ((values.length * bits + 7) / 8) (packedNumber bits raws)) values.length spec =
      .ok values := by
  have length := encoded.length_eq
  have digits : ∀ raw ∈ raws, raw < 2 ^ bits := by
    intro raw member
    obtain ⟨index, inside, rfl⟩ := List.mem_iff_getElem.mp member
    exact (encoded.get (by omega) inside).1
  have fits : packedNumber bits raws < 256 ^ ((values.length * bits + 7) / 8) := by
    refine lt_of_lt_of_le (packedNumber_lt digits) ?_
    rw [show 256 = 2 ^ 8 from rfl, ← pow_mul, ← length, Nat.mul_comm bits]
    exact Nat.pow_le_pow_right (by omega) (by omega)
  rw [unpackSolution_indexed wide narrow, Scale.length_littleEndian, Scale.fromLittleEndian_littleEndian,
    Nat.mod_eq_of_lt fits]
  refine ⟨packedSolutionByteLen_eq wide short, rfl, ?_⟩
  intro index value found
  obtain ⟨inside, rfl⟩ := List.getElem?_eq_some_iff.mp found
  have held := List.getElem?_eq_getElem (show index < raws.length by omega)
  rw [packedNumber_digit digits held]
  exact ⟨firstByte_inside (bitsPerValue_bounds wide).1 inside, (encoded.get inside (by omega)).2⟩

/-- Big-endian words in range unpack to themselves. -/
theorem unpackSolution_words {min max : Int} (typed : InI32 (.continuousRange min max)) (ordered : min ≤ max)
    {values : List Int} (allowed : ∀ value ∈ values, min ≤ value ∧ value ≤ max)
    (short : values.length * 32 + 7 ≤ u64Max) :
    unpackSolution (values.flatMap beBytes) values.length (.continuousRange min max) = .ok values := by
  have wide := bitsPerValue_continuousRange.mpr ⟨ordered, rfl⟩
  rw [unpackSolution_continuous ordered, packedSolutionByteLen_eq wide short, length_flatMap_beBytes]
  refine ⟨congrArg Except.ok (by omega), rfl, ?_⟩
  intro index value found
  obtain ⟨least, most⟩ := allowed value (List.mem_of_getElem? found)
  have chunk : chunkAt (values.flatMap beBytes) index = beBytes value := by
    rw [chunkAt, drop_flatMap_beBytes, List.drop_eq_getElem?_toList_append, found]
    rfl
  rw [chunk]
  exact ⟨rfl, asI32_beBytes (typed.1.1.trans least) (most.trans typed.2.2), least, most⟩

/-- Every vector of allowed values has a packing that unpacks to it. -/
theorem unpackSolution_complete {spec : Spec} (typed : InI32 spec) {bits : Nat} (wide : spec.bitsPerValue = .ok bits)
    {values : List Int} (allowed : ∀ value ∈ values, Allows spec value) (short : values.length * bits + 7 ≤ u64Max) :
    ∃ packed, packedSolutionByteLen values.length spec = .ok packed.length ∧
      unpackSolution packed values.length spec = .ok values := by
  suffices ∃ packed, unpackSolution packed values.length spec = .ok values by
    obtain ⟨packed, read⟩ := this
    refine ⟨packed, ?_, read⟩
    simp only [unpackSolution, bind_success, ensure_success] at read
    obtain ⟨_, _, _, expected, _, rfl, _⟩ := read
    exact expected
  by_cases continuous : ∃ min max, spec = .continuousRange min max
  · obtain ⟨min, max, rfl⟩ := continuous
    obtain ⟨ordered, rfl⟩ := bitsPerValue_continuousRange.mp wide
    exact ⟨_, unpackSolution_words typed ordered allowed short⟩
  · obtain ⟨narrow, encodes⟩ := indexed_encodes typed wide fun min max same => continuous ⟨min, max, same⟩
    choose! raw below decoded using encodes
    have encoded : List.Forall₂ (fun value digit => digit < 2 ^ bits ∧ spec.decodeValue digit = .ok value) values
        (values.map raw) := by
      rw [List.forall₂_map_right_iff, List.forall₂_same]
      intro value member
      exact ⟨below value (allowed value member), decoded value (allowed value member)⟩
    exact ⟨_, unpackSolution_digits wide narrow short encoded⟩

/-- Whatever unpacks is a vector of allowed values of the right length. -/
theorem unpackSolution_sound {spec : Spec} (typed : InI32 spec) {packed : List UInt8} {numSpins : Nat}
    {values : List Int} (unpacked : unpackSolution packed numSpins spec = .ok values) :
    values.length = numSpins ∧ ∀ value ∈ values, Allows spec value := by
  obtain ⟨bits, wide⟩ : ∃ bits, spec.bitsPerValue = .ok bits := by
    simp only [unpackSolution, bind_success] at unpacked
    obtain ⟨bits, wide, _⟩ := unpacked
    exact ⟨bits, wide⟩
  by_cases continuous : ∃ min max, spec = .continuousRange min max
  · obtain ⟨min, max, rfl⟩ := continuous
    obtain ⟨ordered, _⟩ := bitsPerValue_continuousRange.mp wide
    obtain ⟨_, length, each⟩ := (unpackSolution_continuous ordered).mp unpacked
    refine ⟨length, ?_⟩
    intro value member
    obtain ⟨index, found⟩ := List.mem_iff_getElem?.mp member
    exact (each index value found).2.2
  · obtain ⟨narrow, _⟩ := indexed_encodes typed wide fun min max same => continuous ⟨min, max, same⟩
    obtain ⟨_, length, each⟩ := (unpackSolution_indexed wide narrow).mp unpacked
    refine ⟨length, ?_⟩
    intro value member
    obtain ⟨index, found⟩ := List.mem_iff_getElem?.mp member
    exact decodeValue_allows typed wide (each index value found).2

private theorem spinSignsFrom_success (index : Nat) (values signs : List Int) :
    spinSignsFrom index values = .ok signs ↔ (∀ value ∈ values, value ≠ 0) ∧ signs = values.map Int.sign := by
  induction values generalizing index signs with
  | nil =>
    simp only [spinSignsFrom, List.not_mem_nil, false_implies, implies_true, true_and, List.map_nil]
    exact ⟨fun ran => (Except.ok.inj ran).symm, fun same => congrArg Except.ok same.symm⟩
  | cons value rest ih =>
    simp only [spinSignsFrom, bind_success, ensure_success, ih, List.forall_mem_cons, List.map_cons, ne_eq,
      Int.sign_eq_zero_iff_zero]
    constructor
    · rintro ⟨_, nonzero, _, ⟨others, rfl⟩, same⟩
      cases same
      exact ⟨⟨nonzero, others⟩, rfl⟩
    · rintro ⟨⟨nonzero, others⟩, rfl⟩
      exact ⟨(), nonzero, _, ⟨others, rfl⟩, rfl⟩

/-- Only zero has no sign. -/
theorem spinSigns_success {values signs : List Int} :
    spinSigns values = .ok signs ↔ (∀ value ∈ values, value ≠ 0) ∧ signs = values.map Int.sign :=
  spinSignsFrom_success 0 values signs

end QuipValidator.IsingPuzzle
