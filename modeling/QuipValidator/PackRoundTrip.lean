import QuipValidator.PackedSolutions

/-! Packing and unpacking are inverse. The indexed loop of `pack_solution` writes
each value into a number at its bit offset, two bytes at a time; the bits it
never writes are the only ones a decoded payload can lose. The 32-bit loop writes
its words unchecked. -/
namespace QuipValidator.IsingPuzzle
open Fallible IsingValidation AllowedValueSpec
open Scale (littleEndian fromLittleEndian)

/-- Bit `bit` of byte `place` of a number written least byte first. -/
private theorem testBit_byte (number place bit : Nat) :
    (UInt8.ofNat (number / 256 ^ place)).toNat.testBit bit = (decide (bit < 8) && number.testBit (8 * place + bit)) := by
  rw [UInt8.toNat_ofNat', Nat.testBit_mod_two_pow, show 256 = 2 ^ 8 from rfl, ← pow_mul,
    ← Nat.shiftRight_eq_div_pow, Nat.testBit_shiftRight]

/-- The two writes of one value set its bits at the offset, whatever the offset
is and wherever the bytes end. -/
private theorem littleEndian_put {raw : Nat} (narrow : raw < 2 ^ 8) (length number offset : Nat) :
    ((littleEndian length number).modify (offset / 8)
        fun byte => byte ||| UInt8.ofNat ((raw <<< (offset % 8)) % 2 ^ 32)).modify (offset / 8 + 1)
        (fun byte => byte ||| UInt8.ofNat (((raw <<< (offset % 8)) % 2 ^ 32) >>> 8)) =
      littleEndian length (number ||| raw <<< offset) := by
  have whole : (raw <<< (offset % 8)) % 2 ^ 32 = raw <<< (offset % 8) := by
    apply Nat.mod_eq_of_lt
    rw [Nat.shiftLeft_eq]
    have small : 2 ^ (offset % 8) ≤ 2 ^ 8 := Nat.pow_le_pow_right (by omega) (by omega)
    calc raw * 2 ^ (offset % 8) ≤ 2 ^ 8 * 2 ^ 8 := Nat.mul_le_mul narrow.le small
      _ < 2 ^ 32 := by omega
  have beyond : ∀ bit, 8 ≤ bit → raw.testBit bit = false := by
    intro bit high
    apply Nat.testBit_lt_two_pow
    exact lt_of_lt_of_le narrow (Nat.pow_le_pow_right (by omega) high)
  rw [whole]
  apply List.ext_getElem
  · simp
  · intro place _ inside
    apply UInt8.toNat_inj.mp
    apply Nat.eq_of_testBit_eq
    intro bit
    by_cases inByte : bit < 8
    · simp only [List.getElem_modify, littleEndian, List.getElem_map, List.getElem_range]
      rw [testBit_byte, Nat.testBit_or, Nat.testBit_shiftLeft]
      by_cases second : offset / 8 + 1 = place
      · have spill : 8 * place + bit - offset = 8 + bit - offset % 8 := by omega
        rw [if_pos second, if_neg (by omega), UInt8.toNat_or, Nat.testBit_or, testBit_byte, UInt8.toNat_ofNat',
          Nat.testBit_mod_two_pow, Nat.testBit_shiftRight, Nat.testBit_shiftLeft, spill]
        simp [inByte, show offset % 8 ≤ 8 + bit by omega, show offset ≤ 8 * place + bit by omega]
      · rw [if_neg second]
        by_cases first : offset / 8 = place
        · have start : 8 * place + bit - offset = bit - offset % 8 := by omega
          have same : offset ≤ 8 * place + bit ↔ offset % 8 ≤ bit := by omega
          rw [if_pos first, UInt8.toNat_or, Nat.testBit_or, testBit_byte, UInt8.toNat_ofNat',
            Nat.testBit_mod_two_pow, Nat.testBit_shiftLeft, start]
          simp [inByte, same]
        · rw [if_neg first, testBit_byte]
          by_cases later : offset ≤ 8 * place + bit
          · simp [beyond (8 * place + bit - offset) (by omega)]
          · simp [later]
    · have high : ∀ byte : UInt8, byte.toNat.testBit bit = false := by
        intro byte
        apply Nat.testBit_lt_two_pow
        exact lt_of_lt_of_le byte.toNat_lt (Nat.pow_le_pow_right (by omega) (by omega))
      rw [high, high]

private theorem packedNumber_cons {bits raw : Nat} (narrow : raw < 2 ^ bits) (rest : List Nat) (offset : Nat) :
    packedNumber bits (raw :: rest) <<< offset = raw <<< offset ||| packedNumber bits rest <<< (offset + bits) := by
  have joined : packedNumber bits (raw :: rest) = raw ||| packedNumber bits rest <<< bits := by
    rw [Nat.or_comm, ← Nat.shiftLeft_add_eq_or_of_lt narrow, Nat.shiftLeft_eq, packedNumber, Nat.mul_comm, Nat.add_comm]
  rw [joined, Nat.shiftLeft_or_distrib, ← Nat.shiftLeft_add, Nat.add_comm bits]

/-- The indexed loop adds the number of the remaining digits at its offset. -/
private theorem packIndexed_writes {bits : Nat} (narrow : bits ≤ 8) {spec : Spec} {spins : List Int} {raws : List Nat}
    (encoded : List.Forall₂ (fun spin raw => raw < 2 ^ bits ∧ encodeValue spin spec = .ok raw) spins raws)
    (length index number : Nat) (inside : ∀ place < spins.length, (index + place) * bits / 8 < length) :
    packIndexed bits spec index spins (littleEndian length number) =
      .ok (littleEndian length (number ||| packedNumber bits raws <<< (index * bits))) := by
  induction encoded generalizing index number with
  | nil => simp [packIndexed, packedNumber, pure, Except.pure]
  | @cons spin raw spins raws first _ ih =>
    have here := inside 0 (by simp)
    have later := ih (index + 1) (number ||| raw <<< (index * bits)) (by
      intro place short
      have next := inside (place + 1) (by simpa using short)
      rwa [← Nat.add_assoc, Nat.add_right_comm] at next)
    have byte : raw < 2 ^ 8 := lt_of_lt_of_le first.1 (Nat.pow_le_pow_right (by omega) narrow)
    simp only [packIndexed, first.2, ok_bind, bind_success, asserts_success, Scale.length_littleEndian]
    refine ⟨(), here, ?_⟩
    rw [littleEndian_put byte, later, Nat.succ_mul, packedNumber_cons first.1, Nat.or_assoc]

/-- `Set` specs list no value twice. -/
def DistinctValues : Spec → Prop
  | .set values => values.Nodup
  | .integerRange _ _ => True
  | .continuousRange _ _ => True

private theorem encodeValue_set {values : List Int} (narrow : values.length ≤ 2 ^ 32) {value : Int} {raw : Nat} :
    encodeValue value (.set values) = .ok raw ↔ value ∈ values ∧ raw = values.idxOf value := by
  rw [encodeValue, okOr_success]
  by_cases member : value ∈ values
  · have inside := List.idxOf_lt_length_of_mem member
    rw [idxOf?_of_mem member, Option.map_some, asU32_of_lt (by omega), Option.some.injEq]
    exact ⟨fun same => ⟨member, same.symm⟩, fun same => same.2.symm⟩
  · rw [List.idxOf?_eq_none_iff.mpr member]
    simp [member]

private theorem encodeValue_integerRange {min max : Int} (typed : InI32 (.integerRange min max)) {value : Int}
    {raw : Nat} :
    encodeValue value (.integerRange min max) = .ok raw ↔ min + raw ≤ max ∧ value = (min + raw) * MILLI_SCALE := by
  obtain ⟨⟨low, _⟩, _, high⟩ := typed
  simp only [i32Min, i32Max] at low high
  simp only [encodeValue, bind_success, ensure_success]
  constructor
  · rintro ⟨_, whole, _, ⟨least, most⟩, same⟩
    have scaled := Int.tdiv_mul_cancel_of_tmod_eq_zero whole
    have written : raw = i32AsU32 (value.tdiv MILLI_SCALE - min) := (Except.ok.inj same).symm
    rw [i32AsU32] at written
    have offset : min + raw = value.tdiv MILLI_SCALE := by omega
    rw [offset, scaled]
    exact ⟨most, rfl⟩
  · rintro ⟨most, rfl⟩
    rw [Int.mul_tmod_left, Int.mul_tdiv_cancel _ (show (MILLI_SCALE : Int) ≠ 0 by decide)]
    refine ⟨(), rfl, (), ⟨by omega, most⟩, congrArg Except.ok ?_⟩
    rw [i32AsU32]
    omega

section Indexed
variable {spec : Spec} {bits : Nat}

private theorem set_narrow {values : List Int} (wide : (AllowedValueSpec.set values : Spec).bitsPerValue = .ok bits) :
    values.length ≤ 2 ^ bits ∧ values.length ≤ 2 ^ 32 := by
  obtain ⟨_, rfl, narrow⟩ := bitsPerValue_set.mp wide
  have enough := (bitsForCount_spec values.length).2
  refine ⟨enough, enough.trans (Nat.pow_le_pow_right (by omega) ?_)⟩
  exact narrow.trans (show MAX_INDEXED_BITS ≤ 32 by decide)

/-- An indexed spec writes an index of its width that decodes to the value. -/
private theorem encodeValue_sound (typed : InI32 spec) (wide : spec.bitsPerValue = .ok bits)
    (indexed : ∀ min max, spec ≠ .continuousRange min max) {value : Int} {raw : Nat}
    (encoded : encodeValue value spec = .ok raw) : raw < 2 ^ bits ∧ spec.decodeValue raw = .ok value := by
  cases spec with
  | set values =>
    obtain ⟨short, narrow⟩ := set_narrow wide
    obtain ⟨member, rfl⟩ := (encodeValue_set narrow).mp encoded
    have inside := List.idxOf_lt_length_of_mem member
    refine ⟨lt_of_lt_of_le inside short, ?_⟩
    rw [decodeValue, okOr_success, List.getElem?_eq_getElem inside, List.getElem_idxOf]
  | integerRange min max =>
    obtain ⟨most, rfl⟩ := (encodeValue_integerRange typed).mp encoded
    obtain ⟨ordered, rfl, _⟩ := bitsPerValue_integerRange.mp wide
    have span := rangeSpan_eq typed.1.1 typed.2.2 ordered
    have below : raw < rangeSpan min max := by omega
    exact ⟨lt_of_lt_of_le below (bitsForCount_spec _).2, decodeValue_offset typed wide below⟩
  | continuousRange min max => exact absurd rfl (indexed min max)

/-- An indexed spec writes exactly the values it allows. -/
private theorem encodeValue_allows (typed : InI32 spec) (wide : spec.bitsPerValue = .ok bits)
    (indexed : ∀ min max, spec ≠ .continuousRange min max) {value : Int} :
    (∃ raw, encodeValue value spec = .ok raw) ↔ Allows spec value := by
  constructor
  · rintro ⟨raw, encoded⟩
    exact decodeValue_allows typed wide (encodeValue_sound typed wide indexed encoded).2
  · intro allowed
    cases spec with
    | set values => exact ⟨_, (encodeValue_set (set_narrow wide).2).mpr ⟨allowed, rfl⟩⟩
    | integerRange min max =>
      obtain ⟨whole, within, rfl⟩ := allowed
      refine ⟨(whole - min).toNat, (encodeValue_integerRange typed).mpr ?_⟩
      have back : min + (whole - min).toNat = whole := by omega
      rw [back]
      exact ⟨within.2, rfl⟩
    | continuousRange min max => exact absurd rfl (indexed min max)

/-- Without duplicates, the index a value was decoded from is the one written for it. -/
private theorem encodeValue_decodeValue (typed : InI32 spec) (wide : spec.bitsPerValue = .ok bits)
    (distinct : DistinctValues spec) (indexed : ∀ min max, spec ≠ .continuousRange min max) {value : Int} {raw : Nat}
    (decoded : spec.decodeValue raw = .ok value) : encodeValue value spec = .ok raw := by
  cases spec with
  | set values =>
    obtain ⟨inside, rfl⟩ := List.getElem?_eq_some_iff.mp (okOr_success.mp decoded)
    rw [encodeValue_set (set_narrow wide).2]
    exact ⟨List.getElem_mem inside, (distinct.idxOf_getElem raw inside).symm⟩
  | integerRange min max =>
    obtain ⟨ordered, _⟩ := bitsPerValue_integerRange.mp wide
    have span := rangeSpan_eq typed.1.1 typed.2.2 ordered
    simp only [decodeValue, bind_success, ensure_success] at decoded
    obtain ⟨_, below, _, _, same⟩ := decoded
    rw [encodeValue_integerRange typed]
    exact ⟨by omega, (Except.ok.inj same).symm⟩
  | continuousRange min max => exact absurd rfl (indexed min max)

private theorem packIndexed_encodes {index : Nat} {spins : List Int} {out packed : List UInt8}
    (ran : packIndexed bits spec index spins out = .ok packed) : ∀ spin ∈ spins, ∃ raw, encodeValue spin spec = .ok raw := by
  induction spins generalizing index out with
  | nil => exact fun spin impossible => absurd impossible List.not_mem_nil
  | cons spin rest ih =>
    simp only [packIndexed, bind_success] at ran
    obtain ⟨raw, encoded, _, _, later⟩ := ran
    exact List.forall_mem_cons.mpr ⟨⟨raw, encoded⟩, ih later⟩

private theorem littleEndian_zero (length : Nat) : littleEndian length 0 = List.replicate length 0 := by
  rw [List.eq_replicate_iff]
  refine ⟨Scale.length_littleEndian _ _, ?_⟩
  intro byte member
  obtain ⟨place, _, rfl⟩ := List.mem_map.mp member
  rw [Nat.zero_div]
  rfl

/-- What an indexed spec packs: the number whose digits are the indices of the values. -/
private theorem packSolution_indexed (typed : InI32 spec) (wide : spec.bitsPerValue = .ok bits)
    (indexed : ∀ min max, spec ≠ .continuousRange min max) {values : List Int} {raws : List Nat} {length : Nat}
    (expected : packedSolutionByteLen values.length spec = .ok length)
    (inside : ∀ place < values.length, place * bits / 8 < length)
    (encoded : List.Forall₂ (fun value raw => encodeValue value spec = .ok raw) values raws) :
    packSolution values spec = .ok (littleEndian length (packedNumber bits raws)) := by
  obtain ⟨narrow, _⟩ := indexed_encodes typed wide indexed
  have digits := encoded.imp fun value raw written =>
    (⟨(encodeValue_sound typed wide indexed written).1, written⟩ : raw < 2 ^ bits ∧ encodeValue value spec = .ok raw)
  have wrote := packIndexed_writes narrow digits length 0 0 (by simpa using inside)
  rw [littleEndian_zero, Nat.zero_mul, Nat.shiftLeft_zero, Nat.zero_or] at wrote
  have other : bits ≠ 32 := by
    simp only [MAX_INDEXED_BITS] at narrow
    omega
  simp only [packSolution, wide, expected, ok_bind, if_neg other]
  exact wrote

end Indexed

/-- One word written over the four bytes of spin `index`. -/
private theorem overwrite_word {out : List UInt8} {index : Nat} (room : index * 4 + 4 ≤ out.length) (spin : Int) :
    let after := out.take (index * 4) ++ beBytes spin ++ out.drop (index * 4 + 4)
    after.length = out.length ∧ after.take ((index + 1) * 4) = out.take (index * 4) ++ beBytes spin ∧
      ∀ later, after.drop ((index + 1 + later) * 4) = out.drop ((index + 1 + later) * 4) := by
  have front : (out.take (index * 4) ++ beBytes spin).length = index * 4 + 4 := by
    rw [List.length_append, List.length_take, Nat.min_eq_left (by omega)]
    rfl
  refine ⟨?_, ?_, ?_⟩
  · rw [List.length_append, front, List.length_drop]
    omega
  · rw [List.take_left' (by omega)]
  · intro later
    rw [List.drop_append, List.drop_eq_nil_of_le (by omega), List.nil_append, List.drop_drop, front]
    congr 1
    omega

/-- The 32-bit loop overwrites the bytes of the remaining spins. -/
private theorem packContinuous_writes (spins : List Int) (index : Nat) (out : List UInt8)
    (fits : (index + spins.length) * 4 ≤ out.length) :
    packContinuous index spins out =
      .ok (out.take (index * 4) ++ spins.flatMap beBytes ++ out.drop ((index + spins.length) * 4)) := by
  induction spins generalizing index out with
  | nil => simp [packContinuous, pure, Except.pure]
  | cons spin rest ih =>
    rw [List.length_cons] at fits
    have room : index * 4 + 4 ≤ out.length := by omega
    obtain ⟨length, front, back⟩ := overwrite_word room spin
    simp only [packContinuous, bind_success, asserts_success]
    refine ⟨(), room, ?_⟩
    rw [ih (index + 1) _ (by omega), front, back, List.flatMap_cons, List.append_assoc _ (beBytes spin),
      List.length_cons, Nat.add_right_comm, Nat.add_assoc index]

/-- The 32-bit loop panics where the bytes end before the spins do. -/
private theorem packContinuous_fits {spins : List Int} {index : Nat} {out packed : List UInt8}
    (ran : packContinuous index spins out = .ok packed) (started : index * 4 ≤ out.length) :
    (index + spins.length) * 4 ≤ out.length := by
  induction spins generalizing index out with
  | nil => simpa using started
  | cons spin rest ih =>
    simp only [packContinuous, bind_success, asserts_success] at ran
    obtain ⟨_, room, later⟩ := ran
    have length := (overwrite_word room spin).1
    have rest := ih later (by omega)
    rw [List.length_cons]
    omega

/-- What a continuous range packs: every vector whose bits `usize` can count,
whatever its values. -/
theorem packSolution_continuous {min max : Int} (ordered : min ≤ max) {values : List Int} {packed : List UInt8} :
    packSolution values (.continuousRange min max) = .ok packed ↔
      values.length * 32 ≤ u64Max ∧ packed = values.flatMap beBytes := by
  have wide := bitsPerValue_continuousRange.mpr ⟨ordered, rfl⟩
  by_cases short : values.length * 32 ≤ u64Max
  · have counted : values.length * 32 + 7 ≤ u64Max := by
      simp only [u64Max] at short ⊢
      omega
    have wrote := packContinuous_writes values 0 (List.replicate ((values.length * 32 + 7) / 8) 0)
      (by rw [List.length_replicate]; omega)
    have tail : (List.replicate ((values.length * 32 + 7) / 8) (0 : UInt8)).drop ((0 + values.length) * 4) = [] := by
      apply List.drop_eq_nil_of_le
      rw [List.length_replicate]
      omega
    rw [tail, Nat.zero_mul, List.take_zero, List.nil_append, List.append_nil] at wrote
    simp only [packSolution, wide, packedSolutionByteLen_eq wide counted, ok_bind, if_true, wrote, short, true_and]
    exact ⟨fun same => (Except.ok.inj same).symm, fun same => congrArg Except.ok same.symm⟩
  · refine ⟨fun ran => absurd ?_ short, fun both => absurd both.1 short⟩
    simp only [packSolution, packedSolutionByteLen, wide, ok_bind, if_true, bind_success] at ran
    obtain ⟨length, same, wrote⟩ := ran
    have fits := packContinuous_fits wrote (by omega)
    have cut : length ≤ u64Max / 8 := by
      rw [← Except.ok.inj same]
      exact Nat.div_le_div_right (Nat.min_le_right _ _)
    rw [List.length_replicate] at fits
    simp only [u64Max] at cut ⊢
    omega

/-- The bytes with the bits of the last one cleared from bit `used` of the payload on. -/
def clearUnused (used : Nat) (packed : List UInt8) : List UInt8 :=
  packed.modify (packed.length - 1) fun byte => UInt8.ofNat (byte.toNat % 2 ^ (used - 8 * (packed.length - 1)))

/-- Where only the last byte has unused bits, clearing them is cutting the number. -/
private theorem clearUnused_eq {used : Nat} {packed : List UInt8} (last : 8 * (packed.length - 1) ≤ used) :
    clearUnused used packed = littleEndian packed.length (fromLittleEndian packed % 2 ^ used) := by
  apply List.ext_getElem
  · simp [clearUnused]
  · intro place inside _
    apply UInt8.toNat_inj.mp
    apply Nat.eq_of_testBit_eq
    intro bit
    rw [clearUnused, List.length_modify] at inside
    have byte := byte_of_number packed place
    rw [List.getD_eq_getElem?_getD, List.getElem?_eq_getElem inside, Option.getD_some] at byte
    have read : packed[place].toNat.testBit bit =
        (decide (bit < 8) && (fromLittleEndian packed).testBit (8 * place + bit)) := by
      rw [byte, ← testBit_byte, UInt8.toNat_ofNat']
    simp only [clearUnused, List.getElem_modify, littleEndian, List.getElem_map, List.getElem_range]
    rw [testBit_byte, Nat.testBit_mod_two_pow]
    by_cases final : packed.length - 1 = place
    · have kept : bit < used - 8 * (packed.length - 1) ↔ 8 * place + bit < used := by omega
      rw [if_pos final, UInt8.toNat_ofNat', Nat.testBit_mod_two_pow, Nat.testBit_mod_two_pow, read]
      simp only [kept]
      by_cases inByte : bit < 8 <;> simp [inByte]
    · rw [if_neg final, read]
      by_cases inByte : bit < 8
      · simp [inByte, show 8 * place + bit < used by omega]
      · simp [inByte]

/-- The digits of a number below `count` of them are the number cut there. -/
private theorem packedNumber_digits (bits number count : Nat) :
    packedNumber bits ((List.range count).map fun index => number / 2 ^ (index * bits) % 2 ^ bits) =
      number % 2 ^ (count * bits) := by
  induction count generalizing number with
  | zero => simp [packedNumber, Nat.mod_one]
  | succ count ih =>
    rw [List.range_succ_eq_map, List.map_cons, List.map_map, packedNumber, Nat.succ_mul, Nat.add_comm (count * bits),
      pow_add, Nat.mod_mul, ← ih (number / 2 ^ bits)]
    congr 3
    · simp
    · apply List.map_congr_left
      intro index _
      rw [Function.comp_apply, Nat.succ_mul, Nat.add_comm, pow_add, Nat.div_div_eq_div_mul]

private theorem clearUnused_full {used : Nat} {packed : List UInt8} (full : used = 8 * packed.length) :
    clearUnused used packed = packed := by
  cases packed with
  | nil => rfl
  | cons byte rest =>
    have eight : used - 8 * ((byte :: rest).length - 1) = 8 := by
      rw [List.length_cons] at full ⊢
      omega
    have keep : (fun byte : UInt8 => UInt8.ofNat (byte.toNat % 2 ^ 8)) = id := by
      funext byte
      rw [Nat.mod_eq_of_lt byte.toNat_lt, UInt8.ofNat_toNat]
      rfl
    rw [clearUnused, eight, keep, List.modify_id]

/-- Four bytes read as an `i32` are written back. -/
private theorem beBytes_asI32 {bytes : List UInt8} (four : bytes.length = 4) : beBytes (asI32 (wordOf bytes)) = bytes := by
  obtain ⟨a, b, c, d, rfl⟩ := List.length_eq_four.mp four
  have below := And.intro (And.intro a.toNat_lt b.toNat_lt) (And.intro c.toNat_lt d.toNat_lt)
  have spelled : wordOf [a, b, c, d] = ((a.toNat * 256 + b.toNat) * 256 + c.toNat) * 256 + d.toNat := by
    simp [wordOf]
  have word : (asI32 (wordOf [a, b, c, d]) % 2 ^ 32).toNat = wordOf [a, b, c, d] := by
    rw [asI32]
    split <;> omega
  rw [beBytes, word, spelled]
  simp only [List.cons.injEq, and_true, ← UInt8.toNat_inj, UInt8.toNat_ofNat']
  refine ⟨?_, ?_, ?_, ?_⟩ <;> omega

private theorem eq_flatMap_beBytes {packed : List UInt8} {values : List Int} (length : packed.length = 4 * values.length)
    (chunks : ∀ index value, values[index]? = some value → chunkAt packed index = beBytes value) :
    packed = values.flatMap beBytes := by
  induction values generalizing packed with
  | nil => exact List.eq_nil_of_length_eq_zero length
  | cons value rest ih =>
    have first := chunks 0 value rfl
    rw [List.length_cons] at length
    have later := @ih (packed.drop 4) (by rw [List.length_drop]; omega) fun index other found => by
      rw [← chunks (index + 1) other found, chunkAt, chunkAt, List.drop_drop, Nat.add_mul, Nat.add_comm]
    rw [List.flatMap_cons, ← later, ← first]
    exact (List.take_append_drop 4 packed).symm

private theorem packedSolutionByteLen_le {spec : Spec} {bits : Nat} (wide : spec.bitsPerValue = .ok bits)
    {count length : Nat} (counted : packedSolutionByteLen count spec = .ok length) :
    length ≤ (count * bits + 7) / 8 ∧ length ≤ u64Max / 8 := by
  simp only [packedSolutionByteLen, wide, ok_bind] at counted
  rw [← Except.ok.inj counted]
  refine ⟨Nat.div_le_div_right ?_, Nat.div_le_div_right (Nat.min_le_right _ _)⟩
  exact (Nat.min_le_left _ _).trans (Nat.add_le_add_right (Nat.min_le_left _ _) 7)

/-- What unpacks packs again, up to the unused bits. -/
private theorem packSolution_unpacked {spec : Spec} {bits : Nat} (typed : InI32 spec)
    (wide : spec.bitsPerValue = .ok bits) (distinct : DistinctValues spec) {packed : List UInt8} {numSpins : Nat}
    {values : List Int} (unpacked : unpackSolution packed numSpins spec = .ok values) :
    packSolution values spec = .ok (clearUnused (numSpins * bits) packed) := by
  by_cases continuous : ∃ min max, spec = .continuousRange min max
  · obtain ⟨min, max, rfl⟩ := continuous
    obtain ⟨ordered, rfl⟩ := bitsPerValue_continuousRange.mp wide
    obtain ⟨expected, rfl, each⟩ := (unpackSolution_continuous ordered).mp unpacked
    obtain ⟨most, counted⟩ := packedSolutionByteLen_le wide expected
    have least : 4 * values.length ≤ packed.length := by
      rcases Nat.eq_zero_or_pos values.length with none | some
      · omega
      · have final := (each (values.length - 1) _ (List.getElem?_eq_getElem (by omega))).1
        rw [chunkAt, List.length_take, List.length_drop] at final
        omega
    have whole : packed = values.flatMap beBytes := by
      apply eq_flatMap_beBytes (by omega)
      intro index value found
      obtain ⟨word, rfl, _⟩ := each index value found
      exact (beBytes_asI32 word).symm
    rw [clearUnused_full (by omega), packSolution_continuous ordered]
    simp only [u64Max] at counted ⊢
    exact ⟨by omega, whole⟩
  · have indexed : ∀ min max, spec ≠ .continuousRange min max := fun min max same => continuous ⟨min, max, same⟩
    obtain ⟨narrow, _⟩ := indexed_encodes typed wide indexed
    obtain ⟨expected, rfl, each⟩ := (unpackSolution_indexed wide narrow).mp unpacked
    have encoded : List.Forall₂ (fun value raw => encodeValue value spec = .ok raw) values
        ((List.range values.length).map fun index => fromLittleEndian packed / 2 ^ (index * bits) % 2 ^ bits) := by
      rw [List.forall₂_map_right_iff]
      apply List.Forall₂.flip
      rw [forall₂_range]
      refine ⟨rfl, ?_⟩
      intro index value found
      exact encodeValue_decodeValue typed wide distinct indexed (each index value found).2
    have inside : ∀ place < values.length, place * bits / 8 < packed.length := by
      intro place short
      exact (each place _ (List.getElem?_eq_getElem short)).1
    have last := (packedSolutionByteLen_le wide expected).1
    rw [packSolution_indexed typed wide indexed expected inside encoded, packedNumber_digits, clearUnused_eq (by omega)]


/-- Allowed values whose bits `usize` can count pack, and unpack to themselves. -/
private theorem packSolution_allowed {spec : Spec} {bits : Nat} (typed : InI32 spec)
    (wide : spec.bitsPerValue = .ok bits) {values : List Int} (allowed : ∀ value ∈ values, Allows spec value)
    (short : values.length * bits + 7 ≤ u64Max) :
    ∃ packed, packSolution values spec = .ok packed ∧ packed.length = (values.length * bits + 7) / 8 ∧
      unpackSolution packed values.length spec = .ok values := by
  by_cases continuous : ∃ min max, spec = .continuousRange min max
  · obtain ⟨min, max, rfl⟩ := continuous
    obtain ⟨ordered, rfl⟩ := bitsPerValue_continuousRange.mp wide
    refine ⟨values.flatMap beBytes, (packSolution_continuous ordered).mpr ⟨by omega, rfl⟩, ?_, ?_⟩
    · rw [length_flatMap_beBytes]
      omega
    · exact unpackSolution_words typed ordered allowed short
  · have indexed : ∀ min max, spec ≠ .continuousRange min max := fun min max same => continuous ⟨min, max, same⟩
    obtain ⟨narrow, _⟩ := indexed_encodes typed wide indexed
    have encodes : ∀ value, Allows spec value → ∃ raw, encodeValue value spec = .ok raw :=
      fun value => (encodeValue_allows typed wide indexed).mpr
    choose! raw written using encodes
    have encoded : List.Forall₂ (fun value digit => encodeValue value spec = .ok digit) values (values.map raw) := by
      rw [List.forall₂_map_right_iff, List.forall₂_same]
      exact fun value member => written value (allowed value member)
    have decoded := encoded.imp fun value digit encoding => encodeValue_sound typed wide indexed encoding
    have inside := fun place below => @firstByte_inside bits values.length place (bitsPerValue_bounds wide).1 below
    exact ⟨_, packSolution_indexed typed wide indexed (packedSolutionByteLen_eq wide short) inside encoded,
      Scale.length_littleEndian _ _, unpackSolution_digits wide narrow short decoded⟩

private theorem decodeContinuous_safe (packed : List UInt8) (numSpins : Nat) (spec : Spec) (indices : List Nat) :
    Safe (decodeContinuous packed numSpins spec indices) fun _ => True := by
  induction indices with
  | nil => trivial
  | cons index rest ih =>
    refine safe_bind safe_ensure fun _ _ => safe_bind (decodeValue_safe spec _) fun _ _ => ?_
    exact safe_bind ih fun _ _ => safe_pure trivial

private theorem decodeIndexed_safe {packed : List UInt8} {bits : Nat} (spec : Spec) (indices : List Nat)
    (inside : ∀ index ∈ indices, index * bits / 8 < packed.length) :
    Safe (decodeIndexed packed bits spec indices) fun _ => True := by
  induction indices with
  | nil => trivial
  | cons index rest ih =>
    have found := List.getElem?_eq_getElem (inside index List.mem_cons_self)
    refine safe_bind (safe_expect found) fun _ _ => safe_bind (decodeValue_safe spec _) fun _ _ => ?_
    exact safe_bind (ih fun other member => inside other (List.mem_cons_of_mem _ member)) fun _ _ => safe_pure trivial

/-- Unpacking stays inside the payload as long as the bit count does not saturate. -/
private theorem unpackSolution_safe (packed : List UInt8) {numSpins : Nat} {spec : Spec}
    (short : ∀ bits, spec.bitsPerValue = .ok bits → numSpins * bits < 2 ^ 63) :
    Safe (unpackSolution packed numSpins spec) fun _ => True := by
  refine safe_bind (bitsPerValue_safe spec) fun bits wide => ?_
  have counted : numSpins * bits + 7 ≤ u64Max := by
    have below := short bits wide
    simp only [u64Max]
    omega
  rw [packedSolutionByteLen_eq wide counted, ok_bind]
  refine safe_bind safe_ensure fun _ length => ?_
  by_cases word : bits = 32
  · rw [if_pos word]
    exact decodeContinuous_safe _ _ _ _
  · rw [if_neg word]
    apply decodeIndexed_safe
    intro index member
    rw [length]
    exact firstByte_inside (bitsPerValue_bounds wide).1 (List.mem_range.mp member)

/-- Packing and unpacking are inverse: every vector of allowed values whose bits
`usize` can count packs into the expected number of bytes and unpacks to itself;
whatever unpacks is a vector of allowed values that packs to the same bytes with
the unused bits cleared; and unpacking never indexes outside the payload. -/
theorem packed_solutions_round_trip {spec : Spec} {bits : Nat} (typed : InI32 spec)
    (wide : spec.bitsPerValue = .ok bits) (distinct : DistinctValues spec) :
    (∀ values, (∀ value ∈ values, Allows spec value) → values.length * bits + 7 ≤ u64Max →
      ∃ packed, packSolution values spec = .ok packed ∧
        packedSolutionByteLen values.length spec = .ok packed.length ∧
        unpackSolution packed values.length spec = .ok values) ∧
    (∀ packed numSpins values, unpackSolution packed numSpins spec = .ok values →
      (∀ value ∈ values, Allows spec value) ∧
        packSolution values spec = .ok (clearUnused (numSpins * bits) packed)) ∧
    ∀ (anySpec : Spec) (packed : List UInt8) (numSpins : Nat),
      (∀ width, anySpec.bitsPerValue = .ok width → numSpins * width < 2 ^ 63) →
        ∀ message, unpackSolution packed numSpins anySpec ≠ .error (.panic message) := by
  refine ⟨?_, ?_, ?_⟩
  · intro values allowed short
    obtain ⟨packed, packs, length, unpacks⟩ := packSolution_allowed typed wide allowed short
    exact ⟨packed, packs, by rw [packedSolutionByteLen_eq wide short, length], unpacks⟩
  · intro packed numSpins values unpacked
    exact ⟨(unpackSolution_sound typed unpacked).2, packSolution_unpacked typed wide distinct unpacked⟩
  · intro anySpec packed numSpins short message
    exact (unpackSolution_safe packed short).no_panic message

theorem packed_solutions_round_trip_binary :
    ∃ packed, packSolution [1000, -1000, 1000] (.set [-1000, 1000]) = .ok packed ∧
      unpackSolution packed 3 (.set [-1000, 1000]) = .ok [1000, -1000, 1000] := by
  have typed : InI32 (.set [-1000, 1000]) := by simp [InI32, i32Min, i32Max]
  have distinct : DistinctValues (.set [-1000, 1000]) := by simp [DistinctValues]
  have both := (packed_solutions_round_trip typed (show _ = Except.ok 1 from rfl) distinct).1
  obtain ⟨packed, packs, _, unpacks⟩ := both [1000, -1000, 1000] (by simp [Allows]) (by decide)
  exact ⟨packed, packs, unpacks⟩

/-- A slice that fills `2 ^ 61` bytes: its bits saturate `usize`, the buffer is
one byte short, and the last word does not fit. -/
theorem packSolution_overlong :
    (AllowedValueSpec.continuousRange 0 0 : Spec).bitsPerValue = .ok 32 ∧
      (List.replicate (2 ^ 59) (0 : Int)).length * 4 ≤ 2 ^ 63 - 1 ∧
      (∀ value ∈ List.replicate (2 ^ 59) (0 : Int), Allows (.continuousRange 0 0) value) ∧
      ∀ packed, packSolution (List.replicate (2 ^ 59) 0) (.continuousRange 0 0) ≠ .ok packed := by
  refine ⟨rfl, ?_, ?_, ?_⟩
  · rw [List.length_replicate]
    omega
  · intro value member
    obtain ⟨_, rfl⟩ := List.mem_replicate.mp member
    exact ⟨le_rfl, le_rfl⟩
  · intro packed packs
    obtain ⟨short, _⟩ := (packSolution_continuous le_rfl).mp packs
    rw [List.length_replicate] at short
    simp only [u64Max] at short
    omega

/-- Exactly when packing accepts what unpacking can read. Indexed specs check
every value. The 32-bit loop checks none, so a continuous range packs a value it
cannot read back; and it refuses every vector whose bits `usize` cannot count,
allowed or not. A slice of `i32` has at most `isize::MAX` bytes. -/
theorem packSolution_readable_iff {spec : Spec} {bits : Nat} (typed : InI32 spec) (wide : spec.bitsPerValue = .ok bits)
    {values : List Int} (slice : values.length * 4 ≤ 2 ^ 63 - 1) :
    (((∃ packed, packSolution values spec = .ok packed) ↔ ∀ value ∈ values, Allows spec value) ∧
        ∀ packed, packSolution values spec = .ok packed → unpackSolution packed values.length spec = .ok values) ↔
      ∀ min max, spec = .continuousRange min max →
        ((∀ value ∈ values, min ≤ value ∧ value ≤ max) ↔ values.length * 32 ≤ u64Max) := by
  by_cases continuous : ∃ min max, spec = .continuousRange min max
  · obtain ⟨min, max, rfl⟩ := continuous
    obtain ⟨ordered, rfl⟩ := bitsPerValue_continuousRange.mp wide
    have packs : (∃ packed, packSolution values (.continuousRange min max) = .ok packed) ↔
        values.length * 32 ≤ u64Max := by
      simp only [packSolution_continuous ordered, exists_and_left, exists_eq, and_true]
    rw [packs]
    constructor
    · rintro ⟨accepts, _⟩ least most same
      cases same
      exact accepts.symm
    · intro within
      refine ⟨(within min max rfl).symm, ?_⟩
      intro packed ran
      obtain ⟨short, rfl⟩ := (packSolution_continuous ordered).mp ran
      apply unpackSolution_words typed ordered ((within min max rfl).mpr short)
      simp only [u64Max] at short ⊢
      omega
  · have indexed : ∀ min max, spec ≠ .continuousRange min max := fun min max same => continuous ⟨min, max, same⟩
    obtain ⟨narrow, _⟩ := indexed_encodes typed wide indexed
    have short : values.length * bits + 7 ≤ u64Max := by
      have most : values.length * bits ≤ values.length * 8 := Nat.mul_le_mul_left _ narrow
      simp only [u64Max]
      omega
    have accepted : (∃ packed, packSolution values spec = .ok packed) → ∀ value ∈ values, Allows spec value := by
      rintro ⟨packed, packs⟩ value member
      have other : bits ≠ 32 := by
        simp only [MAX_INDEXED_BITS] at narrow
        omega
      simp only [packSolution, wide, ok_bind, if_neg other, bind_success] at packs
      obtain ⟨_, _, ran⟩ := packs
      exact (encodeValue_allows typed wide indexed).mp (packIndexed_encodes ran value member)
    refine ⟨fun _ min max same => absurd same (indexed min max), fun _ => ⟨⟨accepted, ?_⟩, ?_⟩⟩
    · intro allowed
      obtain ⟨packed, packs, _⟩ := packSolution_allowed typed wide allowed short
      exact ⟨packed, packs⟩
    · intro packed packs
      obtain ⟨again, same, _, unpacks⟩ := packSolution_allowed typed wide (accepted ⟨packed, packs⟩) short
      rw [packs] at same
      cases same
      exact unpacks

theorem packSolution_readable_iff_binary :
    ((∃ packed, packSolution [1000, 7] (.set [-1000, 1000]) = .ok packed) ↔
      ∀ value ∈ [1000, 7], Allows (.set [-1000, 1000]) value) ∧
        ∀ packed, packSolution [1000, 7] (.set [-1000, 1000]) = .ok packed →
          unpackSolution packed 2 (.set [-1000, 1000]) = .ok [1000, 7] := by
  have typed : InI32 (.set [-1000, 1000]) := by simp [InI32, i32Min, i32Max]
  have exactly := @packSolution_readable_iff (.set [-1000, 1000]) 1 typed rfl [1000, 7] (by simp)
  apply exactly.mpr
  intro min max impossible
  cases impossible

/-- A continuous range of the single value zero packs a one, which nothing unpacks. -/
theorem packSolution_unreadable :
    (AllowedValueSpec.continuousRange 0 0 : Spec).bitsPerValue = .ok 32 ∧
      packSolution [1] (.continuousRange 0 0) = .ok [0, 0, 0, 1] ∧ ¬ Allows (.continuousRange 0 0) 1 ∧
      ∀ values, unpackSolution [0, 0, 0, 1] 1 (.continuousRange 0 0) ≠ .ok values := by
  refine ⟨rfl, rfl, ?_, ?_⟩
  · rintro ⟨_, impossible⟩
    omega
  · intro values unpacks
    obtain ⟨_, length, each⟩ := (unpackSolution_continuous le_rfl).mp unpacks
    obtain ⟨value, rfl⟩ := List.length_eq_one_iff.mp length
    obtain ⟨_, word, _, most⟩ := each 0 value rfl
    rw [show wordOf (chunkAt [0, 0, 0, 1] 0) = 1 from rfl, asI32, if_pos (by omega)] at word
    omega

end QuipValidator.IsingPuzzle
