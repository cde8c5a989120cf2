import Mathlib.Algebra.Order.Ring.Int
import Mathlib.Data.List.Basic

/-! The SCALE wire format. A `Codec` writes a value as bytes and reads one back
from the front of a longer input; what it wrote it reads back, whatever follows.
So encodings can be laid one after the other: equal concatenations have equal
parts (`Codec.encode_inj`), and a decoder that expects more fields than were
written runs out of input. -/
namespace QuipValidator.Scale

variable {α β : Type}

/-- The low `width` bytes of a number, least significant first. -/
def littleEndian (width value : Nat) : List UInt8 :=
  (List.range width).map fun index => UInt8.ofNat (value / 256 ^ index)

/-- The compact encoding of a length. -/
def encodeLength (length : Nat) : List UInt8 :=
  if length < 2 ^ 6 then littleEndian 1 (length * 4)
  else if length < 2 ^ 14 then littleEndian 2 (length * 4 + 1)
  else if length < 2 ^ 30 then littleEndian 4 (length * 4 + 2)
  else 3 :: littleEndian 4 length

/-- `Vec::encode`. -/
def encodeVec {α : Type} (encodeItem : α → List UInt8) (items : List α) : List UInt8 :=
  encodeLength items.length ++ items.flatMap encodeItem

def fromLittleEndian : List UInt8 → Nat
  | [] => 0
  | byte :: rest => byte.toNat + 256 * fromLittleEndian rest

@[simp] theorem length_littleEndian (width value : Nat) : (littleEndian width value).length = width := by
  simp [littleEndian]

theorem littleEndian_succ (width value : Nat) :
    littleEndian (width + 1) value = UInt8.ofNat value :: littleEndian width (value / 256) := by
  simp only [littleEndian, List.range_succ_eq_map, List.map_cons, List.map_map, pow_zero, Nat.div_one]
  congr 1
  apply List.map_congr_left
  intro index _
  simp only [Function.comp, Nat.succ_eq_add_one, pow_succ', Nat.div_div_eq_div_mul]

theorem fromLittleEndian_littleEndian (width value : Nat) :
    fromLittleEndian (littleEndian width value) = value % 256 ^ width := by
  induction width generalizing value with
  | zero => simp [littleEndian, fromLittleEndian, Nat.mod_one]
  | succ width ih =>
    have low : (UInt8.ofNat value).toNat = value % 256 := by simp
    rw [littleEndian_succ, fromLittleEndian, ih, low, pow_succ', Nat.mod_mul]

theorem fromLittleEndian_lt (bytes : List UInt8) : fromLittleEndian bytes < 256 ^ bytes.length := by
  induction bytes with
  | nil => decide
  | cons byte rest ih =>
    have low := byte.toNat_lt
    rw [fromLittleEndian, List.length_cons, pow_succ]
    omega

/-- `[u8; N]`. -/
abbrev FixedBytes (width : Nat) := { bytes : List UInt8 // bytes.length = width }

/-- A value's bytes, and how the front of an input is read as a value. -/
structure Codec (α : Type) where
  /-- What the Rust type can hold. -/
  valid : α → Prop
  encode : α → List UInt8
  decode : List UInt8 → Option (α × List UInt8)
  decode_encode : ∀ value rest, valid value → decode (encode value ++ rest) = some (value, rest)

namespace Codec

/-- Encodings are self-delimiting. -/
theorem encode_inj (codec : Codec α) {first second : α} {restFirst restSecond : List UInt8}
    (validFirst : codec.valid first) (validSecond : codec.valid second)
    (same : codec.encode first ++ restFirst = codec.encode second ++ restSecond) :
    first = second ∧ restFirst = restSecond := by
  have read := codec.decode_encode first restFirst validFirst
  rw [same, codec.decode_encode second restSecond validSecond] at read
  cases read
  exact ⟨rfl, rfl⟩

/-- An unsigned integer of `width` bytes. -/
def word (width : Nat) : Codec Nat where
  valid value := value < 256 ^ width
  encode := littleEndian width
  decode bytes := if width ≤ bytes.length then some (fromLittleEndian (bytes.take width), bytes.drop width) else none
  decode_encode value rest fits := by
    have long : width ≤ (littleEndian width value ++ rest).length := by simp
    have front : (littleEndian width value ++ rest).take width = littleEndian width value := by
      rw [List.take_append_of_le_length (by simp), List.take_of_length_le (by simp)]
    have back : (littleEndian width value ++ rest).drop width = rest := by
      rw [List.drop_append_of_le_length (by simp), List.drop_of_length_le (by simp), List.nil_append]
    rw [if_pos long, front, back, fromLittleEndian_littleEndian, Nat.mod_eq_of_lt fits]

/-- A signed integer of `width` bytes in two's complement. -/
def signed (width : Nat) : Codec Int where
  valid value := -(256 ^ width : Nat) ≤ 2 * value ∧ 2 * value < (256 ^ width : Nat)
  encode value := littleEndian width (value % (256 ^ width : Nat)).toNat
  decode bytes := do
    let (value, bytes) ← (word width).decode bytes
    pure (if 2 * value < 256 ^ width then (value : Int) else (value : Int) - (256 ^ width : Nat), bytes)
  decode_encode value rest fits := by
    obtain ⟨low, high⟩ := fits
    have positive : 0 < 256 ^ width := Nat.pow_pos (by omega)
    have small : (value % (256 ^ width : Nat)).toNat < 256 ^ width := by
      have above := Int.emod_nonneg value (show ((256 ^ width : Nat) : Int) ≠ 0 by omega)
      have below := Int.emod_lt_of_pos value (show (0 : Int) < (256 ^ width : Nat) by omega)
      omega
    have read := (word width).decode_encode (value % (256 ^ width : Nat)).toNat rest small
    simp only [word] at read ⊢
    simp only [read, Option.bind_eq_bind, Option.bind_some, Option.pure_def]
    generalize 256 ^ width = modulus at *
    -- The residue is the value itself, or the value above the modulus if it is negative.
    rcases Int.lt_or_le value 0 with negative | natural
    · have residue : value % modulus = value + modulus := by
        rw [← Int.add_emod_right, Int.emod_eq_of_lt (by omega) (by omega)]
      rw [residue, if_neg (by omega)]
      congr 2
      omega
    · have residue : value % modulus = value := Int.emod_eq_of_lt natural (by omega)
      rw [residue, if_pos (by omega)]
      congr 2
      omega

def byte : Codec UInt8 where
  valid _ := True
  encode value := [value]
  decode
    | [] => none
    | value :: rest => some (value, rest)
  decode_encode _ _ _ := rfl

/-- `Compact<u32>::decode`: four widths by the two low bits, each only for the
values the shorter ones cannot hold. -/
def decodeLength : List UInt8 → Option (Nat × List UInt8)
  | [] => none
  | first :: rest =>
    if first.toNat % 4 = 0 then some (first.toNat / 4, rest)
    else if first.toNat % 4 = 1 then do
      let (word, rest) ← (word 2).decode (first :: rest)
      if 2 ^ 6 ≤ word / 4 then some (word / 4, rest) else none
    else if first.toNat % 4 = 2 then do
      let (word, rest) ← (word 4).decode (first :: rest)
      if 2 ^ 14 ≤ word / 4 then some (word / 4, rest) else none
    else if first.toNat / 4 = 0 then do
      let (word, rest) ← (word 4).decode rest
      if 2 ^ 30 ≤ word then some (word, rest) else none
    else none

/-- A word of at least one byte starts with its value modulo 256. -/
private theorem littleEndian_head (width value : Nat) (rest : List UInt8) :
    ∃ tail, littleEndian (width + 1) value ++ rest = UInt8.ofNat value :: tail := by
  rw [littleEndian_succ]
  exact ⟨_, rfl⟩

private theorem decodeLength_wide (width mode length : Nat) (rest : List UInt8)
    (small : length * 4 + mode < 256 ^ (width + 1)) (low : mode < 4) :
    ∃ tail, littleEndian (width + 1) (length * 4 + mode) ++ rest = UInt8.ofNat (length * 4 + mode) :: tail ∧
      (UInt8.ofNat (length * 4 + mode)).toNat % 4 = mode ∧
      (word (width + 1)).decode (UInt8.ofNat (length * 4 + mode) :: tail) = some (length * 4 + mode, rest) := by
  obtain ⟨tail, shape⟩ := littleEndian_head width (length * 4 + mode) rest
  refine ⟨tail, shape, ?_, ?_⟩
  · simp only [UInt8.toNat_ofNat']
    omega
  · rw [← shape]
    exact (word (width + 1)).decode_encode _ rest small

private theorem decodeLength_encodeLength (length : Nat) (rest : List UInt8) (fits : length < 2 ^ 32) :
    decodeLength (encodeLength length ++ rest) = some (length, rest) := by
  unfold encodeLength
  split
  · rename_i small
    rw [littleEndian_succ]
    have low : (UInt8.ofNat (length * 4)).toNat = length * 4 := by
      simp only [UInt8.toNat_ofNat']
      omega
    simp only [littleEndian, List.range_zero, List.map_nil, List.cons_append, List.nil_append, decodeLength, low]
    rw [if_pos (by omega), Nat.mul_div_cancel _ (by omega)]
  · split
    · obtain ⟨tail, shape, mode, read⟩ := decodeLength_wide 1 1 length rest (by omega) (by omega)
      rw [shape, decodeLength, if_neg (by omega), if_pos mode, read]
      have back : (length * 4 + 1) / 4 = length := by omega
      simp only [Option.bind_eq_bind, Option.bind_some, back]
      rw [if_pos (by omega)]
    · split
      · obtain ⟨tail, shape, mode, read⟩ := decodeLength_wide 3 2 length rest (by omega) (by omega)
        rw [shape, decodeLength, if_neg (by omega), if_neg (by omega), if_pos mode, read]
        have back : (length * 4 + 2) / 4 = length := by omega
        simp only [Option.bind_eq_bind, Option.bind_some, back]
        rw [if_pos (by omega)]
      · have read := (word 4).decode_encode length rest (show length < 256 ^ 4 by omega)
        have three : (3 : UInt8).toNat = 3 := rfl
        rw [List.cons_append, decodeLength, three, if_neg (by omega), if_neg (by omega), if_neg (by omega),
          if_pos (by omega)]
        rw [show (word 4).encode = littleEndian 4 from rfl] at read
        simp only [read, Option.bind_eq_bind, Option.bind_some]
        rw [if_pos (by omega)]

/-- Two fields in a row. -/
def pair (first : Codec α) (second : Codec β) : Codec (α × β) where
  valid value := first.valid value.1 ∧ second.valid value.2
  encode value := first.encode value.1 ++ second.encode value.2
  decode bytes := do
    let (head, bytes) ← first.decode bytes
    let (tail, bytes) ← second.decode bytes
    pure ((head, tail), bytes)
  decode_encode value rest fits := by
    simp only [List.append_assoc, first.decode_encode _ _ fits.1, second.decode_encode _ _ fits.2, Option.bind_eq_bind,
      Option.bind_some, Option.pure_def]

/-- `count` items in a row. -/
def decodeItems (decode : List UInt8 → Option (α × List UInt8)) : Nat → List UInt8 → Option (List α × List UInt8)
  | 0, bytes => some ([], bytes)
  | count + 1, bytes => do
    let (item, bytes) ← decode bytes
    let (items, bytes) ← decodeItems decode count bytes
    pure (item :: items, bytes)

private theorem decodeItems_flatMap (item : Codec α) (items : List α) (rest : List UInt8)
    (fits : ∀ held ∈ items, item.valid held) :
    decodeItems item.decode items.length (items.flatMap item.encode ++ rest) = some (items, rest) := by
  induction items with
  | nil => rfl
  | cons head tail ih =>
    have later := ih fun held member => fits held (List.mem_cons_of_mem head member)
    simp only [List.flatMap_cons, List.append_assoc, List.length_cons, decodeItems,
      item.decode_encode head _ (fits head List.mem_cons_self), Option.bind_eq_bind, Option.bind_some, later,
      Option.pure_def]

/-- A vector of at most `bound` items: its length, then the items. A longer one is refused. -/
def vec (bound : Nat) (item : Codec α) : Codec (List α) where
  valid items := items.length ≤ bound ∧ items.length < 2 ^ 32 ∧ ∀ held ∈ items, item.valid held
  encode := encodeVec item.encode
  decode bytes := do
    let (length, bytes) ← decodeLength bytes
    if length ≤ bound then decodeItems item.decode length bytes else none
  decode_encode items rest fits := by
    obtain ⟨within, short, each⟩ := fits
    simp only [encodeVec, List.append_assoc, decodeLength_encodeLength _ _ short, Option.bind_eq_bind,
      Option.bind_some, if_pos within]
    exact decodeItems_flatMap item items rest each

/-- A fixed number of bytes as they are. -/
def bytes (width : Nat) : Codec (List UInt8) where
  valid value := value.length = width
  encode value := value
  decode input := if width ≤ input.length then some (input.take width, input.drop width) else none
  decode_encode value rest fits := by
    subst fits
    simp

/-- An array of bytes is written as it is. -/
def array (width : Nat) : Codec (FixedBytes width) where
  valid _ := True
  encode value := value.val
  decode input :=
    if long : width ≤ input.length then some (⟨input.take width, by simp [long]⟩, input.drop width) else none
  decode_encode value rest _ := by
    obtain ⟨bytes, rfl⟩ := value
    simp

/-- Reading an array takes its bytes from the front. -/
theorem array_decode_eq_some {width : Nat} {input rest : List UInt8} {value : FixedBytes width} :
    (array width).decode input = some (value, rest) ↔ input = value.val ++ rest := by
  constructor
  · intro read
    simp only [array] at read
    split at read
    · cases read
      exact (List.take_append_drop width input).symm
    · cases read
  · rintro rfl
    exact (array width).decode_encode value rest trivial

/-- A fieldless enumeration: the index of the variant in one byte. -/
def variants [DecidableEq α] (all : List α) : Codec α where
  valid value := value ∈ all ∧ all.length ≤ 256
  encode value := [UInt8.ofNat (all.idxOf value)]
  decode
    | [] => none
    | index :: rest => all[index.toNat]?.map fun value => (value, rest)
  decode_encode value rest fits := by
    obtain ⟨member, few⟩ := fits
    have inside := List.idxOf_lt_length_of_mem member
    have index : (UInt8.ofNat (all.idxOf value)).toNat = all.idxOf value := by
      rw [UInt8.toNat_ofNat']
      exact Nat.mod_eq_of_lt (by omega)
    simp [index, List.getElem?_eq_getElem inside]

def bool : Codec Bool := variants [false, true]

/-- `Option`: a tag byte, then the value if there is one. -/
def option (item : Codec α) : Codec (Option α) where
  valid value := ∀ held, value = some held → item.valid held
  encode
    | none => [0]
    | some held => 1 :: item.encode held
  decode
    | [] => none
    | tag :: rest =>
      if tag = 0 then some (none, rest)
      else if tag = 1 then (item.decode rest).map fun (held, rest) => (some held, rest)
      else none
  decode_encode value rest fits := by
    cases value with
    | none => rfl
    | some held => simp [item.decode_encode held rest (fits held rfl)]

/-- A record through the tuple of its fields. -/
def record (fields : Codec α) (split : β → α) (join : α → β) (joined : ∀ value, join (split value) = value) : Codec β where
  valid value := fields.valid (split value)
  encode value := fields.encode (split value)
  decode bytes := (fields.decode bytes).map fun (held, rest) => (join held, rest)
  decode_encode value rest fits := by
    rw [fields.decode_encode (split value) rest fits, Option.map_some]
    dsimp only
    rw [joined]

/-- A field that was never written cannot be read. -/
theorem pair_decode_none (first : Codec α) (second : Codec β) {value : α} (valid : first.valid value)
    (missing : second.decode [] = none) : (pair first second).decode (first.encode value) = none := by
  have read := first.decode_encode value [] valid
  rw [List.append_nil] at read
  simp only [pair, read, Option.bind_eq_bind, Option.bind_some, missing, Option.bind_none]

/-- Whatever the decoder reads is a value the Rust type can hold. -/
def ReadsValid (codec : Codec α) : Prop := ∀ bytes value rest, codec.decode bytes = some (value, rest) → codec.valid value

theorem word_readsValid (width : Nat) : ReadsValid (word width) := by
  intro bytes value rest read
  simp only [word] at read
  split at read
  · rename_i long
    cases read
    have small := fromLittleEndian_lt (bytes.take width)
    rwa [List.length_take_of_le long] at small
  · cases read

theorem signed_readsValid (width : Nat) : ReadsValid (signed width) := by
  intro bytes value rest read
  simp only [signed, Option.bind_eq_bind, Option.bind_eq_some_iff, Option.pure_def, Option.some.injEq, Prod.mk.injEq]
    at read
  obtain ⟨⟨magnitude, after⟩, front, same, _⟩ := read
  have small : magnitude < 256 ^ width := word_readsValid width _ _ _ front
  simp only [signed]
  generalize 256 ^ width = modulus at *
  split at same <;> omega

theorem array_readsValid (width : Nat) : ReadsValid (array width) := fun _ _ _ _ => trivial

theorem pair_readsValid {first : Codec α} {second : Codec β} (left : ReadsValid first) (right : ReadsValid second) :
    ReadsValid (pair first second) := by
  rintro bytes ⟨head, tail⟩ rest read
  simp only [pair, Option.bind_eq_bind, Option.bind_eq_some_iff, Option.pure_def, Option.some.injEq, Prod.mk.injEq] at read
  obtain ⟨⟨_, middle⟩, front, ⟨_, _⟩, back, ⟨rfl, rfl⟩, rfl⟩ := read
  exact ⟨left _ _ _ front, right _ _ _ back⟩

theorem record_readsValid {fields : Codec α} {split : β → α} {join : α → β} {joined : ∀ value, join (split value) = value}
    (separated : ∀ held, split (join held) = held) (valid : ReadsValid fields) :
    ReadsValid (record fields split join joined) := by
  intro bytes value rest read
  simp only [record, Option.map_eq_some_iff, Prod.mk.injEq] at read
  obtain ⟨⟨held, after⟩, front, rfl, rfl⟩ := read
  have fits := valid _ _ _ front
  rw [← separated held] at fits
  exact fits

/-- What stops the decoder of the first field stops the decoder of both. -/
theorem pair_decode_stuck {first : Codec α} (second : Codec β) {bytes : List UInt8} (stuck : first.decode bytes = none) :
    (pair first second).decode bytes = none := by
  simp only [pair, stuck, Option.bind_eq_bind, Option.bind_none]

theorem record_decode_stuck {fields : Codec α} {split : β → α} {join : α → β}
    {joined : ∀ value, join (split value) = value} {bytes : List UInt8} (stuck : fields.decode bytes = none) :
    (record fields split join joined).decode bytes = none := by
  simp only [record, stuck, Option.map_none]

end Codec

end QuipValidator.Scale
