import Mathlib.Data.List.Basic

/-! Bytes as text in hexadecimal digits. Digits of both cases are read, lower-case
ones are written, and reading is the inverse of writing. -/
namespace QuipValidator.HexText

/-- The value of a digit. -/
def digitValue (digit : Char) : Option Nat :=
  if '0' ≤ digit ∧ digit ≤ '9' then some (digit.toNat - '0'.toNat)
  else if 'a' ≤ digit ∧ digit ≤ 'f' then some (digit.toNat - 'a'.toNat + 10)
  else if 'A' ≤ digit ∧ digit ≤ 'F' then some (digit.toNat - 'A'.toNat + 10)
  else none

/-- The lower-case digit of a value below sixteen. -/
def digit (value : Nat) : Char :=
  if value < 10 then Char.ofNat ('0'.toNat + value) else Char.ofNat ('a'.toNat + value - 10)

/-- A byte from its two halves. -/
def join (high low : Nat) : UInt8 := UInt8.ofNat (16 * high + low)

def encode : List UInt8 → List Char
  | [] => []
  | byte :: rest => digit (byte.toNat / 16) :: digit (byte.toNat % 16) :: encode rest

def decode : List Char → Option (List UInt8)
  | [] => some []
  | [_] => none
  | first :: second :: rest => do
    let high ← digitValue first
    let low ← digitValue second
    let bytes ← decode rest
    pure (join high low :: bytes)

theorem digit_table : ∀ value : Fin 16, digitValue (digit value) = some value.val ∧ (digit value).toLower = digit value := by
  decide

theorem digitValue_digit {value : Nat} (small : value < 16) : digitValue (digit value) = some value :=
  (digit_table ⟨value, small⟩).1

/-- A digit is an ASCII character with a value below sixteen. -/
theorem digitValue_bound {digit : Char} {value : Nat} (read : digitValue digit = some value) :
    value < 16 ∧ digit.toNat < 128 := by
  unfold digitValue at read
  split at read
  · rename_i range
    have upper : digit.toNat ≤ 57 := range.2
    have zero : '0'.toNat = 48 := rfl
    cases read
    omega
  split at read
  · rename_i range
    have upper : digit.toNat ≤ 102 := range.2
    have first : 'a'.toNat = 97 := rfl
    cases read
    omega
  split at read
  · rename_i range
    have upper : digit.toNat ≤ 70 := range.2
    have first : 'A'.toNat = 65 := rfl
    cases read
    omega
  · cases read

theorem join_halves (byte : UInt8) : join (byte.toNat / 16) (byte.toNat % 16) = byte := by
  rw [join, Nat.div_add_mod, UInt8.ofNat_toNat]

/-- Reading is the inverse of writing. -/
theorem decode_encode (bytes : List UInt8) : decode (encode bytes) = some bytes := by
  induction bytes with
  | nil => rfl
  | cons byte rest ih =>
    have whole := byte.toNat_lt
    rw [encode, decode, digitValue_digit (by omega), digitValue_digit (by omega), ih]
    exact congrArg (fun first => some (first :: rest)) (join_halves byte)

theorem length_encode (bytes : List UInt8) : (encode bytes).length = 2 * bytes.length := by
  induction bytes with
  | nil => rfl
  | cons byte rest ih =>
    simp only [encode, List.length_cons, ih]
    omega

/-- What is written is in lower case already. -/
theorem encode_toLower (bytes : List UInt8) : (encode bytes).map Char.toLower = encode bytes := by
  induction bytes with
  | nil => rfl
  | cons byte rest ih =>
    have whole := byte.toNat_lt
    have high := (digit_table ⟨byte.toNat / 16, by omega⟩).2
    have low := (digit_table ⟨byte.toNat % 16, by omega⟩).2
    simp only [encode, List.map_cons, ih, high, low]

theorem encode_injective {first second : List UInt8} (same : encode first = encode second) : first = second := by
  have read := decode_encode first
  rw [same, decode_encode] at read
  exact (Option.some.inj read).symm

/-- What can be read: digits in pairs. -/
theorem decode_isSome (text : List Char) :
    (decode text).isSome = (text.length % 2 == 0 && text.all (fun digit => (digitValue digit).isSome)) := by
  induction text using decode.induct with
  | case1 => rfl
  | case2 _ => rfl
  | case3 first second rest ih =>
    have even : (first :: second :: rest).length % 2 = rest.length % 2 := by
      simp only [List.length_cons]
      omega
    rw [even, List.all_cons, List.all_cons, decode]
    cases digitValue first with
    | none => simp
    | some high =>
      cases digitValue second with
      | none => simp
      | some low =>
        simp only [Option.isSome_some, Bool.true_and, ← ih]
        cases decode rest <;> rfl

theorem decode_cons_cons {first second : Char} {rest : List Char} {bytes : List UInt8} :
    decode (first :: second :: rest) = some bytes ↔ ∃ high low tail, digitValue first = some high ∧
      digitValue second = some low ∧ decode rest = some tail ∧ bytes = join high low :: tail := by
  rw [decode]
  simp only [Option.bind_eq_bind, Option.bind_eq_some_iff, Option.pure_def, Option.some.injEq]
  constructor
  · rintro ⟨high, readHigh, low, readLow, tail, readTail, rfl⟩
    exact ⟨high, low, tail, readHigh, readLow, readTail, rfl⟩
  · rintro ⟨high, low, tail, readHigh, readLow, readTail, rfl⟩
    exact ⟨high, readHigh, low, readLow, tail, readTail, rfl⟩

/-- A byte stands at the index of its two digits. -/
def ReadsAt (text : List Char) (bytes : List UInt8) (index : Nat) : Prop :=
  ∃ first second high low, text[2 * index]? = some first ∧ text[2 * index + 1]? = some second ∧
    digitValue first = some high ∧ digitValue second = some low ∧ bytes[index]? = some (join high low)

/-- Reading, index by index. -/
theorem decode_eq_some_iff {text : List Char} {bytes : List UInt8} : decode text = some bytes ↔
    text.length = 2 * bytes.length ∧ ∀ index, index < bytes.length → ReadsAt text bytes index := by
  induction text using decode.induct generalizing bytes with
  | case1 =>
    constructor
    · rintro ⟨⟩
      exact ⟨rfl, fun _ short => absurd short (Nat.not_lt_zero _)⟩
    · rintro ⟨length, _⟩
      cases bytes with
      | nil => rfl
      | cons _ _ =>
        simp only [List.length_nil, List.length_cons] at length
        omega
  | case2 byte =>
    constructor
    · intro read
      cases read
    · rintro ⟨length, _⟩
      simp only [List.length_singleton] at length
      omega
  | case3 first second rest ih =>
    rw [decode_cons_cons]
    constructor
    · rintro ⟨high, low, tail, readHigh, readLow, readTail, rfl⟩
      obtain ⟨length, pairs⟩ := ih.mp readTail
      refine ⟨by simp only [List.length_cons, length]; omega, fun index short => ?_⟩
      cases index with
      | zero => exact ⟨first, second, high, low, rfl, rfl, readHigh, readLow, rfl⟩
      | succ index => exact pairs index (by simpa using short)
    · rintro ⟨length, pairs⟩
      cases bytes with
      | nil =>
        simp only [List.length_nil, List.length_cons] at length
        omega
      | cons byte tail =>
        obtain ⟨one, two, high, low, atOne, atTwo, readHigh, readLow, joined⟩ := pairs 0 (Nat.zero_lt_succ _)
        cases atOne
        cases atTwo
        cases joined
        refine ⟨high, low, tail, readHigh, readLow, ih.mpr ⟨?_, fun index short => ?_⟩, rfl⟩
        · simp only [List.length_cons] at length
          omega
        · exact pairs (index + 1) (Nat.succ_lt_succ short)

end QuipValidator.HexText
