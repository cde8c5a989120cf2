import QuipValidator.HexText
import QuipValidator.TransactionKeys
import Mathlib.Data.List.Infix

/-! The secret URIs a seed can be given as: what `master_seed_from_secret_uri` accepts, and
that nothing behind a slash is ever ignored. The source reads the digits of a seed by
index from the UTF-8 bytes of the text; read as characters they are the library's. -/
namespace QuipValidator.TransactionCrypto
open Scale HybridEnvelope Fallible

/-- A vector built in order is one where every entry succeeds. -/
theorem ofFnM_success {ε α : Type} {n : Nat} {entry : Fin n → Fallible ε α} {built : Vector α n} :
    Vector.ofFnM entry = .ok built ↔ ∀ index : Fin n, entry index = .ok built[index] := by
  constructor
  · intro ran
    induction n with
    | zero => exact fun index => index.elim0
    | succ n ih =>
      rw [Vector.ofFnM_succ] at ran
      obtain ⟨front, frontRan, last, lastRan, same⟩ := by simpa only [bind_success] using ran
      cases same
      intro index
      induction index using Fin.lastCases with
      | last =>
        rw [lastRan]
        simp
      | cast index =>
        rw [ih frontRan index]
        simp
  · intro each
    have pointwise : entry = fun index => pure built[index] := funext each
    rw [pointwise, Vector.ofFnM_pure]
    exact congrArg Except.ok (by simp)

/-- The byte of an ASCII character. -/
def code (c : Char) : UInt8 := UInt8.ofNat c.toNat

theorem hexDigit_table : ∀ n : Fin 128, hexDigit (UInt8.ofNat n) =
    match HexText.digitValue (Char.ofNat n) with
    | some value => .ok (UInt8.ofNat value)
    | none => fail .invalidSeed := by
  decide

theorem hexDigit_code {c : Char} (ascii : c.toNat < 128) {value : UInt8} :
    hexDigit (code c) = .ok value ↔ ∃ small, HexText.digitValue c = some small ∧ value = UInt8.ofNat small := by
  have entry := hexDigit_table ⟨c.toNat, ascii⟩
  rw [Char.ofNat_toNat] at entry
  rw [code, entry]
  cases HexText.digitValue c with
  | none => simp [fail]
  | some small => simp [eq_comm]

theorem join_table : ∀ high low : Fin 16, UInt8.ofNat high <<< 4 ||| UInt8.ofNat low = HexText.join high low := by
  decide

/-- A byte outside ASCII is no digit. -/
theorem hexDigit_ascii {ch value : UInt8} (read : hexDigit ch = .ok value) : ch.toNat < 128 := by
  unfold hexDigit at read
  simp only [UInt8.le_iff_toNat_le] at read
  split at read
  · rename_i range
    have upper : ch.toNat ≤ 57 := range.2
    omega
  split at read
  · rename_i range
    have upper : ch.toNat ≤ 102 := range.2
    omega
  split at read
  · rename_i range
    have upper : ch.toNat ≤ 70 := range.2
    omega
  · cases read

/-- The first byte of a character outside ASCII is not ASCII either. -/
theorem utf8EncodeChar_cases (c : Char) : (c.toNat < 128 ∧ String.utf8EncodeChar c = [code c]) ∨
    ∃ first rest, String.utf8EncodeChar c = first :: rest ∧ 128 ≤ first.toNat := by
  have marked : ∀ low mark : UInt8, 128 ≤ mark.toNat → 128 ≤ (low ||| mark).toNat := by
    intro low mark high
    rw [UInt8.toNat_or]
    exact high.trans Nat.right_le_or
  rcases Char.utf8Size_eq c with one | two | three | four
  · refine .inl ⟨?_, String.utf8EncodeChar_eq_singleton one⟩
    rw [Char.utf8Size_eq_one_iff, UInt32.le_iff_toNat_le] at one
    exact Nat.lt_succ_of_le one
  · exact .inr ⟨_, _, String.utf8EncodeChar_eq_cons_cons two, marked _ _ (by decide)⟩
  · exact .inr ⟨_, _, String.utf8EncodeChar_eq_cons_cons_cons three, marked _ _ (by decide)⟩
  · exact .inr ⟨_, _, String.utf8EncodeChar_eq_cons_cons_cons_cons four, marked _ _ (by decide)⟩

theorem utf8_ascii {text : List Char} (ascii : ∀ c ∈ text, c.toNat < 128) : utf8 text = text.map code := by
  induction text with
  | nil => rfl
  | cons c rest ih =>
    have one : c.utf8Size = 1 := by
      rw [Char.utf8Size_eq_one_iff, UInt32.le_iff_toNat_le]
      exact Nat.le_of_lt_succ (ascii c List.mem_cons_self)
    rw [utf8, List.flatMap_cons, List.map_cons, String.utf8EncodeChar_eq_singleton one]
    exact congrArg (code c :: ·) (ih fun other member => ascii other (List.mem_cons_of_mem _ member))

/-- Text whose bytes are all ASCII is ASCII. -/
theorem ascii_of_utf8 {text : List Char} (bytes : ∀ byte ∈ utf8 text, byte.toNat < 128) : ∀ c ∈ text, c.toNat < 128 := by
  intro c member
  rcases utf8EncodeChar_cases c with ⟨ascii, _⟩ | ⟨first, rest, shape, high⟩
  · exact ascii
  · have inside : first ∈ utf8 text := List.mem_flatMap.mpr ⟨c, member, by rw [shape]; exact List.mem_cons_self⟩
    exact absurd (bytes first inside) (Nat.not_lt.mpr high)

/-- The loop over the bytes: every index has two digits, and their byte. -/
theorem decodeSeedHex_bytes {hex : List Char} {seed : FixedBytes 32} :
    decodeSeedHex hex = .ok seed ↔ (utf8 hex).length = 64 ∧ ∀ index, index < 32 → ∃ first second hi lo,
      (utf8 hex)[2 * index]? = some first ∧ (utf8 hex)[2 * index + 1]? = some second ∧
      hexDigit first = .ok hi ∧ hexDigit second = .ok lo ∧ seed.val[index]? = some (hi <<< 4 ||| lo) := by
  unfold decodeSeedHex
  by_cases whole : (utf8 hex).length = MASTER_SEED_LEN * 2
  · rw [dif_pos whole]
    simp only [bind_success, ofFnM_success]
    have long : (utf8 hex).length = 64 := whole
    constructor
    · rintro ⟨built, each, same⟩
      cases same
      refine ⟨long, fun index inside => ?_⟩
      obtain ⟨hi, first, lo, second, joined⟩ := each ⟨index, inside⟩
      refine ⟨_, _, hi, lo, List.getElem?_eq_getElem (by omega), List.getElem?_eq_getElem (by omega), ?_, ?_, ?_⟩
      · simpa only [Nat.mul_comm] using first
      · simpa only [Nat.mul_comm] using second
      · have entry := Except.ok.inj joined
        rw [List.getElem?_eq_getElem (by rw [Vector.length_toList]; exact inside)]
        exact congrArg some entry.symm
    · rintro ⟨_, each⟩
      refine ⟨⟨seed.val.toArray, seed.property⟩, fun index => ?_, ?_⟩
      · obtain ⟨first, second, hi, lo, atFirst, atSecond, readHi, readLo, joined⟩ := each index index.isLt
        obtain ⟨_, rfl⟩ := List.getElem?_eq_some_iff.mp atFirst
        obtain ⟨_, rfl⟩ := List.getElem?_eq_some_iff.mp atSecond
        obtain ⟨_, entry⟩ := List.getElem?_eq_some_iff.mp joined
        refine ⟨hi, by simpa only [Nat.mul_comm] using readHi, lo, by simpa only [Nat.mul_comm] using readLo, ?_⟩
        exact congrArg Except.ok entry.symm
      · rfl
  · rw [dif_neg whole]
    constructor
    · intro failed
      cases failed
    · rintro ⟨long, _⟩
      exact absurd long whole

/-- Every position below an even bound is one of a pair. -/
theorem mem_of_pairs {α : Type} {items : List α} {pairs : Nat} (long : items.length = 2 * pairs) {good : α → Prop}
    (each : ∀ index, index < pairs → ∃ first second, items[2 * index]? = some first ∧ items[2 * index + 1]? = some second ∧
      good first ∧ good second) : ∀ item ∈ items, good item := by
  intro item member
  obtain ⟨position, inside, rfl⟩ := List.getElem_of_mem member
  obtain ⟨first, second, atFirst, atSecond, goodFirst, goodSecond⟩ := each (position / 2) (by omega)
  rcases Nat.mod_two_eq_zero_or_one position with even | odd
  · have same : 2 * (position / 2) = position := by omega
    rw [same, List.getElem?_eq_getElem inside] at atFirst
    cases atFirst
    exact goodFirst
  · have same : 2 * (position / 2) + 1 = position := by omega
    rw [same, List.getElem?_eq_getElem inside] at atSecond
    cases atSecond
    exact goodSecond

/-- Reading the digits of a seed by index from the bytes is reading the text. -/
theorem decodeSeedHex_ok {hex : List Char} {seed : FixedBytes 32} :
    decodeSeedHex hex = .ok seed ↔ HexText.decode hex = some seed.val := by
  rw [decodeSeedHex_bytes, HexText.decode_eq_some_iff, seed.property]
  constructor
  · rintro ⟨long, each⟩
    have ascii : ∀ c ∈ hex, c.toNat < 128 := by
      refine ascii_of_utf8 (mem_of_pairs (show (utf8 hex).length = 2 * 32 from long) fun index inside => ?_)
      obtain ⟨first, second, _, _, atFirst, atSecond, readHi, readLo, _⟩ := each index inside
      exact ⟨first, second, atFirst, atSecond, hexDigit_ascii readHi, hexDigit_ascii readLo⟩
    rw [utf8_ascii ascii] at long each
    rw [List.length_map] at long
    refine ⟨long, fun index inside => ?_⟩
    obtain ⟨_, _, _, _, atFirst, atSecond, readHi, readLo, joined⟩ := each index inside
    rw [List.getElem?_map, Option.map_eq_some_iff] at atFirst atSecond
    obtain ⟨first, atFirst, rfl⟩ := atFirst
    obtain ⟨second, atSecond, rfl⟩ := atSecond
    obtain ⟨high, readHigh, rfl⟩ := (hexDigit_code (ascii first (List.mem_of_getElem? atFirst))).mp readHi
    obtain ⟨low, readLow, rfl⟩ := (hexDigit_code (ascii second (List.mem_of_getElem? atSecond))).mp readLo
    refine ⟨first, second, high, low, atFirst, atSecond, readHigh, readLow, ?_⟩
    rw [joined]
    exact congrArg some
      (join_table ⟨high, (HexText.digitValue_bound readHigh).1⟩ ⟨low, (HexText.digitValue_bound readLow).1⟩)
  · rintro ⟨long, each⟩
    have ascii : ∀ c ∈ hex, c.toNat < 128 := by
      refine mem_of_pairs long fun index inside => ?_
      obtain ⟨first, second, _, _, atFirst, atSecond, readHigh, readLow, _⟩ := each index inside
      exact ⟨first, second, atFirst, atSecond, (HexText.digitValue_bound readHigh).2, (HexText.digitValue_bound readLow).2⟩
    rw [utf8_ascii ascii, List.length_map]
    refine ⟨long, fun index inside => ?_⟩
    obtain ⟨first, second, high, low, atFirst, atSecond, readHigh, readLow, joined⟩ := each index inside
    obtain ⟨highSmall, firstAscii⟩ := HexText.digitValue_bound readHigh
    obtain ⟨lowSmall, secondAscii⟩ := HexText.digitValue_bound readLow
    refine ⟨code first, code second, UInt8.ofNat high, UInt8.ofNat low, by rw [List.getElem?_map, atFirst]; rfl,
      by rw [List.getElem?_map, atSecond]; rfl, (hexDigit_code firstAscii).mpr ⟨high, readHigh, rfl⟩,
      (hexDigit_code secondAscii).mpr ⟨low, readLow, rfl⟩, ?_⟩
    rw [joined]
    exact congrArg some (join_table ⟨high, highSmall⟩ ⟨low, lowSmall⟩).symm

theorem splitOnce_split {separator text before after : List Char} (found : splitOnce separator text = some (before, after)) :
    text = before ++ separator ++ after := by
  induction text generalizing before with
  | nil => cases found
  | cons first rest ih =>
    rw [splitOnce] at found
    split at found
    · rename_i starts
      cases found
      rw [List.nil_append]
      exact List.prefix_iff_eq_append.mp (List.isPrefixOf_iff_prefix.mp starts) |>.symm
    · obtain ⟨⟨front, back⟩, later, same⟩ := Option.map_eq_some_iff.mp found
      cases same
      rw [ih later]
      rfl

/-- A separator is found where its first character is, when nothing before has that. -/
theorem splitOnce_append {mark : Char} {rest before after : List Char} (clear : mark ∉ before) :
    splitOnce (mark :: rest) (before ++ (mark :: rest) ++ after) = some (before, after) := by
  induction before with
  | nil =>
    have starts : (mark :: rest).isPrefixOf (mark :: (rest ++ after)) = true :=
      List.isPrefixOf_iff_prefix.mpr ⟨after, rfl⟩
    rw [List.nil_append, List.cons_append, splitOnce, if_pos starts]
    exact congrArg (fun back => some ([], back)) List.drop_left
  | cons first front ih =>
    rw [List.mem_cons, not_or] at clear
    obtain ⟨differs, later⟩ := clear
    have other : (mark :: rest).isPrefixOf (first :: (front ++ (mark :: rest) ++ after)) = false := by
      rw [List.isPrefixOf, beq_eq_false_iff_ne.mpr differs, Bool.false_and]
    rw [List.cons_append, List.cons_append, splitOnce, if_neg (by rw [other]; exact Bool.false_ne_true), ih later]
    rfl

theorem splitOnce_none {mark : Char} {rest text : List Char} (clear : mark ∉ text) :
    splitOnce (mark :: rest) text = none := by
  cases found : splitOnce (mark :: rest) text with
  | none => rfl
  | some parts =>
    have shape := splitOnce_split found
    refine absurd ?_ clear
    rw [shape]
    simp

theorem mem_dropWhile {α : Type} {p : α → Bool} {item : α} (kept : p item = false) {items : List α} :
    item ∈ items.dropWhile p ↔ item ∈ items := by
  induction items with
  | nil => exact Iff.rfl
  | cons first rest ih =>
    rw [List.dropWhile_cons]
    split
    · rename_i dropped
      rw [ih, List.mem_cons]
      refine ⟨.inr, fun either => either.resolve_left ?_⟩
      rintro rfl
      rw [kept] at dropped
      cases dropped
    · exact Iff.rfl

theorem mem_trim {text : List Char} : '/' ∈ trim text ↔ '/' ∈ text := by
  have kept : isWhitespace '/' = false := by decide
  rw [trim, List.rdropWhile, List.mem_reverse, mem_dropWhile kept, List.mem_reverse, mem_dropWhile kept]

theorem trim_of_clear {text : List Char} (clear : ∀ c ∈ text, isWhitespace c = false) : trim text = text := by
  have keep : ∀ items : List Char, (∀ c ∈ items, isWhitespace c = false) → items.dropWhile isWhitespace = items := by
    intro items clear
    cases items with
    | nil => rfl
    | cons first rest => rw [List.dropWhile_cons, clear first List.mem_cons_self]; rfl
  rw [trim, List.rdropWhile, keep text clear, keep _ fun c member => clear c (List.mem_reverse.mp member), List.reverse_reverse]

theorem digit_table : ∀ n : Fin 128, (HexText.digitValue (Char.ofNat n)).isSome = true →
    isWhitespace (Char.ofNat n) = false ∧ Char.ofNat n ≠ '/' := by
  decide

/-- Digits are neither white space nor slashes. -/
theorem digit_plain {digits : List Char} {bytes : List UInt8} (read : HexText.decode digits = some bytes) :
    ∀ c ∈ digits, isWhitespace c = false ∧ c ≠ '/' := by
  intro c member
  have all := HexText.decode_isSome digits
  rw [read] at all
  have digit := List.all_eq_true.mp (Bool.and_eq_true_iff.mp all.symm).2 c member
  obtain ⟨value, valued⟩ := Option.isSome_iff_exists.mp digit
  have plain := digit_table ⟨c.toNat, (HexText.digitValue_bound valued).2⟩
  rw [Char.ofNat_toNat] at plain
  exact plain digit

/-- The grammar: a phrase without slashes, and perhaps a password behind three. -/
def UriParts (uri phrase : List Char) (password : Option (List Char)) : Prop :=
  '/' ∉ phrase ∧ uri = phrase ++ (password.map (['/', '/', '/'] ++ ·)).getD []

variable {S : Suite} {P : Primitives S}

/-- What the phrase stands for: the digits of a seed, or a mnemonic with its password. -/
def PhraseSeed (P : Primitives S) (phrase : List Char) (password : Option (List Char)) (seed : FixedBytes 32) : Prop :=
  (∃ digits, stripHexPrefix? phrase = some digits ∧ HexText.decode digits = some seed.val) ∨
  stripHexPrefix? phrase = none ∧ ∃ entropy bigSeed, P.mnemonicEntropy phrase = some entropy ∧
    P.seedFromEntropy entropy (password.getD []) = some bigSeed ∧ seed.val = bigSeed.val.take 32

theorem masterSeedFromMnemonic_ok {phrase : List Char} {password : Option (List Char)} {seed : FixedBytes 32} :
    masterSeedFromMnemonic P phrase password = .ok seed ↔ ∃ entropy bigSeed, P.mnemonicEntropy phrase = some entropy ∧
      P.seedFromEntropy entropy (password.getD []) = some bigSeed ∧ seed.val = bigSeed.val.take 32 := by
  unfold masterSeedFromMnemonic
  simp only [bind_success, okOr_success]
  constructor
  · rintro ⟨entropy, parsed, bigSeed, stretched, same⟩
    cases same
    exact ⟨entropy, bigSeed, parsed, stretched, rfl⟩
  · rintro ⟨entropy, bigSeed, parsed, stretched, front⟩
    exact ⟨entropy, parsed, bigSeed, stretched, congrArg Except.ok (Subtype.ext front.symm)⟩

/-- A digit is no slash. -/
theorem slash_not_hex {phrase digits : List Char} {bytes : List UInt8} (marked : stripHexPrefix? phrase = some digits)
    (read : HexText.decode digits = some bytes) : '/' ∉ phrase := by
  have clear : '/' ∉ digits := fun member => (digit_plain read '/' member).2 rfl
  unfold stripHexPrefix? at marked
  split at marked
  · cases marked
    simp [clear]
  · cases marked
    simp [clear]
  · cases marked

/-- What is read once the password is cut off. -/
theorem phrase_ok {phrase : List Char} {password : Option (List Char)} {seed : FixedBytes 32} :
    (match stripHexPrefix? (trim phrase) with
      | some hex => decodeSeedHex hex
      | none => if '/' ∈ trim phrase then fail .unsupportedDerivationPath
        else masterSeedFromMnemonic P (trim phrase) password) = .ok seed ↔
      '/' ∉ phrase ∧ PhraseSeed P (trim phrase) password seed := by
  have outside : '/' ∈ phrase ↔ '/' ∈ trim phrase := mem_trim.symm
  rw [outside, PhraseSeed]
  cases marked : stripHexPrefix? (trim phrase) with
  | some hex =>
    simp only [decodeSeedHex_ok, Option.some.injEq, exists_eq_left', reduceCtorEq, false_and, or_false]
    exact ⟨fun read => ⟨slash_not_hex marked read, read⟩, And.right⟩
  | none =>
    by_cases slash : '/' ∈ trim phrase
    · simp [slash, fail]
    · simp [slash, masterSeedFromMnemonic_ok]

/-- The secret URIs. One is accepted exactly if it is a phrase without slashes, with a
password behind three slashes or none, whose trimmed phrase is `0x` and the digits of the
seed, or otherwise a mnemonic that gives the seed with the password. So no derivation
path is ever ignored, and what the bindings write for a seed reads as that seed. -/
theorem secret_uri_accepted_iff (uri : List Char) (seed : FixedBytes 32) :
    (masterSeedFromSecretUri P uri = .ok seed ↔
      ∃ phrase password, UriParts uri phrase password ∧ PhraseSeed P (trim phrase) password seed) ∧
    masterSeedFromSecretUri P ('0' :: 'x' :: HexText.encode seed.val) = .ok seed := by
  have accepted : ∀ uri, masterSeedFromSecretUri P uri = .ok seed ↔
      ∃ phrase password, UriParts uri phrase password ∧ PhraseSeed P (trim phrase) password seed := by
    intro uri
    rw [masterSeedFromSecretUri]
    constructor
    · intro ran
      cases found : splitOnce ['/', '/', '/'] uri with
      | none =>
        rw [found] at ran
        obtain ⟨clear, seeded⟩ := phrase_ok.mp ran
        exact ⟨uri, none, ⟨clear, (List.append_nil uri).symm⟩, seeded⟩
      | some parts =>
        rw [found] at ran
        obtain ⟨clear, seeded⟩ := phrase_ok.mp ran
        refine ⟨parts.1, some parts.2, ⟨clear, ?_⟩, seeded⟩
        rw [splitOnce_split found, List.append_assoc]
        rfl
    · rintro ⟨phrase, password, ⟨clear, rfl⟩, seeded⟩
      cases password with
      | none =>
        have whole : phrase ++ (Option.map (['/', '/', '/'] ++ ·) none).getD [] = phrase := List.append_nil phrase
        rw [whole, splitOnce_none clear]
        exact phrase_ok.mpr ⟨clear, seeded⟩
      | some password =>
        have cut : splitOnce ['/', '/', '/'] (phrase ++ (Option.map (['/', '/', '/'] ++ ·) (some password)).getD []) =
            some (phrase, password) := by
          have found := @splitOnce_append '/' ['/', '/'] phrase password clear
          rw [List.append_assoc] at found
          exact found
        rw [cut]
        exact phrase_ok.mpr ⟨clear, seeded⟩
  have digits := digit_plain (HexText.decode_encode seed.val)
  have plain : ∀ c ∈ '0' :: 'x' :: HexText.encode seed.val, isWhitespace c = false := by
    intro c member
    rcases List.mem_cons.mp member with rfl | member
    · decide
    rcases List.mem_cons.mp member with rfl | member
    · decide
    · exact (digits c member).1
  have clear : '/' ∉ '0' :: 'x' :: HexText.encode seed.val :=
    slash_not_hex rfl (HexText.decode_encode seed.val)
  refine ⟨accepted uri, (accepted _).mpr ⟨_, none, ⟨clear, (List.append_nil _).symm⟩, .inl ⟨HexText.encode seed.val, ?_,
    HexText.decode_encode seed.val⟩⟩⟩
  rw [trim_of_clear plain]
  rfl

end QuipValidator.TransactionCrypto
