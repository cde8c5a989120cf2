import QuipValidator.Scale

/-! `transaction-crypto-core`: the byte envelope of a hybrid signature. The signature
array is longer than most signatures; one byte inside it says how much of it is the
signature on the wire, and the rest is padding that has to be zero. -/
namespace QuipValidator.HybridEnvelope
open Scale

/-- The lengths that come from the signature suite. The array holds every length the
delta byte can name. -/
structure Suite where
  HYBRID_PUBLIC_LEN : Nat
  HYBRID_SIGNATURE_LEN : Nat
  MIN_FALCON512_SIG_LEN : Nat
  wide : 64 + 1 + MIN_FALCON512_SIG_LEN + 255 ≤ HYBRID_SIGNATURE_LEN

def CLASSICAL_SIGNATURE_LEN : Nat := 64
def DELTA_LEN : Nat := 1

def Suite.MIN_HYBRID_SIGNATURE_LEN (S : Suite) : Nat := CLASSICAL_SIGNATURE_LEN + DELTA_LEN + S.MIN_FALCON512_SIG_LEN

inductive HybridTxCryptoError where
  | invalidLength (expected actual : Nat)
  deriving DecidableEq, Repr

variable {S : Suite}

def exactArray (width : Nat) (bytes : List UInt8) : Except HybridTxCryptoError (FixedBytes width) :=
  if exact : bytes.length = width then .ok ⟨bytes, exact⟩ else .error (.invalidLength width bytes.length)

/-- The byte that says how much longer than the shortest one a signature is. -/
def deltaByte (signature : FixedBytes S.HYBRID_SIGNATURE_LEN) : UInt8 :=
  signature.val.get ⟨CLASSICAL_SIGNATURE_LEN, by
    have wide := S.wide
    have long := signature.property
    simp only [CLASSICAL_SIGNATURE_LEN]
    omega⟩

def signatureWireLen (signature : FixedBytes S.HYBRID_SIGNATURE_LEN) : Nat :=
  S.MIN_HYBRID_SIGNATURE_LEN + (deltaByte signature).toNat

def validateSignaturePadding (signature : FixedBytes S.HYBRID_SIGNATURE_LEN) : Except HybridTxCryptoError Nat :=
  let wireLen := signatureWireLen signature
  if (signature.val.drop wireLen).any (· ≠ 0) then .error (.invalidLength wireLen S.HYBRID_SIGNATURE_LEN)
  else .ok wireLen

/-- Bytes-level transaction signature envelope. -/
structure HybridTxSignatureBytes (S : Suite) where
  publicKey : FixedBytes S.HYBRID_PUBLIC_LEN
  signature : FixedBytes S.HYBRID_SIGNATURE_LEN
  deriving DecidableEq

namespace HybridTxSignatureBytes

/-- Creates a bytes-level envelope after validating the input lengths and encodings. -/
def new (S : Suite) (publicKey signature : List UInt8) : Except HybridTxCryptoError (HybridTxSignatureBytes S) := do
  let publicKey ← exactArray S.HYBRID_PUBLIC_LEN publicKey
  let signature ← exactArray S.HYBRID_SIGNATURE_LEN signature
  let _ ← validateSignaturePadding signature
  pure { publicKey, signature }

/-- The derived SCALE codec: the two arrays one after the other. -/
def codec (S : Suite) : Codec (HybridTxSignatureBytes S) :=
  Codec.record (Codec.pair (Codec.array S.HYBRID_PUBLIC_LEN) (Codec.array S.HYBRID_SIGNATURE_LEN))
    (fun envelope => (envelope.publicKey, envelope.signature)) (fun fields => ⟨fields.1, fields.2⟩) (fun _ => rfl)

def encodeEnvelope (envelope : HybridTxSignatureBytes S) : List UInt8 := (codec S).encode envelope

def decodeEnvelope (S : Suite) (bytes : List UInt8) : Except HybridTxCryptoError (HybridTxSignatureBytes S) :=
  match (codec S).decode bytes with
  | none => .error (.invalidLength (S.HYBRID_PUBLIC_LEN + S.HYBRID_SIGNATURE_LEN) bytes.length)
  | some (decoded, _) => new S decoded.publicKey.val decoded.signature.val

end HybridTxSignatureBytes

/-- The length on the wire never exceeds the array. -/
theorem signatureWireLen_le (signature : FixedBytes S.HYBRID_SIGNATURE_LEN) :
    signatureWireLen signature ≤ S.HYBRID_SIGNATURE_LEN := by
  have wide := S.wide
  have byte := (deltaByte signature).toNat_lt
  simp only [signatureWireLen, Suite.MIN_HYBRID_SIGNATURE_LEN, CLASSICAL_SIGNATURE_LEN, DELTA_LEN]
  omega

namespace HybridTxSignatureBytes

/-- Nothing but zeros after the signature on the wire. -/
def Canonical (envelope : HybridTxSignatureBytes S) : Prop :=
  ∀ byte ∈ envelope.signature.val.drop (signatureWireLen envelope.signature), byte = 0

/-- The part of the signature array that goes on the wire. -/
def wireSignature (envelope : HybridTxSignatureBytes S) : List UInt8 :=
  envelope.signature.val.take (signatureWireLen envelope.signature)

theorem encodeEnvelope_eq (envelope : HybridTxSignatureBytes S) :
    envelope.encodeEnvelope = envelope.publicKey.val ++ envelope.signature.val := rfl

theorem length_encodeEnvelope (envelope : HybridTxSignatureBytes S) :
    envelope.encodeEnvelope.length = S.HYBRID_PUBLIC_LEN + S.HYBRID_SIGNATURE_LEN := by
  rw [encodeEnvelope_eq, List.length_append, envelope.publicKey.property, envelope.signature.property]

private theorem exactArray_val {width : Nat} (bytes : FixedBytes width) : exactArray width bytes.val = .ok bytes := by
  rw [exactArray, dif_pos bytes.property]

private theorem validateSignaturePadding_canonical {envelope : HybridTxSignatureBytes S} :
    validateSignaturePadding envelope.signature =
      if (envelope.signature.val.drop (signatureWireLen envelope.signature)).any (· ≠ 0) then
        .error (.invalidLength (signatureWireLen envelope.signature) S.HYBRID_SIGNATURE_LEN)
      else .ok (signatureWireLen envelope.signature) := rfl

/-- `new` on the arrays of an envelope only looks at the padding. -/
theorem new_success {envelope result : HybridTxSignatureBytes S} :
    new S envelope.publicKey.val envelope.signature.val = .ok result ↔ envelope.Canonical ∧ result = envelope := by
  unfold new
  rw [exactArray_val, exactArray_val]
  change (validateSignaturePadding envelope.signature).bind (fun _ => .ok envelope) = .ok result ↔ _
  rw [validateSignaturePadding_canonical]
  by_cases padded : envelope.Canonical
  · have clear : ¬ (envelope.signature.val.drop (signatureWireLen envelope.signature)).any (· ≠ 0) = true := by
      simpa [Canonical] using padded
    rw [if_neg clear]
    constructor
    · intro same
      cases same
      exact ⟨padded, rfl⟩
    · rintro ⟨_, rfl⟩
      rfl
  · have dirty : (envelope.signature.val.drop (signatureWireLen envelope.signature)).any (· ≠ 0) = true := by
      simpa [Canonical] using padded
    rw [if_pos dirty]
    constructor
    · intro same
      cases same
    · rintro ⟨canonical, _⟩
      exact absurd canonical padded

theorem codec_decode {bytes rest : List UInt8} {envelope : HybridTxSignatureBytes S} :
    (codec S).decode bytes = some (envelope, rest) ↔ bytes = envelope.encodeEnvelope ++ rest := by
  constructor
  · intro read
    simp only [codec, Codec.record, Codec.pair, Option.bind_eq_bind, Option.map_eq_some_iff, Option.bind_eq_some_iff] at read
    obtain ⟨fields, ⟨⟨publicKey, later⟩, first, ⟨signature, last⟩, second, same⟩, joined⟩ := read
    rw [Codec.array_decode_eq_some] at first second
    have tail : later = signature.val ++ last := second
    cases same
    cases joined
    rw [first, tail, encodeEnvelope_eq, List.append_assoc]
  · rintro rfl
    exact (codec S).decode_encode envelope rest ⟨trivial, trivial⟩

/-- Decoding reads a canonical envelope from the front of the bytes; what follows it
does not matter. -/
theorem decodeEnvelope_success {bytes : List UInt8} {envelope : HybridTxSignatureBytes S} :
    decodeEnvelope S bytes = .ok envelope ↔ envelope.Canonical ∧ ∃ rest, bytes = envelope.encodeEnvelope ++ rest := by
  unfold decodeEnvelope
  cases read : (codec S).decode bytes with
  | none =>
    constructor
    · intro same
      cases same
    · rintro ⟨_, rest, shape⟩
      rw [codec_decode.mpr shape] at read
      cases read
  | some result =>
    obtain ⟨decoded, rest⟩ := result
    have shape := codec_decode.mp read
    change new S decoded.publicKey.val decoded.signature.val = .ok envelope ↔ _
    rw [new_success]
    constructor
    · rintro ⟨canonical, rfl⟩
      exact ⟨canonical, rest, shape⟩
    · rintro ⟨canonical, other, again⟩
      rw [codec_decode.mpr again] at read
      cases read
      exact ⟨canonical, rfl⟩

/-- The bytes that stand where an envelope has its signature. -/
def signatureBytes (S : Suite) (bytes : List UInt8) : List UInt8 :=
  (bytes.drop S.HYBRID_PUBLIC_LEN).take S.HYBRID_SIGNATURE_LEN

/-- Those bytes are zero from the length on that their delta byte names. -/
def PaddedWithZeros (S : Suite) (bytes : List UInt8) : Prop :=
  ∀ byte ∈ (signatureBytes S bytes).drop
    (S.MIN_HYBRID_SIGNATURE_LEN + ((signatureBytes S bytes).getD CLASSICAL_SIGNATURE_LEN 0).toNat), byte = 0

/-- Bytes that carry nothing after an envelope, or whose padding is refused. -/
def NoTrailingBytes (S : Suite) (bytes : List UInt8) : Prop :=
  bytes.length ≤ S.HYBRID_PUBLIC_LEN + S.HYBRID_SIGNATURE_LEN ∨ ¬ PaddedWithZeros S bytes

private theorem signatureBytes_encode (envelope : HybridTxSignatureBytes S) (rest : List UInt8) :
    signatureBytes S (envelope.encodeEnvelope ++ rest) = envelope.signature.val := by
  rw [signatureBytes, encodeEnvelope_eq, List.append_assoc, List.drop_left' envelope.publicKey.property,
    List.take_left' envelope.signature.property]

private theorem paddedWithZeros_encode (envelope : HybridTxSignatureBytes S) (rest : List UInt8) :
    PaddedWithZeros S (envelope.encodeEnvelope ++ rest) ↔ envelope.Canonical := by
  have inside : CLASSICAL_SIGNATURE_LEN < envelope.signature.val.length := by
    have wide := S.wide
    rw [envelope.signature.property, CLASSICAL_SIGNATURE_LEN]
    omega
  have delta : envelope.signature.val.getD CLASSICAL_SIGNATURE_LEN 0 = deltaByte envelope.signature := by
    rw [List.getD_eq_getElem?_getD, List.getElem?_eq_getElem inside]
    rfl
  rw [PaddedWithZeros, signatureBytes_encode, delta]
  rfl

/-- Bytes at least as long as an envelope start with one. -/
private theorem splits_envelope (bytes : List UInt8)
    (long : S.HYBRID_PUBLIC_LEN + S.HYBRID_SIGNATURE_LEN ≤ bytes.length) :
    ∃ (envelope : HybridTxSignatureBytes S) (rest : List UInt8), bytes = envelope.encodeEnvelope ++ rest := by
  refine ⟨⟨⟨bytes.take S.HYBRID_PUBLIC_LEN, ?_⟩, ⟨signatureBytes S bytes, ?_⟩⟩,
    (bytes.drop S.HYBRID_PUBLIC_LEN).drop S.HYBRID_SIGNATURE_LEN, ?_⟩
  · rw [List.length_take]
    omega
  · rw [signatureBytes, List.length_take, List.length_drop]
    omega
  · change bytes = bytes.take _ ++ (bytes.drop _).take _ ++ (bytes.drop _).drop _
    rw [List.append_assoc, List.take_append_drop, List.take_append_drop]

/-- Decoding is the inverse of encoding at exactly the bytes that carry nothing after
a canonical envelope. -/
private theorem decodeEnvelope_exact_iff (bytes : List UInt8) :
    (∀ envelope : HybridTxSignatureBytes S,
      decodeEnvelope S bytes = .ok envelope ↔ envelope.Canonical ∧ envelope.encodeEnvelope = bytes) ↔
      NoTrailingBytes S bytes := by
  constructor
  · intro exactly
    by_cases short : bytes.length ≤ S.HYBRID_PUBLIC_LEN + S.HYBRID_SIGNATURE_LEN
    · exact .inl short
    · refine .inr fun padded => short ?_
      obtain ⟨envelope, rest, shape⟩ := splits_envelope (S := S) bytes (by omega)
      rw [shape, paddedWithZeros_encode] at padded
      have whole := ((exactly envelope).mp (decodeEnvelope_success.mpr ⟨padded, rest, shape⟩)).2
      rw [← whole, length_encodeEnvelope]
  · intro clean envelope
    rw [decodeEnvelope_success]
    constructor
    · rintro ⟨canonical, rest, rfl⟩
      refine ⟨canonical, ?_⟩
      rcases clean with short | dirty
      · rw [List.length_append, length_encodeEnvelope] at short
        have none : rest = [] := List.length_eq_zero_iff.mp (by omega)
        rw [none, List.append_nil]
      · exact absurd ((paddedWithZeros_encode envelope rest).mpr canonical) dirty
    · rintro ⟨canonical, rfl⟩
      exact ⟨canonical, [], (List.append_nil _).symm⟩

/-- A signature as it goes on the wire: its delta byte names its length. -/
def IsWire (S : Suite) (wire : List UInt8) : Prop :=
  wire.length = S.MIN_HYBRID_SIGNATURE_LEN + (wire.getD CLASSICAL_SIGNATURE_LEN 0).toNat

private theorem length_wireSignature (envelope : HybridTxSignatureBytes S) :
    envelope.wireSignature.length = signatureWireLen envelope.signature := by
  rw [wireSignature, List.length_take, envelope.signature.property]
  exact Nat.min_eq_left (signatureWireLen_le envelope.signature)

/-- The signature array of a canonical envelope is the signature on the wire and zeros. -/
private theorem Canonical.signature_eq {envelope : HybridTxSignatureBytes S} (canonical : envelope.Canonical) :
    envelope.signature.val = envelope.wireSignature ++
      List.replicate (S.HYBRID_SIGNATURE_LEN - envelope.wireSignature.length) 0 := by
  have zeros := List.eq_replicate_of_mem canonical
  rw [List.length_drop, envelope.signature.property] at zeros
  rw [length_wireSignature, ← zeros, wireSignature, List.take_append_drop]

/-- Every wire signature has an envelope, padded with zeros. -/
private theorem exists_envelope (publicKey : FixedBytes S.HYBRID_PUBLIC_LEN) {wire : List UInt8} (named : IsWire S wire) :
    ∃ envelope : HybridTxSignatureBytes S,
      envelope.Canonical ∧ envelope.publicKey = publicKey ∧ envelope.wireSignature = wire := by
  have wide := S.wide
  have byte := (wire.getD CLASSICAL_SIGNATURE_LEN 0).toNat_lt
  simp only [IsWire, Suite.MIN_HYBRID_SIGNATURE_LEN, CLASSICAL_SIGNATURE_LEN, DELTA_LEN] at named byte
  have padded : (wire ++ List.replicate (S.HYBRID_SIGNATURE_LEN - wire.length) 0).length = S.HYBRID_SIGNATURE_LEN := by
    rw [List.length_append, List.length_replicate]
    omega
  have wireLen : signatureWireLen (S := S) ⟨wire ++ List.replicate (S.HYBRID_SIGNATURE_LEN - wire.length) 0, padded⟩ =
      wire.length := by
    have delta : deltaByte (S := S) ⟨wire ++ List.replicate (S.HYBRID_SIGNATURE_LEN - wire.length) 0, padded⟩ =
        wire.getD 64 0 := by
      have inside : 64 < wire.length := by omega
      rw [List.getD_eq_getElem?_getD, List.getElem?_eq_getElem inside]
      exact List.getElem_append_left inside
    rw [signatureWireLen, delta]
    exact named.symm
  refine ⟨⟨publicKey, ⟨_, padded⟩⟩, ?_, rfl, ?_⟩
  · intro byte member
    rw [wireLen, List.drop_left] at member
    exact List.eq_of_mem_replicate member
  · rw [wireSignature, wireLen, List.take_left]

/-- The bytes of a canonical envelope are determined by its key and its wire signature. -/
private theorem canonical_unique {first second : HybridTxSignatureBytes S} (firstCanonical : first.Canonical)
    (secondCanonical : second.Canonical) (key : first.publicKey = second.publicKey)
    (wire : first.wireSignature = second.wireSignature) : first = second := by
  have signature : first.signature = second.signature := by
    apply Subtype.ext
    rw [firstCanonical.signature_eq, secondCanonical.signature_eq, wire]
  obtain ⟨_, _⟩ := first
  obtain ⟨_, _⟩ := second
  cases key
  cases signature
  rfl

/-- The envelope format. Decoding is the inverse of encoding canonical envelopes at
exactly the byte strings that carry nothing after one; among the strings of at most an
envelope's length each public key and wire signature is accepted in one form only; and
the length on the wire is always within the array. -/
theorem decodeEnvelope_canonical_iff (S : Suite) :
    (∀ bytes : List UInt8,
      (∀ envelope : HybridTxSignatureBytes S,
        decodeEnvelope S bytes = .ok envelope ↔ envelope.Canonical ∧ envelope.encodeEnvelope = bytes) ↔
        NoTrailingBytes S bytes) ∧
      (∀ (publicKey : FixedBytes S.HYBRID_PUBLIC_LEN) (wire : List UInt8), IsWire S wire →
        ∃! bytes : List UInt8, NoTrailingBytes S bytes ∧ ∃ envelope : HybridTxSignatureBytes S,
          decodeEnvelope S bytes = .ok envelope ∧ envelope.publicKey = publicKey ∧ envelope.wireSignature = wire) ∧
      ∀ signature : FixedBytes S.HYBRID_SIGNATURE_LEN, signatureWireLen signature ≤ S.HYBRID_SIGNATURE_LEN := by
  refine ⟨decodeEnvelope_exact_iff, ?_, signatureWireLen_le⟩
  intro publicKey wire named
  obtain ⟨envelope, canonical, key, signed⟩ := exists_envelope publicKey named
  refine ⟨envelope.encodeEnvelope, ⟨.inl (length_encodeEnvelope envelope).le, envelope, ?_, key, signed⟩, ?_⟩
  · exact decodeEnvelope_success.mpr ⟨canonical, [], (List.append_nil _).symm⟩
  · rintro bytes ⟨clean, other, accepted, otherKey, otherSigned⟩
    obtain ⟨otherCanonical, same⟩ := ((decodeEnvelope_exact_iff bytes).mpr clean other).mp accepted
    rw [← same, canonical_unique otherCanonical canonical (otherKey.trans key.symm) (otherSigned.trans signed.symm)]

/-- The lengths of the `sr25519 + FN-DSA-512` suite. -/
def srFn512 : Suite := ⟨929, 731, 411, by decide⟩

/-- The all-zero envelope. -/
def zeroEnvelope : HybridTxSignatureBytes srFn512 :=
  ⟨⟨List.replicate 929 0, List.length_replicate⟩, ⟨List.replicate 731 0, List.length_replicate⟩⟩

/-- An envelope followed by one more byte decodes to the envelope. -/
theorem decodeEnvelope_trailing_byte :
    decodeEnvelope srFn512 (zeroEnvelope.encodeEnvelope ++ [7]) = .ok zeroEnvelope ∧
      zeroEnvelope.encodeEnvelope ≠ zeroEnvelope.encodeEnvelope ++ [7] ∧
      ¬ ∀ (bytes : List UInt8) (envelope : HybridTxSignatureBytes srFn512),
        decodeEnvelope srFn512 bytes = .ok envelope ↔ envelope.Canonical ∧ envelope.encodeEnvelope = bytes := by
  have canonical : zeroEnvelope.Canonical := by
    intro byte member
    exact List.eq_of_mem_replicate (List.mem_of_mem_drop member)
  have accepted : decodeEnvelope srFn512 (zeroEnvelope.encodeEnvelope ++ [7]) = .ok zeroEnvelope :=
    decodeEnvelope_success.mpr ⟨canonical, [7], rfl⟩
  have longer : zeroEnvelope.encodeEnvelope ≠ zeroEnvelope.encodeEnvelope ++ [7] := by
    intro same
    have lengths := congrArg List.length same
    rw [List.length_append, List.length_singleton] at lengths
    omega
  exact ⟨accepted, longer, fun exactly => longer ((exactly _ zeroEnvelope).mp accepted).2⟩

end HybridTxSignatureBytes

end QuipValidator.HybridEnvelope
