import QuipValidator.HexText
import QuipValidator.TransactionKeys

/-! The bindings of the signer. `transaction-crypto-wasm` reads and writes hexadecimal
text and is what the browser calls; `transaction-crypto-py` works on bytes. -/
namespace QuipValidator.TransactionCrypto
open Scale HybridEnvelope Fallible
open HybridTxSignatureBytes (srFn512)

/-- The `hex` crate. -/
structure HexCrate where
  decode : List Char → Except String (List UInt8)
  encode : List UInt8 → List Char

/-- It reads digits of both cases and writes lower-case ones. -/
structure HexCrate.Lawful (hex : HexCrate) : Prop where
  decode_ok : ∀ text bytes, hex.decode text = .ok bytes ↔ HexText.decode text = some bytes
  encode_eq : ∀ bytes, hex.encode bytes = HexText.encode bytes

/-- `{error:?}`. -/
def HybridTxCryptoError.debug : HybridTxCryptoError → String
  | .invalidLength expected actual =>
    "InvalidLength \x7b expected: " ++ toString expected ++ ", actual: " ++ toString actual ++ " \x7d"
  | .invalidSeed => "InvalidSeed"
  | .signingFailed => "SigningFailed"
  | .invalidMnemonic => "InvalidMnemonic"
  | .unsupportedDerivationPath => "UnsupportedDerivationPath"

variable {S : Suite}

namespace Wasm
variable (P : Primitives S) (hex : HexCrate)

def stripHexPrefix (value : List Char) : List Char := (stripHexPrefix? value).getD value

def decodeHex (name : String) (value : List Char) : Fallible String (List UInt8) :=
  match hex.decode (stripHexPrefix value) with
  | .ok bytes => .ok bytes
  | .error error => fail (name ++ " must be hex: " ++ error)

def encodeHex (bytes : List UInt8) : List Char := '0' :: 'x' :: hex.encode bytes

def cryptoError (context : String) (error : HybridTxCryptoError) : String := context ++ ": " ++ error.debug

def publicFromSeed (seedHex : List Char) : Fallible String (List Char) := do
  let seed ← decodeHex hex "seed" seedHex
  let publicKey ← mapErr (cryptoError "invalid seed") (publicKeyFromSeed P seed)
  pure (encodeHex hex publicKey.val)

def accountIdFromPublic (publicHex : List Char) : Fallible String (List Char) := do
  let publicKey ← decodeHex hex "public" publicHex
  pure (encodeHex hex (accountIdFromPublicBytes P publicKey).val)

def seedFromMnemonic (secretUri : List Char) : Fallible String (List Char) := do
  let seed ← mapErr (cryptoError "invalid mnemonic") (masterSeedFromSecretUri P secretUri)
  pure (encodeHex hex seed.val)

def signPayloadFromSeed (seedHex payloadHex : List Char) : Fallible String (List Char) := do
  let seed ← decodeHex hex "seed" seedHex
  let payload ← decodeHex hex "payload" payloadHex
  let envelope ← mapErr (cryptoError "signing failed") (TransactionCrypto.signPayloadFromSeed P seed payload)
  pure (encodeHex hex envelope.encodeEnvelope)

def verifyEnvelope (payloadHex envelopeHex accountIdHex : List Char) : Fallible String Bool := do
  let payload ← decodeHex hex "payload" payloadHex
  let envelopeBytes ← decodeHex hex "envelope" envelopeHex
  let accountId ← decodeHex hex "accountId" accountIdHex
  ensure (accountId.length = ACCOUNT_ID_LEN) "accountId must decode to 32 bytes"
  let envelope ← mapErr (cryptoError "invalid envelope")
    (ofEnvelope (HybridTxSignatureBytes.decodeEnvelope S envelopeBytes))
  pure ((derivedAccountId P envelope).val == accountId && TransactionCrypto.verifyEnvelope P envelope payload)

end Wasm

namespace Py
variable (P : Primitives S)

/-- `QuipSignerError::new_err(format!("{error:?}"))`. -/
def mapErr {α : Type} : HybridResult α → Fallible String α := Fallible.mapErr HybridTxCryptoError.debug

def publicFromSeed (seed : List UInt8) : Fallible String (List UInt8) := do
  let publicKey ← mapErr (publicKeyFromSeed P seed)
  pure publicKey.val

def accountIdFromPublic (publicKey : List UInt8) : Fallible String (List UInt8) := do
  ensure (publicKey.length = S.HYBRID_PUBLIC_LEN)
    ("expected " ++ toString S.HYBRID_PUBLIC_LEN ++ "-byte H4 public key, got " ++ toString publicKey.length)
  pure (accountIdFromPublicBytes P publicKey).val

def seedFromMnemonic (secretUri : List Char) : Fallible String (List UInt8) := do
  let seed ← mapErr (masterSeedFromSecretUri P secretUri)
  pure seed.val

def signPayloadFromSeed (seed payload : List UInt8) : Fallible String (List UInt8) := do
  let envelope ← mapErr (TransactionCrypto.signPayloadFromSeed P seed payload)
  pure envelope.encodeEnvelope

def verifyEnvelope (payload envelope accountId : List UInt8) : Fallible String Bool := do
  let envelope ← mapErr (ofEnvelope (HybridTxSignatureBytes.decodeEnvelope S envelope))
  pure ((derivedAccountId P envelope).val == accountId && TransactionCrypto.verifyEnvelope P envelope payload)

/-- A signer of one seed, with the public key derived from it. -/
structure HybridSigner where
  seed : FixedBytes 32
  publicKey : FixedBytes S.HYBRID_PUBLIC_LEN
  derived : publicKeyFromSeed P seed.val = .ok publicKey

namespace HybridSigner
variable {P}

def fromSeed (seed : List UInt8) : Fallible String (HybridSigner P) :=
  match derived : publicKeyFromSeed P seed with
  | .error (.error error) => fail error.debug
  | .error (.panic message) => .error (.panic message)
  | .ok publicKey =>
    if whole : seed.length = 32 then .ok ⟨⟨seed, whole⟩, publicKey, derived⟩
    else .error (.panic "source slice length does not match destination slice length")

def fromMnemonic (secretUri : List Char) : Fallible String (HybridSigner P) := do
  let seed ← mapErr (masterSeedFromSecretUri P secretUri)
  fromSeed seed.val

def accountId (signer : HybridSigner P) : List UInt8 := (accountIdFromPublicBytes P signer.publicKey.val).val

def sign (signer : HybridSigner P) (payload : List UInt8) : Fallible String (List UInt8) := do
  let envelope ← mapErr (TransactionCrypto.signPayloadFromSeed P signer.seed.val payload)
  pure envelope.encodeEnvelope

end HybridSigner
end Py

variable {P : Primitives S} {hex : HexCrate}

theorem Wasm.decodeHex_ok (lawful : hex.Lawful) {name : String} {value : List Char} {bytes : List UInt8} :
    Wasm.decodeHex hex name value = .ok bytes ↔ HexText.decode (Wasm.stripHexPrefix value) = some bytes := by
  unfold Wasm.decodeHex
  rw [← lawful.decode_ok]
  cases hex.decode (Wasm.stripHexPrefix value) <;> simp [fail]

/-- What the bindings write they read back. -/
theorem Wasm.decodeHex_encodeHex (lawful : hex.Lawful) (name : String) (bytes : List UInt8) :
    Wasm.decodeHex hex name (Wasm.encodeHex hex bytes) = .ok bytes := by
  rw [Wasm.decodeHex_ok lawful, Wasm.encodeHex, lawful.encode_eq]
  exact HexText.decode_encode bytes

/-- The runtime decodes an envelope with canonical padding from the bytes, and accepts it
for this account and message. -/
def RuntimeAccepts (P : Primitives S) (payload envelope accountId : List UInt8) : Prop :=
  ∃ (signed : HybridTxSignature S) (rest : List UInt8) (signer : AccountId),
    (HybridTxSignature.codec S).decode envelope = some (signed, rest) ∧
    (⟨signed.publicKey, signed.signature⟩ : HybridTxSignatureBytes S).Canonical ∧
    accountId = signer.val ∧ signed.verify P payload signer = true

/-- What both bindings check once they have bytes is what the runtime checks. -/
theorem runtimeAccepts_iff (lawful : P.Lawful) {payload bytes accountId : List UInt8} :
    RuntimeAccepts P payload bytes accountId ↔
      ∃ envelope, HybridTxSignatureBytes.decodeEnvelope S bytes = .ok envelope ∧
        (derivedAccountId P envelope).val = accountId ∧ TransactionCrypto.verifyEnvelope P envelope payload = true := by
  constructor
  · rintro ⟨⟨publicKey, signature⟩, rest, signer, decoded, canonical, rfl, verified⟩
    have shape : bytes = (⟨publicKey, signature⟩ : HybridTxSignatureBytes S).encodeEnvelope ++ rest :=
      runtime_decode.mp decoded
    obtain ⟨derived, verifies⟩ := (runtime_verify_iff lawful canonical).mp verified
    exact ⟨⟨publicKey, signature⟩, HybridTxSignatureBytes.decodeEnvelope_success.mpr ⟨canonical, rest, shape⟩,
      congrArg Subtype.val derived, verifies⟩
  · rintro ⟨envelope, decoded, derived, verifies⟩
    obtain ⟨canonical, rest, shape⟩ := HybridTxSignatureBytes.decodeEnvelope_success.mp decoded
    exact ⟨⟨envelope.publicKey, envelope.signature⟩, rest, derivedAccountId P envelope, runtime_decode.mpr shape, canonical,
      derived.symm, (runtime_verify_iff lawful canonical).mpr ⟨rfl, verifies⟩⟩

theorem Wasm.signPayloadFromSeed_ok (hexLawful : hex.Lawful) {seedHex payloadHex out : List Char} :
    Wasm.signPayloadFromSeed P hex seedHex payloadHex = .ok out ↔ ∃ seed payload envelope,
      HexText.decode (Wasm.stripHexPrefix seedHex) = some seed ∧
      HexText.decode (Wasm.stripHexPrefix payloadHex) = some payload ∧
      TransactionCrypto.signPayloadFromSeed P seed payload = .ok envelope ∧
      out = Wasm.encodeHex hex envelope.encodeEnvelope := by
  unfold Wasm.signPayloadFromSeed
  simp only [bind_success, mapErr_success, Wasm.decodeHex_ok hexLawful]
  constructor
  · rintro ⟨seed, seedRead, payload, payloadRead, envelope, signed, same⟩
    cases same
    exact ⟨seed, payload, envelope, seedRead, payloadRead, signed, rfl⟩
  · rintro ⟨seed, payload, envelope, seedRead, payloadRead, signed, rfl⟩
    exact ⟨seed, seedRead, payload, payloadRead, envelope, signed, rfl⟩

theorem Py.signPayloadFromSeed_ok {seed payload bytes : List UInt8} :
    Py.signPayloadFromSeed P seed payload = .ok bytes ↔ ∃ envelope,
      TransactionCrypto.signPayloadFromSeed P seed payload = .ok envelope ∧ bytes = envelope.encodeEnvelope := by
  unfold Py.signPayloadFromSeed
  simp only [Py.mapErr, bind_success, mapErr_success]
  constructor
  · rintro ⟨envelope, signed, same⟩
    cases same
    exact ⟨envelope, signed, rfl⟩
  · rintro ⟨envelope, signed, rfl⟩
    exact ⟨envelope, signed, rfl⟩

/-- Over bytes, `Ok(true)` is what the runtime accepts. -/
theorem Py.verifyEnvelope_iff (lawful : P.Lawful) {payload envelope accountId : List UInt8} :
    Py.verifyEnvelope P payload envelope accountId = .ok true ↔ RuntimeAccepts P payload envelope accountId := by
  rw [runtimeAccepts_iff lawful]
  unfold Py.verifyEnvelope
  simp only [Py.mapErr, bind_success, mapErr_success, ofEnvelope_success]
  constructor
  · rintro ⟨decoded, read, verdict⟩
    have both := Except.ok.inj verdict
    rw [Bool.and_eq_true, beq_iff_eq] at both
    exact ⟨decoded, read, both⟩
  · rintro ⟨decoded, read, derived, verifies⟩
    refine ⟨decoded, read, ?_⟩
    rw [derived, verifies, beq_self_eq_true]
    rfl

/-- Over text, whatever the three texts decode to. A wrong length of the account id is an
error here, and a plain `false` in Python. -/
theorem Wasm.verifyEnvelope_iff (lawful : P.Lawful) (hexLawful : hex.Lawful)
    {payloadHex envelopeHex accountIdHex : List Char} :
    Wasm.verifyEnvelope P hex payloadHex envelopeHex accountIdHex = .ok true ↔ ∃ payload envelope accountId,
      HexText.decode (Wasm.stripHexPrefix payloadHex) = some payload ∧
      HexText.decode (Wasm.stripHexPrefix envelopeHex) = some envelope ∧
      HexText.decode (Wasm.stripHexPrefix accountIdHex) = some accountId ∧
      RuntimeAccepts P payload envelope accountId := by
  unfold Wasm.verifyEnvelope
  simp only [bind_success, mapErr_success, ofEnvelope_success, ensure_success, Wasm.decodeHex_ok hexLawful,
    runtimeAccepts_iff lawful]
  constructor
  · rintro ⟨payload, payloadRead, envelope, envelopeRead, accountId, accountRead, _, _, decoded, read, verdict⟩
    have both := Except.ok.inj verdict
    rw [Bool.and_eq_true, beq_iff_eq] at both
    exact ⟨payload, envelope, accountId, payloadRead, envelopeRead, accountRead, decoded, read, both⟩
  · rintro ⟨payload, envelope, accountId, payloadRead, envelopeRead, accountRead, decoded, read, derived, verifies⟩
    refine ⟨payload, payloadRead, envelope, envelopeRead, accountId, accountRead, (), ?_, decoded, read, ?_⟩
    · rw [← derived]
      exact (derivedAccountId P decoded).property
    · rw [derived, verifies, beq_self_eq_true]
      rfl

/-- What the signer returns the runtime accepts for the account of the seed and no other. -/
theorem runtimeAccepts_signed (lawful : P.Lawful) {seed payload : List UInt8} {envelope : HybridTxSignatureBytes S}
    (signed : TransactionCrypto.signPayloadFromSeed P seed payload = .ok envelope) (accountId : List UInt8) :
    RuntimeAccepts P payload envelope.encodeEnvelope accountId ↔
      accountId = (accountIdFromPublicBytes P envelope.publicKey.val).val := by
  obtain ⟨master, secret, rfl, derived, canonical, written⟩ := signPayloadFromSeed_success.mp signed
  rw [runtimeAccepts_iff lawful]
  constructor
  · rintro ⟨other, decoded, derived, _⟩
    obtain ⟨_, rest, shape⟩ := HybridTxSignatureBytes.decodeEnvelope_success.mp decoded
    have same := runtime_decode.mpr shape
    rw [runtime_decode.mpr (List.append_nil _).symm] at same
    have key := (HybridTxSignature.mk.inj (Prod.mk.inj (Option.some.inj same)).1).1
    rw [key]
    exact derived.symm
  · rintro rfl
    exact ⟨envelope, HybridTxSignatureBytes.decodeEnvelope_success.mpr ⟨canonical, [], (List.append_nil _).symm⟩, rfl,
      verifyEnvelope_iff.mpr ⟨canonical, lawful.signed_verifies derived written⟩⟩

/-- The crate as the library reads and writes. -/
def libraryHex : HexCrate where
  decode text := match HexText.decode text with
    | some bytes => .ok bytes
    | none => .error "Odd number of digits"
  encode := HexText.encode

theorem libraryHex_lawful : libraryHex.Lawful where
  decode_ok text bytes := by
    simp only [libraryHex]
    cases HexText.decode text <;> simp
  encode_eq _ := rfl

end QuipValidator.TransactionCrypto
