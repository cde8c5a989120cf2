import QuipValidator.Fallible
import QuipValidator.HybridEnvelope
import Mathlib.Data.List.DropRight

/-! `transaction-crypto-core` around its envelope, and the runtime's `transaction-crypto`:
account ids, secret URIs, signing, and the two places that verify. The signature
suite, the hash and the word list are other crates. -/
namespace QuipValidator.TransactionCrypto
open Scale HybridEnvelope Fallible
open HybridTxSignatureBytes (srFn512)

/-- What the other crates do for the suite `S`. -/
structure Primitives (S : Suite) where
  HYBRID_SECRET_LEN : Nat
  keypairFromSeed : FixedBytes 32 → Option (FixedBytes HYBRID_SECRET_LEN × FixedBytes S.HYBRID_PUBLIC_LEN)
  /-- Secret, message, context and randomness; the array written and its length on the wire. -/
  signDeterministic : FixedBytes HYBRID_SECRET_LEN → List UInt8 → List UInt8 → List UInt8 →
    Option (FixedBytes S.HYBRID_SIGNATURE_LEN × Nat)
  /-- Public key, message, context and the signature on the wire. -/
  verify : FixedBytes S.HYBRID_PUBLIC_LEN → List UInt8 → List UInt8 → List UInt8 → Bool
  /-- `HybridPair::verify` of the runtime's wrapper. -/
  hybridPairVerify : FixedBytes S.HYBRID_SIGNATURE_LEN → List UInt8 → FixedBytes S.HYBRID_PUBLIC_LEN → Bool
  blake2b256 : List UInt8 → FixedBytes 32
  /-- The entropy of a valid English phrase. -/
  mnemonicEntropy : List Char → Option (List UInt8)
  seedFromEntropy : List UInt8 → List Char → Option (FixedBytes 64)

def MASTER_SEED_LEN : Nat := 32
def ACCOUNT_ID_LEN : Nat := 32
def ACCOUNT_ID_DOMAIN : List UInt8 := "quip-account-v1".toUTF8.toList
def SUBSTRATE_PAIR_SIGNATURE_CONTEXT : List UInt8 := "quip/substrate-pair-signature/v1".toUTF8.toList

abbrev AccountId := FixedBytes 32

inductive HybridTxCryptoError where
  | invalidLength (expected actual : Nat)
  | invalidSeed
  | signingFailed
  | invalidMnemonic
  | unsupportedDerivationPath
  deriving DecidableEq, Repr

abbrev HybridResult (α : Type) := Fallible HybridTxCryptoError α

/-- The envelope's own functions return only errors about lengths. -/
def ofEnvelope {α : Type} : Except HybridEnvelope.HybridTxCryptoError α → HybridResult α
  | .ok value => .ok value
  | .error (.invalidLength expected actual) => fail (.invalidLength expected actual)

theorem ofEnvelope_success {α : Type} {action : Except HybridEnvelope.HybridTxCryptoError α} {value : α} :
    ofEnvelope action = .ok value ↔ action = .ok value := by
  rcases action with ⟨expected, actual⟩ | held <;> simp [ofEnvelope, fail]

variable {S : Suite} (P : Primitives S)

/-- What the signer relies on. A signature made with a derived key verifies under the
public key derived with it, and the runtime's wrapper verifies the wire part of a
signature under the context of ordinary pair signatures. -/
structure Primitives.Lawful (P : Primitives S) : Prop where
  signed_verifies : ∀ {seed secret publicKey} {message context randomness : List UInt8} {signature wireLen},
    P.keypairFromSeed seed = some (secret, publicKey) →
    P.signDeterministic secret message context randomness = some (signature, wireLen) →
    P.verify publicKey message context (signature.val.take wireLen) = true
  pair_verifies : ∀ (envelope : HybridTxSignatureBytes S) (message : List UInt8), envelope.Canonical →
    P.hybridPairVerify envelope.signature message envelope.publicKey =
      P.verify envelope.publicKey message SUBSTRATE_PAIR_SIGNATURE_CONTEXT envelope.wireSignature

def accountIdFromPublicBytes (publicKey : List UInt8) : AccountId := P.blake2b256 (ACCOUNT_ID_DOMAIN ++ publicKey)

def publicKeyFromSeed (seed : List UInt8) : HybridResult (FixedBytes S.HYBRID_PUBLIC_LEN) := do
  let seed ← ofEnvelope (exactArray MASTER_SEED_LEN seed)
  let (_, publicKey) ← okOr (P.keypairFromSeed seed) .invalidSeed
  pure publicKey

/-- `str::split_once`. -/
def splitOnce (separator : List Char) : List Char → Option (List Char × List Char)
  | [] => none
  | first :: rest =>
    if separator.isPrefixOf (first :: rest) then some ([], (first :: rest).drop separator.length)
    else (splitOnce separator rest).map fun (before, after) => (first :: before, after)

/-- `char::is_whitespace`. -/
def isWhitespace (c : Char) : Bool :=
  (9 ≤ c.toNat && c.toNat ≤ 13) || (0x2000 ≤ c.toNat && c.toNat ≤ 0x200a) ||
    c.toNat ∈ [0x20, 0x85, 0xa0, 0x1680, 0x2028, 0x2029, 0x202f, 0x205f, 0x3000]

/-- `str::trim`. -/
def trim (text : List Char) : List Char := (text.dropWhile isWhitespace).rdropWhile isWhitespace

/-- The bytes of a `str`. -/
def utf8 (text : List Char) : List UInt8 := text.flatMap String.utf8EncodeChar

def hexDigit (ch : UInt8) : HybridResult UInt8 :=
  if 48 ≤ ch ∧ ch ≤ 57 then .ok (ch - 48)
  else if 97 ≤ ch ∧ ch ≤ 102 then .ok (ch - 97 + 10)
  else if 65 ≤ ch ∧ ch ≤ 70 then .ok (ch - 65 + 10)
  else fail .invalidSeed

def decodeSeedHex (hex : List Char) : HybridResult (FixedBytes 32) :=
  let bytes := utf8 hex
  if whole : bytes.length = MASTER_SEED_LEN * 2 then do
    let seed ← Vector.ofFnM fun index : Fin 32 => do
      have inside : index.val * 2 + 1 < bytes.length := by
        rw [whole, MASTER_SEED_LEN]
        omega
      let hi ← hexDigit bytes[index.val * 2]
      let lo ← hexDigit bytes[index.val * 2 + 1]
      pure (hi <<< 4 ||| lo)
    pure ⟨seed.toList, seed.length_toList⟩
  else fail .invalidSeed

def masterSeedFromMnemonic (phrase : List Char) (password : Option (List Char)) : HybridResult (FixedBytes 32) := do
  let entropy ← okOr (P.mnemonicEntropy phrase) .invalidMnemonic
  let bigSeed ← okOr (P.seedFromEntropy entropy (password.getD [])) .invalidMnemonic
  pure ⟨bigSeed.val.take 32, by rw [List.length_take, bigSeed.property]; rfl⟩

/-- What follows a `0x` or a `0X`. -/
def stripHexPrefix? : List Char → Option (List Char)
  | '0' :: 'x' :: digits => some digits
  | '0' :: 'X' :: digits => some digits
  | _ => none

def masterSeedFromSecretUri (uri : List Char) : HybridResult (FixedBytes 32) :=
  let (phrase, password) := match splitOnce ['/', '/', '/'] uri with
    | some (phrase, password) => (phrase, some password)
    | none => (uri, none)
  let phrase := trim phrase
  match stripHexPrefix? phrase with
  | some hex => decodeSeedHex hex
  | none =>
    if '/' ∈ phrase then fail .unsupportedDerivationPath
    else masterSeedFromMnemonic P phrase password

def signPayloadWithArrays (secret : FixedBytes P.HYBRID_SECRET_LEN) (publicKey : FixedBytes S.HYBRID_PUBLIC_LEN)
    (payload : List UInt8) : HybridResult (HybridTxSignatureBytes S) := do
  let (signature, wireLen) ← okOr (P.signDeterministic secret payload SUBSTRATE_PAIR_SIGNATURE_CONTEXT []) .signingFailed
  ensure (wireLen = signatureWireLen signature) .signingFailed
  ofEnvelope (HybridTxSignatureBytes.new S publicKey.val signature.val)

def signPayloadFromSeed (seed payload : List UInt8) : HybridResult (HybridTxSignatureBytes S) := do
  let seed ← ofEnvelope (exactArray MASTER_SEED_LEN seed)
  let (secret, publicKey) ← okOr (P.keypairFromSeed seed) .invalidSeed
  signPayloadWithArrays P secret publicKey payload

def signPayloadFromSecret (secret publicKey payload : List UInt8) : HybridResult (HybridTxSignatureBytes S) := do
  let secret ← ofEnvelope (exactArray P.HYBRID_SECRET_LEN secret)
  let publicKey ← ofEnvelope (exactArray S.HYBRID_PUBLIC_LEN publicKey)
  signPayloadWithArrays P secret publicKey payload

def derivedAccountId (envelope : HybridTxSignatureBytes S) : AccountId :=
  accountIdFromPublicBytes P envelope.publicKey.val

/-- `HybridTxSignatureBytes::verify`. -/
def verifyEnvelope (envelope : HybridTxSignatureBytes S) (message : List UInt8) : Bool :=
  match validateSignaturePadding envelope.signature with
  | .error _ => false
  | .ok wireLen =>
    P.verify envelope.publicKey message SUBSTRATE_PAIR_SIGNATURE_CONTEXT (envelope.signature.val.take wireLen)

/-- The runtime's envelope. Nothing is checked when it is built or decoded. -/
structure HybridTxSignature (S : Suite) where
  publicKey : FixedBytes S.HYBRID_PUBLIC_LEN
  signature : FixedBytes S.HYBRID_SIGNATURE_LEN

namespace HybridTxSignature

def codec (S : Suite) : Codec (HybridTxSignature S) :=
  Codec.record (Codec.pair (Codec.array S.HYBRID_PUBLIC_LEN) (Codec.array S.HYBRID_SIGNATURE_LEN))
    (fun signed => (signed.publicKey, signed.signature)) (fun fields => ⟨fields.1, fields.2⟩) (fun _ => rfl)

def derivedAccountId (signed : HybridTxSignature S) : AccountId := accountIdFromPublicBytes P signed.publicKey.val

def verify (signed : HybridTxSignature S) (message : List UInt8) (signer : AccountId) : Bool :=
  if signed.derivedAccountId P ≠ signer then false
  else P.hybridPairVerify signed.signature message signed.publicKey

end HybridTxSignature

theorem exactArray_success {width : Nat} {bytes : List UInt8} {array : FixedBytes width} :
    exactArray width bytes = .ok array ↔ bytes = array.val := by
  unfold exactArray
  split
  · constructor
    · rintro ⟨⟩
      rfl
    · rintro rfl
      rfl
  · rename_i wrong
    constructor
    · intro same
      cases same
    · rintro rfl
      exact absurd array.property wrong

/-- `new` takes exactly the canonical envelopes apart. -/
theorem new_ok {publicKey signature : List UInt8} {envelope : HybridTxSignatureBytes S} :
    HybridTxSignatureBytes.new S publicKey signature = .ok envelope ↔
      publicKey = envelope.publicKey.val ∧ signature = envelope.signature.val ∧ envelope.Canonical := by
  have parts : HybridTxSignatureBytes.new S publicKey signature = .ok envelope →
      publicKey = envelope.publicKey.val ∧ signature = envelope.signature.val := by
    intro built
    unfold HybridTxSignatureBytes.new at built
    cases first : exactArray S.HYBRID_PUBLIC_LEN publicKey with
    | error _ =>
      rw [first] at built
      cases built
    | ok key =>
      cases second : exactArray S.HYBRID_SIGNATURE_LEN signature with
      | error _ =>
        rw [first, second] at built
        cases built
      | ok signed =>
        rw [first, second] at built
        simp only [bind, Except.bind, pure, Except.pure] at built
        split at built
        · cases built
        · cases built
          exact ⟨exactArray_success.mp first, exactArray_success.mp second⟩
  constructor
  · intro built
    obtain ⟨rfl, rfl⟩ := parts built
    exact ⟨rfl, rfl, (HybridTxSignatureBytes.new_success.mp built).1⟩
  · rintro ⟨rfl, rfl, canonical⟩
    exact HybridTxSignatureBytes.new_success.mpr ⟨canonical, rfl⟩

variable {P}

theorem publicKeyFromSeed_success {seed : List UInt8} {publicKey : FixedBytes S.HYBRID_PUBLIC_LEN} :
    publicKeyFromSeed P seed = .ok publicKey ↔
      ∃ master secret, seed = master.val ∧ P.keypairFromSeed master = some (secret, publicKey) := by
  unfold publicKeyFromSeed
  constructor
  · intro ran
    obtain ⟨master, exact, ⟨secret, key⟩, derived, same⟩ := by
      simpa only [bind_success, ofEnvelope_success, exactArray_success, okOr_success] using ran
    cases same
    exact ⟨master, secret, exact, derived⟩
  · rintro ⟨master, secret, rfl, derived⟩
    exact bind_success.mpr ⟨master, ofEnvelope_success.mpr (exactArray_success.mpr rfl),
      bind_success.mpr ⟨(secret, publicKey), okOr_success.mpr derived, rfl⟩⟩

theorem signPayloadWithArrays_success {secret : FixedBytes P.HYBRID_SECRET_LEN} {publicKey : FixedBytes S.HYBRID_PUBLIC_LEN}
    {payload : List UInt8} {envelope : HybridTxSignatureBytes S} :
    signPayloadWithArrays P secret publicKey payload = .ok envelope ↔
      envelope.publicKey = publicKey ∧ envelope.Canonical ∧
        P.signDeterministic secret payload SUBSTRATE_PAIR_SIGNATURE_CONTEXT [] =
          some (envelope.signature, signatureWireLen envelope.signature) := by
  unfold signPayloadWithArrays
  simp only [bind_success, okOr_success, ensure_success, ofEnvelope_success, new_ok]
  constructor
  · rintro ⟨⟨signature, wireLen⟩, signed, _, named, key, written, canonical⟩
    obtain rfl : signature = envelope.signature := Subtype.ext written
    dsimp only at named
    subst named
    exact ⟨(Subtype.ext key).symm, canonical, signed⟩
  · rintro ⟨rfl, canonical, signed⟩
    exact ⟨_, signed, (), rfl, rfl, rfl, canonical⟩

/-- What the signer returns: the seed's own key, and what the suite signed. -/
theorem signPayloadFromSeed_success {seed payload : List UInt8} {envelope : HybridTxSignatureBytes S} :
    signPayloadFromSeed P seed payload = .ok envelope ↔
      ∃ master secret, seed = master.val ∧ P.keypairFromSeed master = some (secret, envelope.publicKey) ∧
        envelope.Canonical ∧ P.signDeterministic secret payload SUBSTRATE_PAIR_SIGNATURE_CONTEXT [] =
          some (envelope.signature, signatureWireLen envelope.signature) := by
  unfold signPayloadFromSeed
  simp only [bind_success, ofEnvelope_success, exactArray_success, okOr_success]
  constructor
  · rintro ⟨master, exact, ⟨secret, publicKey⟩, derived, signed⟩
    obtain ⟨rfl, canonical, written⟩ := signPayloadWithArrays_success.mp signed
    exact ⟨master, secret, exact, derived, canonical, written⟩
  · rintro ⟨master, secret, exact, derived, canonical, written⟩
    exact ⟨master, exact, (secret, envelope.publicKey), derived,
      signPayloadWithArrays_success.mpr ⟨rfl, canonical, written⟩⟩

theorem verifyEnvelope_iff {envelope : HybridTxSignatureBytes S} {message : List UInt8} :
    verifyEnvelope P envelope message = true ↔ envelope.Canonical ∧
      P.verify envelope.publicKey message SUBSTRATE_PAIR_SIGNATURE_CONTEXT envelope.wireSignature = true := by
  have padding : validateSignaturePadding envelope.signature =
      if (envelope.signature.val.drop (signatureWireLen envelope.signature)).any (· ≠ 0) then
        .error (.invalidLength (signatureWireLen envelope.signature) S.HYBRID_SIGNATURE_LEN)
      else .ok (signatureWireLen envelope.signature) := rfl
  have dirty : (envelope.signature.val.drop (signatureWireLen envelope.signature)).any (· ≠ 0) = true ↔
      ¬ envelope.Canonical := by
    simp [HybridTxSignatureBytes.Canonical]
  rw [verifyEnvelope, padding]
  by_cases canonical : envelope.Canonical
  · rw [if_neg (fun padded => dirty.mp padded canonical)]
    exact (and_iff_right canonical).symm
  · rw [if_pos (dirty.mpr canonical)]
    simp [canonical]

/-- Both envelopes are the same two arrays on the wire. -/
theorem runtime_decode {bytes rest : List UInt8} {publicKey : FixedBytes S.HYBRID_PUBLIC_LEN}
    {signature : FixedBytes S.HYBRID_SIGNATURE_LEN} :
    (HybridTxSignature.codec S).decode bytes = some (⟨publicKey, signature⟩, rest) ↔
      bytes = (⟨publicKey, signature⟩ : HybridTxSignatureBytes S).encodeEnvelope ++ rest := by
  constructor
  · intro read
    simp only [HybridTxSignature.codec, Codec.record, Option.map_eq_some_iff] at read
    obtain ⟨fields, parsed, joined⟩ := read
    refine HybridTxSignatureBytes.codec_decode.mp ?_
    simp only [HybridTxSignatureBytes.codec, Codec.record, Option.map_eq_some_iff]
    refine ⟨fields, parsed, ?_⟩
    cases joined
    rfl
  · rintro rfl
    exact (HybridTxSignature.codec S).decode_encode ⟨publicKey, signature⟩ rest ⟨trivial, trivial⟩

/-- What the runtime accepts of a canonical envelope. -/
theorem runtime_verify_iff (lawful : P.Lawful) {envelope : HybridTxSignatureBytes S} (canonical : envelope.Canonical)
    {message : List UInt8} {signer : AccountId} :
    HybridTxSignature.verify P ⟨envelope.publicKey, envelope.signature⟩ message signer = true ↔
      derivedAccountId P envelope = signer ∧ verifyEnvelope P envelope message = true := by
  rw [verifyEnvelope_iff, ← lawful.pair_verifies envelope message canonical]
  unfold HybridTxSignature.verify HybridTxSignature.derivedAccountId derivedAccountId
  by_cases derived : accountIdFromPublicBytes P envelope.publicKey.val = signer
  · simp [derived, canonical]
  · simp [derived]

/-- From a seed to the runtime. What the signer returns decodes to itself, verifies, and
is accepted by the runtime for the account of the seed's public key and no other. -/
theorem signed_payload_reaches_runtime (lawful : P.Lawful) {seed payload : List UInt8}
    {envelope : HybridTxSignatureBytes S} (signed : signPayloadFromSeed P seed payload = .ok envelope) :
    publicKeyFromSeed P seed = .ok envelope.publicKey ∧
      HybridTxSignatureBytes.decodeEnvelope S envelope.encodeEnvelope = .ok envelope ∧
      verifyEnvelope P envelope payload = true ∧
      ∃ transaction, (HybridTxSignature.codec S).decode envelope.encodeEnvelope = some (transaction, []) ∧
        ∀ signer, transaction.verify P payload signer = true ↔
          signer = accountIdFromPublicBytes P envelope.publicKey.val := by
  obtain ⟨master, secret, rfl, derived, canonical, written⟩ := signPayloadFromSeed_success.mp signed
  have verifies : verifyEnvelope P envelope payload = true :=
    verifyEnvelope_iff.mpr ⟨canonical, lawful.signed_verifies derived written⟩
  have decodes : HybridTxSignatureBytes.decodeEnvelope S envelope.encodeEnvelope = .ok envelope :=
    HybridTxSignatureBytes.decodeEnvelope_success.mpr ⟨canonical, [], (List.append_nil _).symm⟩
  refine ⟨publicKeyFromSeed_success.mpr ⟨master, secret, rfl, derived⟩, decodes, verifies, ?_⟩
  refine ⟨_, runtime_decode.mpr (List.append_nil _).symm, fun signer => ?_⟩
  rw [runtime_verify_iff lawful canonical, and_iff_left verifies]
  exact eq_comm

section Zeros
variable (S : Suite)

def zeroSignature : FixedBytes S.HYBRID_SIGNATURE_LEN := ⟨List.replicate S.HYBRID_SIGNATURE_LEN 0, List.length_replicate⟩

/-- The first bytes of an input, with zeros behind it. -/
def padded (width : Nat) (input : List UInt8) : FixedBytes width :=
  ⟨(input ++ List.replicate width 0).take width, by simp⟩

/-- Every signature is the shortest one and all zeros, a public key is the seed and zeros,
and a hash is the first bytes of what is hashed. -/
def zeroPrimitives : Primitives S where
  HYBRID_SECRET_LEN := 32
  keypairFromSeed seed := some (seed, padded S.HYBRID_PUBLIC_LEN seed.val)
  signDeterministic _ _ _ _ := some (zeroSignature S, S.MIN_HYBRID_SIGNATURE_LEN)
  verify _ _ _ wire := wire == List.replicate S.MIN_HYBRID_SIGNATURE_LEN 0
  hybridPairVerify signature _ _ :=
    signature.val.take (signatureWireLen signature) == List.replicate S.MIN_HYBRID_SIGNATURE_LEN 0
  blake2b256 := padded 32
  mnemonicEntropy _ := none
  seedFromEntropy _ _ := none

theorem zeroPrimitives_lawful : (zeroPrimitives S).Lawful where
  signed_verifies _ signed := by
    cases signed
    have wide := S.wide
    have short : min S.MIN_HYBRID_SIGNATURE_LEN S.HYBRID_SIGNATURE_LEN = S.MIN_HYBRID_SIGNATURE_LEN := by
      simp only [Suite.MIN_HYBRID_SIGNATURE_LEN, CLASSICAL_SIGNATURE_LEN, DELTA_LEN]
      omega
    simp only [zeroPrimitives, zeroSignature, List.take_replicate, short, beq_self_eq_true]
  pair_verifies _ _ _ := rfl

theorem signatureWireLen_zero : signatureWireLen (zeroSignature S) = S.MIN_HYBRID_SIGNATURE_LEN := by
  have delta : deltaByte (zeroSignature S) = 0 := by
    unfold deltaByte zeroSignature
    exact List.getElem_replicate _
  rw [signatureWireLen, delta]
  rfl

/-- Signing with zeros always succeeds. -/
theorem zeroSigned (master : FixedBytes 32) (payload : List UInt8) :
    ∃ publicKey, (zeroPrimitives S).keypairFromSeed master = some (master, publicKey) ∧
      signPayloadFromSeed (zeroPrimitives S) master.val payload = .ok ⟨publicKey, zeroSignature S⟩ := by
  refine ⟨_, rfl, signPayloadFromSeed_success.mpr ⟨master, master, rfl, rfl, fun byte member => ?_, ?_⟩⟩
  · exact List.eq_of_mem_replicate (List.mem_of_mem_drop member)
  · rw [signatureWireLen_zero]
    rfl

end Zeros

def tinySeed : FixedBytes 32 := ⟨List.replicate 32 7, List.length_replicate⟩

theorem signed_payload_reaches_runtime_tiny :
    ∃ envelope : HybridTxSignatureBytes srFn512, verifyEnvelope (zeroPrimitives srFn512) envelope [1, 2] = true ∧
      ∃ transaction, (HybridTxSignature.codec srFn512).decode envelope.encodeEnvelope = some (transaction, []) ∧
        transaction.verify (zeroPrimitives srFn512) [1, 2]
          (accountIdFromPublicBytes (zeroPrimitives srFn512) envelope.publicKey.val) = true := by
  obtain ⟨publicKey, _, signed⟩ := zeroSigned srFn512 tinySeed [1, 2]
  obtain ⟨_, _, verifies, transaction, decoded, accepted⟩ :=
    signed_payload_reaches_runtime (zeroPrimitives_lawful srFn512) signed
  exact ⟨_, verifies, transaction, decoded, (accepted _).mpr rfl⟩

end QuipValidator.TransactionCrypto
