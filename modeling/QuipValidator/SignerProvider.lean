import QuipValidator.Machine
import QuipValidator.SignerBindings
import QuipValidator.StorageMap

/-! `quip-signer`, the signer of the browser: `QuipSigner` over a `DevSeedProvider`. Each
operation touches the provider's map at one point only, a write after the last await of
an import and a read before the first await of a signature. So a run is a sequence of
completed operations, in any order. -/
namespace QuipValidator.QuipSigner
open Scale HybridEnvelope Fallible TransactionCrypto
open HybridTxSignatureBytes (srFn512)

/-- `@polkadot/util` and `@polkadot/util-crypto`. -/
structure Polkadot where
  hexToU8a : List Char → List UInt8
  u8aToHex : List UInt8 → List Char
  /-- Of 256 bits. -/
  blake2AsU8a : List UInt8 → List UInt8
  decodeAddress : List Char → Fallible String (List UInt8)
  encodeAddress : List UInt8 → Nat → List Char

/-- Hexadecimal text with a `0x` is read, and lower-case text with a `0x` written. -/
structure Polkadot.Lawful (polkadot : Polkadot) : Prop where
  hexToU8a_eq : ∀ {digits bytes}, HexText.decode digits = some bytes → polkadot.hexToU8a ('0' :: 'x' :: digits) = bytes
  u8aToHex_eq : ∀ bytes, polkadot.u8aToHex bytes = '0' :: 'x' :: HexText.encode bytes

/-- The exports of the WASM module. Two of them are optional. -/
structure QuipWasmCrypto where
  accountIdFromPublic : List Char → Fallible String (List Char)
  publicFromSeed : List Char → Fallible String (List Char)
  seedFromMnemonic : Option (List Char → Fallible String (List Char))
  signPayloadFromSeed : List Char → List Char → Fallible String (List Char)
  verifyEnvelope : Option (List Char → List Char → List Char → Fallible String Bool)

/-- The module built from `transaction-crypto-wasm`. -/
def wasmModule (P : Primitives srFn512) (hex : HexCrate) : QuipWasmCrypto where
  accountIdFromPublic := Wasm.accountIdFromPublic P hex
  publicFromSeed := Wasm.publicFromSeed P hex
  seedFromMnemonic := some (Wasm.seedFromMnemonic P hex)
  signPayloadFromSeed := Wasm.signPayloadFromSeed P hex
  verifyEnvelope := some (Wasm.verifyEnvelope P hex)

/-- What the provider is built with. -/
structure Config where
  polkadot : Polkadot
  wasm : QuipWasmCrypto
  ss58Format : Nat

def QUIP_ACCOUNT_ID_LEN : Nat := 32
def QUIP_PUBLIC_KEY_LEN : Nat := 929
def QUIP_SIGNATURE_LEN : Nat := 731
def QUIP_ENVELOPE_LEN : Nat := QUIP_PUBLIC_KEY_LEN + QUIP_SIGNATURE_LEN
def MAX_UNHASHED_PAYLOAD_LEN : Nat := 256
def MAX_SAFE_INTEGER : Nat := 2 ^ 53 - 1

/-- `/^0x(?:[0-9a-f]{2})*$/iu`. -/
def isHex (value : List Char) : Bool :=
  match stripHexPrefix? value with
  | some digits => digits.length % 2 == 0 && digits.all fun digit => (HexText.digitValue digit).isSome
  | none => false

structure QuipSeedAccount where
  accountIdHex : List Char
  address : List Char
  genesisHash : Option (List Char)
  name : List Char
  publicHex : List Char
  deriving DecidableEq

/-- The provider's map and the page's counter of results. -/
structure State where
  seedsByAccountId : StorageMap (List Char) (List Char)
  nextSignerId : Nat

variable (T : Config)

def decodeHex (name : String) (value : List Char) (expectedLength : Option Nat) : Fallible String (List UInt8) :=
  if isHex value then
    let decoded := T.polkadot.hexToU8a value
    match expectedLength with
    | some expected =>
      if decoded.length = expected then .ok decoded
      else fail (name ++ " must decode to " ++ toString expected ++ " bytes (got " ++ toString decoded.length ++ ")")
    | none => .ok decoded
  else fail (name ++ " must be a 0x-prefixed, even-length hex string")

/-- `String.prototype.toLowerCase`, of ASCII text. -/
def toLowerCase (text : List Char) : List Char := text.map Char.toLower

def accountIdFromAddress (address : List Char) : Fallible String (List Char) := do
  ensure (address ≠ []) "Quip signer address must be a non-empty SS58 address"
  let decoded ← mapErr (fun message => "Malformed Quip SS58 address: " ++ message) (T.polkadot.decodeAddress address)
  ensure (decoded.length = QUIP_ACCOUNT_ID_LEN)
    ("Quip SS58 address must decode to " ++ toString QUIP_ACCOUNT_ID_LEN ++ " account-id bytes (got " ++
      toString decoded.length ++ ")")
  pure (toLowerCase (T.polkadot.u8aToHex decoded))

def messageToSign (dataHex : List Char) : Fallible String (List Char) := do
  let data ← decodeHex T "raw signing payload" dataHex none
  pure (if data.length > MAX_UNHASHED_PAYLOAD_LEN then T.polkadot.u8aToHex (T.polkadot.blake2AsU8a data)
    else T.polkadot.u8aToHex data)

namespace DevSeedProvider

def importSeed (s : State) (name seedHex : List Char) (genesisHash : Option (List Char)) :
    Fallible String (QuipSeedAccount × State) := do
  let _ ← decodeHex T "seed" seedHex (some 32)
  let publicHex ← T.wasm.publicFromSeed seedHex
  let _ ← decodeHex T "H4 public key" publicHex (some QUIP_PUBLIC_KEY_LEN)
  let accountIdHex ← T.wasm.accountIdFromPublic publicHex
  let accountId ← decodeHex T "Quip account id" accountIdHex (some QUIP_ACCOUNT_ID_LEN)
  let normalizedAccountId := toLowerCase (T.polkadot.u8aToHex accountId)
  let address := T.polkadot.encodeAddress accountId T.ss58Format
  pure (⟨normalizedAccountId, address, genesisHash, name, publicHex⟩,
    { s with seedsByAccountId := s.seedsByAccountId.insert normalizedAccountId seedHex })

def importMnemonic (s : State) (name mnemonic : List Char) (genesisHash : Option (List Char)) :
    Fallible String (QuipSeedAccount × State) := do
  let seedFromMnemonic ← okOr T.wasm.seedFromMnemonic "seedFromMnemonic is not available in the supplied Quip WASM module"
  let seedHex ← seedFromMnemonic mnemonic
  importSeed T s name seedHex genesisHash

def signPayload (s : State) (address payloadHex : List Char) : Fallible String (List Char) := do
  let accountIdHex ← accountIdFromAddress T address
  let _ ← decodeHex T "message to sign" payloadHex none
  -- An empty string counts as no seed.
  let seedHex ← okOr ((s.seedsByAccountId.lookup accountIdHex).filter (· ≠ []))
    ("No Quip seed registered for " ++ String.ofList address)
  let verifyEnvelope ← okOr T.wasm.verifyEnvelope "verifyEnvelope is not available in the supplied Quip WASM module"
  let envelopeHex ← T.wasm.signPayloadFromSeed seedHex payloadHex
  let _ ← decodeHex T "hybrid signature envelope" envelopeHex (some QUIP_ENVELOPE_LEN)
  let isValid ← verifyEnvelope payloadHex envelopeHex accountIdHex
  ensure (isValid = true) ("Quip WASM returned an invalid signature envelope for " ++ String.ofList address)
  pure envelopeHex

def hasAccount (s : State) (address : List Char) : Bool :=
  match accountIdFromAddress T address with
  | .ok accountIdHex => (s.seedsByAccountId.lookup accountIdHex).isSome
  | .error _ => false

end DevSeedProvider

def nextResultId (nextSignerId : Nat) : Nat := if nextSignerId = MAX_SAFE_INTEGER then 1 else nextSignerId + 1

structure SignerResult where
  id : Nat
  signature : List Char
  deriving DecidableEq

/-- `QuipSigner.signRaw` over the provider. The counter moves before anything is checked. -/
def signRaw (s : State) (address data : List Char) : Fallible String SignerResult × State :=
  let id := nextResultId s.nextSignerId
  (do
    let _ ← accountIdFromAddress T address
    let _ ← decodeHex T "raw signing payload" data none
    let message ← messageToSign T data
    let signature ← DevSeedProvider.signPayload T s address message
    let _ ← decodeHex T "hybrid signature envelope" signature (some QUIP_ENVELOPE_LEN)
    pure ⟨id, signature⟩,
  { s with nextSignerId := id })

inductive Step where
  | importSeed (name seedHex : List Char) (genesisHash : Option (List Char))
  | importMnemonic (name mnemonic : List Char) (genesisHash : Option (List Char))
  | signRaw (address data : List Char)

inductive Outcome where
  | imported (account : QuipSeedAccount)
  | signed (address data : List Char) (result : SignerResult)
  deriving DecidableEq

/-- A request that throws reports nothing. -/
def Step.run (s : State) : Step → List Outcome × State
  | .importSeed name seedHex genesisHash => match DevSeedProvider.importSeed T s name seedHex genesisHash with
    | .ok (account, after) => ([.imported account], after)
    | .error _ => ([], s)
  | .importMnemonic name mnemonic genesisHash => match DevSeedProvider.importMnemonic T s name mnemonic genesisHash with
    | .ok (account, after) => ([.imported account], after)
    | .error _ => ([], s)
  | .signRaw address data => match QuipSigner.signRaw T s address data with
    | (.ok result, after) => ([.signed address data result], after)
    | (.error _, after) => ([], after)

def machine : Machine State Step Outcome where
  next s step := (step.run T s).2
  report s step := (step.run T s).1

/-- A page that has just been loaded. -/
def fresh : State := ⟨∅, 0⟩

/-- The key of the map for an account. -/
def accountKey (account : AccountId) : List Char := '0' :: 'x' :: HexText.encode account.val

/-- The bytes the runtime verifies for an encoded payload: `SignedPayload::using_encoded`. -/
def usingEncoded (payload : List UInt8) : List UInt8 :=
  if payload.length > MAX_UNHASHED_PAYLOAD_LEN then T.polkadot.blake2AsU8a payload else payload

variable {T}

theorem isHex_prefixed (digits : List Char) : isHex ('0' :: 'x' :: digits) = (HexText.decode digits).isSome :=
  (HexText.decode_isSome digits).symm

theorem decodeHex_ok {name : String} {value : List Char} {expectedLength : Option Nat} {decoded : List UInt8} :
    decodeHex T name value expectedLength = .ok decoded ↔
      isHex value = true ∧ decoded = T.polkadot.hexToU8a value ∧
        ∀ expected, expectedLength = some expected → decoded.length = expected := by
  unfold decodeHex
  by_cases hex : isHex value = true
  · rw [if_pos hex]
    cases expectedLength with
    | none => simp [hex, eq_comm]
    | some expected =>
      by_cases whole : (T.polkadot.hexToU8a value).length = expected
      · simp only [if_pos whole, Except.ok.injEq, hex, true_and, Option.some.injEq, forall_eq']
        constructor
        · rintro rfl
          exact ⟨rfl, whole⟩
        · rintro ⟨rfl, _⟩
          rfl
      · simp only [if_neg whole, fail, hex, true_and, Option.some.injEq, forall_eq', reduceCtorEq, false_iff, not_and]
        rintro rfl
        exact whole
  · simp [hex, fail]

/-- Text with a `0x` is decoded as it reads. -/
theorem decodeHex_prefixed (lawful : T.polkadot.Lawful) {name : String} {digits : List Char}
    {expectedLength : Option Nat} {decoded : List UInt8} :
    decodeHex T name ('0' :: 'x' :: digits) expectedLength = .ok decoded ↔
      HexText.decode digits = some decoded ∧
        ∀ expected, expectedLength = some expected → decoded.length = expected := by
  rw [decodeHex_ok, isHex_prefixed, ← and_assoc]
  refine and_congr_left fun _ => ?_
  constructor
  · rintro ⟨hex, rfl⟩
    obtain ⟨bytes, read⟩ := Option.isSome_iff_exists.mp hex
    rw [lawful.hexToU8a_eq read, read]
  · intro read
    exact ⟨by rw [read]; rfl, (lawful.hexToU8a_eq read).symm⟩

theorem accountKey_injective {first second : AccountId} (same : accountKey first = accountKey second) : first = second :=
  Subtype.ext (HexText.encode_injective (List.cons.inj (List.cons.inj same).2).2)

theorem toLowerCase_u8aToHex (lawful : T.polkadot.Lawful) (bytes : List UInt8) :
    toLowerCase (T.polkadot.u8aToHex bytes) = '0' :: 'x' :: HexText.encode bytes := by
  rw [lawful.u8aToHex_eq]
  exact congrArg (fun digits => '0' :: 'x' :: digits) (HexText.encode_toLower bytes)

theorem accountIdFromAddress_ok (lawful : T.polkadot.Lawful) {address accountIdHex : List Char} :
    accountIdFromAddress T address = .ok accountIdHex ↔ address ≠ [] ∧ ∃ account : AccountId,
      T.polkadot.decodeAddress address = .ok account.val ∧ accountIdHex = accountKey account := by
  unfold accountIdFromAddress
  simp only [bind_success, ensure_success, mapErr_success]
  constructor
  · rintro ⟨_, given, decoded, found, _, whole, same⟩
    refine ⟨given, ⟨decoded, whole⟩, found, ?_⟩
    rw [← Except.ok.inj same]
    exact toLowerCase_u8aToHex lawful decoded
  · rintro ⟨given, account, found, rfl⟩
    exact ⟨(), given, account.val, found, (), account.property, congrArg Except.ok (toLowerCase_u8aToHex lawful account.val)⟩

theorem messageToSign_ok (lawful : T.polkadot.Lawful) {data message : List Char} :
    messageToSign T data = .ok message ↔ isHex data = true ∧
      message = '0' :: 'x' :: HexText.encode (usingEncoded T (T.polkadot.hexToU8a data)) := by
  unfold messageToSign
  simp only [bind_success, decodeHex_ok]
  constructor
  · rintro ⟨decoded, ⟨hex, rfl, _⟩, same⟩
    refine ⟨hex, ?_⟩
    rw [← Except.ok.inj same, usingEncoded]
    split <;> exact lawful.u8aToHex_eq _
  · rintro ⟨hex, rfl⟩
    refine ⟨_, ⟨hex, rfl, by simp⟩, ?_⟩
    rw [usingEncoded]
    split <;> exact congrArg Except.ok (lawful.u8aToHex_eq _)

/-- An import that succeeds writes one entry, under the id it returns. -/
theorem importSeed_written {s after : State} {name seedHex : List Char} {genesisHash : Option (List Char)}
    {account : QuipSeedAccount} (ran : DevSeedProvider.importSeed T s name seedHex genesisHash = .ok (account, after)) :
    after = { s with seedsByAccountId := s.seedsByAccountId.insert account.accountIdHex seedHex } := by
  simp only [DevSeedProvider.importSeed, bind_success] at ran
  obtain ⟨_, _, _, _, _, _, _, _, _, _, same⟩ := ran
  cases same
  rfl

theorem importMnemonic_seed {s after : State} {name mnemonic : List Char} {genesisHash : Option (List Char)}
    {account : QuipSeedAccount} (ran : DevSeedProvider.importMnemonic T s name mnemonic genesisHash = .ok (account, after)) :
    ∃ seedHex, DevSeedProvider.importSeed T s name seedHex genesisHash = .ok (account, after) := by
  simp only [DevSeedProvider.importMnemonic, bind_success] at ran
  obtain ⟨_, _, seedHex, _, imported⟩ := ran
  exact ⟨seedHex, imported⟩

/-- What a step does: it imports one account, signs without touching the map, or throws. -/
theorem step_cases (s : State) (step : Step) :
    (∃ name seedHex genesisHash account after, DevSeedProvider.importSeed T s name seedHex genesisHash = .ok (account, after) ∧
      (machine T).report s step = [.imported account] ∧ (machine T).next s step = after) ∨
    ((machine T).next s step).seedsByAccountId = s.seedsByAccountId ∧
      ∀ account, .imported account ∉ (machine T).report s step := by
  cases step with
  | importSeed name seedHex genesisHash =>
    cases ran : DevSeedProvider.importSeed T s name seedHex genesisHash with
    | error _ => exact .inr (by simp [machine, Step.run, ran])
    | ok result => exact .inl ⟨name, seedHex, genesisHash, result.1, result.2, ran, by simp [machine, Step.run, ran]⟩
  | importMnemonic name mnemonic genesisHash =>
    cases ran : DevSeedProvider.importMnemonic T s name mnemonic genesisHash with
    | error _ => exact .inr (by simp [machine, Step.run, ran])
    | ok result =>
      obtain ⟨seedHex, imported⟩ := importMnemonic_seed ran
      exact .inl ⟨name, seedHex, genesisHash, result.1, result.2, imported, by simp [machine, Step.run, ran]⟩
  | signRaw address data =>
    refine .inr ?_
    simp only [machine, Step.run]
    cases ran : QuipSigner.signRaw T s address data with
    | mk answer after =>
      have kept : after.seedsByAccountId = s.seedsByAccountId := by
        have second : after = (QuipSigner.signRaw T s address data).2 := by rw [ran]
        rw [second]
        rfl
      cases answer with
      | error _ => simp [kept]
      | ok _ => simp [kept]

/-- The map holds the accounts that the log says were imported. -/
theorem run_imported (steps : List Step) (key : List Char) :
    (((machine T).run fresh steps).seedsByAccountId.lookup key).isSome = true ↔
      ∃ account, .imported account ∈ (machine T).trace fresh steps ∧ account.accountIdHex = key := by
  have start : ∀ key, (fresh.seedsByAccountId.lookup key).isSome = true ↔
      ∃ account, Outcome.imported account ∈ [] ∧ account.accountIdHex = key := by
    intro key
    simp [fresh]
  refine (machine T).run_follows (fun log s => ∀ key, (s.seedsByAccountId.lookup key).isSome = true ↔
    ∃ account, .imported account ∈ log ∧ account.accountIdHex = key) start ?_ steps key
  intro s log step held key
  rcases step_cases s step with ⟨name, seedHex, genesisHash, account, after, ran, reported, moved⟩ | ⟨kept, quiet⟩
  · rw [moved, reported, importSeed_written ran, StorageMap.lookup_insert_ite]
    by_cases same : key = account.accountIdHex
    · simp [same]
    · simp [same, held key, Ne.symm same]
  · rw [kept, held key]
    simp [quiet]

theorem signPayload_ok {s : State} {address payloadHex envelopeHex : List Char} :
    DevSeedProvider.signPayload T s address payloadHex = .ok envelopeHex ↔
      ∃ accountIdHex decoded seedHex verifyEnvelope envelope, accountIdFromAddress T address = .ok accountIdHex ∧
        decodeHex T "message to sign" payloadHex none = .ok decoded ∧
        (s.seedsByAccountId.lookup accountIdHex = some seedHex ∧ seedHex ≠ []) ∧
        T.wasm.verifyEnvelope = some verifyEnvelope ∧ T.wasm.signPayloadFromSeed seedHex payloadHex = .ok envelopeHex ∧
        decodeHex T "hybrid signature envelope" envelopeHex (some QUIP_ENVELOPE_LEN) = .ok envelope ∧
        verifyEnvelope payloadHex envelopeHex accountIdHex = .ok true := by
  unfold DevSeedProvider.signPayload
  simp only [bind_success, okOr_success, ensure_success, Option.filter_eq_some_iff, decide_eq_true_eq]
  constructor
  · rintro ⟨accountIdHex, found, decoded, read, seedHex, held, verifyEnvelope, verifier, out, made, envelope, sized, _, verdict,
      _, rfl, same⟩
    cases same
    exact ⟨accountIdHex, decoded, seedHex, verifyEnvelope, envelope, found, read, held, verifier, made, sized, verdict⟩
  · rintro ⟨accountIdHex, decoded, seedHex, verifyEnvelope, envelope, found, read, held, verifier, made, sized, verdict⟩
    exact ⟨accountIdHex, found, decoded, read, seedHex, held, verifyEnvelope, verifier, envelopeHex, made, envelope, sized,
      true, verdict, (), rfl, rfl⟩

/-- `signRaw` is the provider's signature of the message the runtime verifies. -/
theorem signRaw_ok (lawful : T.polkadot.Lawful) {s : State} {address data : List Char} {result : SignerResult} :
    (signRaw T s address data).1 = .ok result ↔ isHex data = true ∧ result.id = nextResultId s.nextSignerId ∧
      DevSeedProvider.signPayload T s address
        ('0' :: 'x' :: HexText.encode (usingEncoded T (T.polkadot.hexToU8a data))) = .ok result.signature := by
  simp only [signRaw, bind_success, messageToSign_ok lawful]
  constructor
  · rintro ⟨_, _, _, _, message, ⟨hex, rfl⟩, signature, made, _, _, same⟩
    cases same
    exact ⟨hex, rfl, made⟩
  · rintro ⟨hex, counted, made⟩
    obtain ⟨accountIdHex, _, _, _, envelope, found, _, _, _, _, sized, _⟩ := signPayload_ok.mp made
    refine ⟨accountIdHex, found, T.polkadot.hexToU8a data, decodeHex_ok.mpr ⟨hex, rfl, by simp⟩, _, ⟨hex, rfl⟩,
      result.signature, made, envelope, sized, ?_⟩
    rw [← counted]
    rfl

section Soundness
variable {P : Primitives srFn512} {hex : HexCrate}

end Soundness

section Completeness
variable {P : Primitives srFn512} {hex : HexCrate}

/-- An entry of the map: a seed, under the account derived from it. -/
def Derives (P : Primitives srFn512) (seedHex : List Char) (account : AccountId) (seed : List UInt8) : Prop :=
  HexText.decode (Wasm.stripHexPrefix seedHex) = some seed ∧ ∃ publicKey,
    publicKeyFromSeed P seed = .ok publicKey ∧ account = accountIdFromPublicBytes P publicKey.val

theorem isHex_ne_nil {value : List Char} (hex : isHex value = true) : value ≠ [] := by
  rintro rfl
  cases hex

/-- With the real module, an import registers the seed it was given under the account the
seed derives, and returns that account with its own address. -/
theorem importSeed_derives (hexLawful : hex.Lawful) (polkadotLawful : T.polkadot.Lawful) (built : T.wasm = wasmModule P hex)
    {s after : State} {name seedHex : List Char} {genesisHash : Option (List Char)} {imported : QuipSeedAccount}
    (ran : DevSeedProvider.importSeed T s name seedHex genesisHash = .ok (imported, after)) :
    seedHex ≠ [] ∧ ∃ (account : AccountId) (seed : List UInt8), imported.accountIdHex = accountKey account ∧
      imported.address = T.polkadot.encodeAddress account.val T.ss58Format ∧ Derives P seedHex account seed := by
  simp only [DevSeedProvider.importSeed, bind_success, built, wasmModule, Wasm.publicFromSeed, Wasm.accountIdFromPublic,
    mapErr_success, Wasm.decodeHex_ok hexLawful] at ran
  obtain ⟨_, seedHeld, publicHex, ⟨seed, seedRead, publicKey, derived, written⟩, _, _, accountIdHex,
    ⟨publicBytes, publicRead, named⟩, accountId, accountRead, same⟩ := ran
  cases written
  cases named
  cases same
  refine ⟨isHex_ne_nil (decodeHex_ok.mp seedHeld).1, accountIdFromPublicBytes P publicKey.val, seed, ?_, ?_, seedRead,
    publicKey, derived, rfl⟩
  all_goals
    rw [Wasm.encodeHex, hexLawful.encode_eq] at publicRead
    rw [Wasm.encodeHex, hexLawful.encode_eq, decodeHex_prefixed polkadotLawful] at accountRead
    have key : publicKey.val = publicBytes := Option.some.inj ((HexText.decode_encode _).symm.trans publicRead)
    have account := Option.some.inj ((HexText.decode_encode _).symm.trans accountRead.1)
    rw [← account, ← key]
  exact toLowerCase_u8aToHex polkadotLawful _

/-- A seed that derives a key can be imported. -/
theorem importSeed_complete (hexLawful : hex.Lawful) (polkadotLawful : T.polkadot.Lawful)
    (built : T.wasm = wasmModule P hex) (s : State) (name : List Char) (genesisHash : Option (List Char))
    {seed : List UInt8} {publicKey : FixedBytes srFn512.HYBRID_PUBLIC_LEN}
    (derived : publicKeyFromSeed P seed = .ok publicKey) :
    let account := accountIdFromPublicBytes P publicKey.val
    let seedHex := '0' :: 'x' :: HexText.encode seed
    DevSeedProvider.importSeed T s name seedHex genesisHash =
      .ok (⟨accountKey account, T.polkadot.encodeAddress account.val T.ss58Format, genesisHash, name,
          Wasm.encodeHex hex publicKey.val⟩,
        { s with seedsByAccountId := s.seedsByAccountId.insert (accountKey account) seedHex }) := by
  obtain ⟨master, _, rfl, _⟩ := publicKeyFromSeed_success.mp derived
  have text : ∀ bytes, Wasm.encodeHex hex bytes = '0' :: 'x' :: HexText.encode bytes :=
    fun bytes => congrArg (fun digits => '0' :: 'x' :: digits) (hexLawful.encode_eq bytes)
  have sized : ∀ (name : String) (bytes : List UInt8) (expected : Nat), bytes.length = expected →
      decodeHex T name ('0' :: 'x' :: HexText.encode bytes) (some expected) = .ok bytes := by
    intro name bytes expected whole
    exact (decodeHex_prefixed polkadotLawful).mpr
      ⟨HexText.decode_encode bytes, fun _ same => by cases same; exact whole⟩
  have read : ∀ name bytes, Wasm.decodeHex hex name ('0' :: 'x' :: HexText.encode bytes) = .ok bytes :=
    fun _ bytes => (Wasm.decodeHex_ok hexLawful).mpr (HexText.decode_encode bytes)
  simp only [DevSeedProvider.importSeed, built, wasmModule, Wasm.publicFromSeed, Wasm.accountIdFromPublic, text, read,
    derived, mapErr, ok_bind, pure_bind, sized _ _ _ master.property, sized _ _ QUIP_PUBLIC_KEY_LEN publicKey.property,
    sized _ _ QUIP_ACCOUNT_ID_LEN (accountIdFromPublicBytes P publicKey.val).property, toLowerCase_u8aToHex polkadotLawful]
  rfl

/-- Every seed in the map stands under the account it derives. -/
theorem run_derives (hexLawful : hex.Lawful) (polkadotLawful : T.polkadot.Lawful) (built : T.wasm = wasmModule P hex)
    (steps : List Step) : ∀ key seedHex, ((machine T).run fresh steps).seedsByAccountId.lookup key = some seedHex →
      seedHex ≠ [] ∧ ∃ account seed, key = accountKey account ∧ Derives P seedHex account seed := by
  refine (machine T).run_follows (fun _ s => ∀ key seedHex, s.seedsByAccountId.lookup key = some seedHex →
    seedHex ≠ [] ∧ ∃ account seed, key = accountKey account ∧ Derives P seedHex account seed) ?_ ?_ steps
  · intro key seedHex held
    cases held
  · intro s _ step before key seedHex held
    rcases step_cases s step with ⟨name, other, genesisHash, imported, after, ran, _, moved⟩ | ⟨kept, _⟩
    · rw [moved, importSeed_written ran, StorageMap.lookup_insert_ite] at held
      split at held
      · rename_i same
        cases held
        obtain ⟨given, account, seed, named, _, derives⟩ := importSeed_derives hexLawful polkadotLawful built ran
        exact ⟨given, account, seed, same.trans named, derives⟩
      · exact before key seedHex held
    · rw [kept] at held
      exact before key seedHex held

/-- Every import in the log returned the address of the account it registered. -/
theorem run_addresses (hexLawful : hex.Lawful) (polkadotLawful : T.polkadot.Lawful) (built : T.wasm = wasmModule P hex)
    (steps : List Step) : ∀ imported, .imported imported ∈ (machine T).trace fresh steps → ∃ account : AccountId,
      imported.accountIdHex = accountKey account ∧
        imported.address = T.polkadot.encodeAddress account.val T.ss58Format := by
  intro imported logged
  obtain ⟨earlier, step, later, _, reported⟩ := (machine T).mem_trace logged
  rcases step_cases ((machine T).run fresh earlier) step with ⟨_, _, _, account, _, ran, same, _⟩ | ⟨_, quiet⟩
  · rw [same, List.mem_singleton] at reported
    cases reported
    obtain ⟨_, account, _, named, placed, _⟩ := importSeed_derives hexLawful polkadotLawful built ran
    exact ⟨account, named, placed⟩
  · exact absurd reported (quiet imported)

theorem hasAccount_eq (polkadotLawful : T.polkadot.Lawful) {s : State} {address : List Char} {account : AccountId}
    (given : address ≠ []) (found : T.polkadot.decodeAddress address = .ok account.val) :
    DevSeedProvider.hasAccount T s address = (s.seedsByAccountId.lookup (accountKey account)).isSome := by
  rw [DevSeedProvider.hasAccount, (accountIdFromAddress_ok polkadotLawful).mpr ⟨given, account, found, rfl⟩]

/-- With the real module and a registered seed, `signRaw` is the core's signature. -/
theorem signRaw_core (lawful : P.Lawful) (hexLawful : hex.Lawful) (polkadotLawful : T.polkadot.Lawful)
    (built : T.wasm = wasmModule P hex) {s : State} {address seedHex digits : List Char} {account : AccountId}
    {seed payload : List UInt8} (given : address ≠ []) (found : T.polkadot.decodeAddress address = .ok account.val)
    (held : s.seedsByAccountId.lookup (accountKey account) = some seedHex) (named : seedHex ≠ [])
    (derives : Derives P seedHex account seed) (read : HexText.decode digits = some payload) (result : SignerResult) :
    (signRaw T s address ('0' :: 'x' :: digits)).1 = .ok result ↔
      ∃ envelope, TransactionCrypto.signPayloadFromSeed P seed (usingEncoded T payload) = .ok envelope ∧
        result = ⟨nextResultId s.nextSignerId, Wasm.encodeHex hex envelope.encodeEnvelope⟩ := by
  obtain ⟨seedRead, publicKey, derived, owner⟩ := derives
  have key := (accountIdFromAddress_ok polkadotLawful).mpr ⟨given, account, found, rfl⟩
  have payloadRead : ∀ bytes, HexText.decode (Wasm.stripHexPrefix ('0' :: 'x' :: HexText.encode bytes)) = some bytes :=
    HexText.decode_encode
  rw [signRaw_ok polkadotLawful, polkadotLawful.hexToU8a_eq read]
  constructor
  · rintro ⟨_, counted, made⟩
    obtain ⟨_, _, other, _, _, keyAgain, _, ⟨heldAgain, _⟩, _, out, _, _⟩ := signPayload_ok.mp made
    rw [key] at keyAgain
    cases keyAgain
    rw [held] at heldAgain
    cases heldAgain
    rw [built] at out
    obtain ⟨_, _, envelope, seedAgain, messageRead, signed, written⟩ := (Wasm.signPayloadFromSeed_ok hexLawful).mp out
    rw [seedRead] at seedAgain
    rw [payloadRead] at messageRead
    cases seedAgain
    cases messageRead
    refine ⟨envelope, signed, ?_⟩
    rw [← counted, ← written]
  · rintro ⟨envelope, signed, rfl⟩
    have accepted : RuntimeAccepts P (usingEncoded T payload) envelope.encodeEnvelope account.val := by
      refine (runtimeAccepts_signed lawful signed _).mpr ?_
      obtain ⟨master, secret, whole, pair, _⟩ := signPayloadFromSeed_success.mp signed
      have same := publicKeyFromSeed_success.mpr ⟨master, secret, whole, pair⟩
      rw [derived] at same
      rw [owner, Except.ok.inj same]
    have sized : envelope.encodeEnvelope.length = QUIP_ENVELOPE_LEN := HybridTxSignatureBytes.length_encodeEnvelope envelope
    have text : Wasm.encodeHex hex envelope.encodeEnvelope = '0' :: 'x' :: HexText.encode envelope.encodeEnvelope :=
      congrArg (fun digits => '0' :: 'x' :: digits) (hexLawful.encode_eq _)
    refine ⟨by rw [isHex_prefixed, read]; rfl, rfl, signPayload_ok.mpr ⟨_, usingEncoded T payload, seedHex,
      Wasm.verifyEnvelope P hex, envelope.encodeEnvelope, key, ?_, ⟨held, named⟩, by rw [built]; rfl, ?_, ?_, ?_⟩⟩
    · exact (decodeHex_prefixed polkadotLawful).mpr ⟨HexText.decode_encode _, by simp⟩
    · rw [built]
      exact (Wasm.signPayloadFromSeed_ok hexLawful).mpr ⟨seed, _, envelope, seedRead, payloadRead _, signed, rfl⟩
    · rw [text]
      exact (decodeHex_prefixed polkadotLawful).mpr ⟨HexText.decode_encode _, fun _ same => by cases same; exact sized⟩
    · refine (Wasm.verifyEnvelope_iff lawful hexLawful).mpr ⟨_, _, _, payloadRead _, ?_, payloadRead _, accepted⟩
      rw [text]
      exact payloadRead _

/-- Every account imported can sign, and nothing else can. In every reachable state the
provider has exactly the accounts its log says were imported, each at the address
the import returned and at any other spelling of the account. For such an address `signRaw`
answers every payload with what the core signs with a seed of that account, and fails
only where the core fails. -/
theorem imported_accounts_can_sign (lawful : P.Lawful) (hexLawful : hex.Lawful) (polkadotLawful : T.polkadot.Lawful)
    (built : T.wasm = wasmModule P hex)
    (addresses : ∀ account : AccountId, T.polkadot.encodeAddress account.val T.ss58Format ≠ [] ∧
      T.polkadot.decodeAddress (T.polkadot.encodeAddress account.val T.ss58Format) = .ok account.val)
    (steps : List Step) :
    (∀ imported, .imported imported ∈ (machine T).trace fresh steps →
      DevSeedProvider.hasAccount T ((machine T).run fresh steps) imported.address = true) ∧
    ∀ (address : List Char) (account : AccountId), address ≠ [] → T.polkadot.decodeAddress address = .ok account.val →
      (DevSeedProvider.hasAccount T ((machine T).run fresh steps) address = true ↔
        ∃ imported, .imported imported ∈ (machine T).trace fresh steps ∧ imported.accountIdHex = accountKey account) ∧
      (DevSeedProvider.hasAccount T ((machine T).run fresh steps) address = true → ∃ seed publicKey,
        publicKeyFromSeed P seed = .ok publicKey ∧ account = accountIdFromPublicBytes P publicKey.val ∧
        ∀ digits payload, HexText.decode digits = some payload → ∀ result,
          (signRaw T ((machine T).run fresh steps) address ('0' :: 'x' :: digits)).1 = .ok result ↔
            ∃ envelope, TransactionCrypto.signPayloadFromSeed P seed (usingEncoded T payload) = .ok envelope ∧
              result = ⟨nextResultId ((machine T).run fresh steps).nextSignerId,
                Wasm.encodeHex hex envelope.encodeEnvelope⟩) := by
  have exactly : ∀ (address : List Char) (account : AccountId), address ≠ [] →
      T.polkadot.decodeAddress address = .ok account.val →
      (DevSeedProvider.hasAccount T ((machine T).run fresh steps) address = true ↔
        ∃ imported, .imported imported ∈ (machine T).trace fresh steps ∧ imported.accountIdHex = accountKey account) := by
    intro address account given found
    rw [hasAccount_eq polkadotLawful given found]
    exact run_imported steps (accountKey account)
  refine ⟨fun imported logged => ?_, fun address account given found => ⟨exactly address account given found, fun has => ?_⟩⟩
  · obtain ⟨account, named, placed⟩ := run_addresses hexLawful polkadotLawful built steps imported logged
    obtain ⟨given, found⟩ := addresses account
    rw [placed]
    exact (exactly _ account given found).mpr ⟨imported, logged, named⟩
  · rw [hasAccount_eq polkadotLawful given found] at has
    obtain ⟨seedHex, held⟩ := Option.isSome_iff_exists.mp has
    obtain ⟨named, other, seed, same, derives⟩ := run_derives hexLawful polkadotLawful built steps _ _ held
    obtain rfl := accountKey_injective same
    have core := derives
    obtain ⟨_, publicKey, derived, owner⟩ := derives
    exact ⟨seed, publicKey, derived, owner, fun digits payload read result =>
      signRaw_core lawful hexLawful polkadotLawful built given found held named core read result⟩

end Completeness

/-- Addresses are account ids in digits behind a `q`. -/
def tinyPolkadot : Polkadot where
  hexToU8a value := ((stripHexPrefix? value).bind HexText.decode).getD []
  u8aToHex bytes := '0' :: 'x' :: HexText.encode bytes
  blake2AsU8a bytes := bytes.take 32
  decodeAddress address := okOr ((address.head?.filter (· = 'q')).bind fun _ => HexText.decode address.tail) "Invalid prefix"
  encodeAddress accountId _ := 'q' :: HexText.encode accountId

theorem tinyPolkadot_lawful : tinyPolkadot.Lawful where
  hexToU8a_eq read := congrArg (Option.getD · []) read
  u8aToHex_eq _ := rfl

theorem tinyPolkadot_addresses (account : AccountId) : tinyPolkadot.encodeAddress account.val 42 ≠ [] ∧
    tinyPolkadot.decodeAddress (tinyPolkadot.encodeAddress account.val 42) = .ok account.val :=
  ⟨List.cons_ne_nil _ _, okOr_success.mpr (HexText.decode_encode account.val)⟩

def tinyConfig : Config := ⟨tinyPolkadot, wasmModule (zeroPrimitives srFn512) libraryHex, 42⟩

/-- One seed imported. -/
def tinySteps : List Step := [.importSeed [] ('0' :: 'x' :: HexText.encode tinySeed.val) none]

/-- The import is logged, and the account then signs a payload of two bytes. -/
theorem tinyRun : ∃ (imported : QuipSeedAccount) (address : List Char) (result : SignerResult),
    .imported imported ∈ (machine tinyConfig).trace fresh tinySteps ∧
      (signRaw tinyConfig ((machine tinyConfig).run fresh tinySteps) address
        ('0' :: 'x' :: HexText.encode [1, 2])).1 = .ok result := by
  obtain ⟨publicKey, pair, signed⟩ := zeroSigned srFn512 tinySeed [1, 2]
  have derived : publicKeyFromSeed (zeroPrimitives srFn512) tinySeed.val = .ok publicKey :=
    publicKeyFromSeed_success.mpr ⟨tinySeed, tinySeed, rfl, pair⟩
  have ran := importSeed_complete (T := tinyConfig) libraryHex_lawful tinyPolkadot_lawful rfl fresh [] none derived
  have derives : Derives (zeroPrimitives srFn512) ('0' :: 'x' :: HexText.encode tinySeed.val)
      (accountIdFromPublicBytes (zeroPrimitives srFn512) publicKey.val) tinySeed.val :=
    ⟨HexText.decode_encode tinySeed.val, publicKey, derived, rfl⟩
  have held : ((machine tinyConfig).run fresh tinySteps).seedsByAccountId.lookup
      (accountKey (accountIdFromPublicBytes (zeroPrimitives srFn512) publicKey.val)) =
        some ('0' :: 'x' :: HexText.encode tinySeed.val) := by
    simp only [machine, tinySteps, Machine.run, List.foldl_cons, List.foldl_nil, Step.run, ran]
    exact AList.lookup_insert _
  obtain ⟨given, found⟩ := tinyPolkadot_addresses (accountIdFromPublicBytes (zeroPrimitives srFn512) publicKey.val)
  have answered := signRaw_core (T := tinyConfig) (zeroPrimitives_lawful srFn512) libraryHex_lawful tinyPolkadot_lawful rfl
    given found held (List.cons_ne_nil _ _) derives (HexText.decode_encode [1, 2])
  obtain ⟨imported, logged, _⟩ := (run_imported tinySteps _).mp (by rw [held]; rfl)
  exact ⟨imported, _, _, logged, (answered _).mpr ⟨_, signed, rfl⟩⟩

theorem imported_accounts_can_sign_tiny : ∃ imported : QuipSeedAccount,
    DevSeedProvider.hasAccount tinyConfig ((machine tinyConfig).run fresh tinySteps) imported.address = true := by
  obtain ⟨imported, _, _, logged, _⟩ := tinyRun
  exact ⟨imported, (imported_accounts_can_sign (zeroPrimitives_lawful srFn512) libraryHex_lawful tinyPolkadot_lawful rfl
    tinyPolkadot_addresses tinySteps).1 imported logged⟩

end QuipValidator.QuipSigner
