import Mathlib.Order.Defs.LinearOrder
import DefiantHarness.DurableJson
import DefiantHarness.Foundation.Dict
import DefiantHarness.Foundation.JsonEquality
import DefiantHarness.Foundation.Proc

/-! Durable operator trust: key bindings, their signed additive rotation, and the state file. -/
namespace DefiantHarness

open Foundation

/-- Points in time: reading a text, which may be no timestamp or one without a zone, the text of the
current time, and the latest time that counts as not in the future. -/
structure WallClock (Instant : Type) [LinearOrder Instant] where
  parse : Points → Option (Option Instant)
  utcNow : Instant → String
  horizon : Instant → Instant
  utcNow_short : ∀ t, utcNow t ≠ "" ∧ (utcNow t).length ≤ 128
  parse_utcNow : ∀ t, parse (Points.ofString (utcNow t)) = some (some t)
  /-- At most one character of a timestamp lies outside ASCII. -/
  parse_unpaired : ∀ s t, parse s = some t → s.unpaired = true
  le_horizon : ∀ t, t ≤ horizon t
  horizon_mono : ∀ s t, s ≤ t → horizon s ≤ horizon t

namespace TrustState

def maxStateBytes : Nat := 1024 * 1024
def maxOperators : Nat := 256
def maxTransitions : Nat := 1024
def maxTrustedPublicKeys : Nat := 1024
def maxTrustedPublicKeyBytes : Nat := 64 * 1024
def maxTrustedPublicKeySetBytes : Nat := 8 * 1024 * 1024
def maxOperatorChars : Nat := 256
def maxNoteChars : Nat := 4096

def trustError (message : String) : HarnessError := ⟨.operatorIdentity, message⟩

/-! ### Texts -/

def stripLeft (s : Points) : Points := s.dropWhile blankPoint

def strip (s : Points) : Points := (stripLeft (stripLeft s).reverse).reverse

def asciiPoints (s : Points) : Bool := s.all fun c => c.val < 0x80

/-- `hmac.compare_digest` on texts, which raises outside ASCII. -/
def compareDigest (s t : Points) : Except HarnessError Bool := do
  refuseIf (asciiPoints s = false ∨ asciiPoints t = false)
    ⟨.value, "comparing strings with non-ASCII characters is not supported"⟩
  pure (s == t)

def isHash (s : Points) : Bool :=
  (Points.ofString "sha256:").isPrefixOf s && (s.drop 7).length == 64 &&
    (s.drop 7).all (Points.ofString "0123456789abcdef").contains

def textAt (name : String) (fields : List Field) : Option Points :=
  match fieldAt (Points.ofString name) fields with
  | some (.str s) => some s
  | _ => none

def intAt (name : String) (fields : List Field) : Option Int :=
  match fieldAt (Points.ofString name) fields with
  | some (.int i) => some i
  | _ => none

/-- The names of a dictionary, which are distinct, are exactly these. -/
def namesExactly (names : List String) (fields : List Field) : Bool :=
  (fields.map (·.1)).isPerm (names.map Points.ofString)

/-- `sorted(set(texts))` -/
def sortedSet (texts : List Points) : List Points := texts.dedup.insertionSort (· ≤ ·)

/-- `_bounded_text` -/
def boundedText (value : Option Data) (field : String) (maximum : Nat) : Except HarnessError Points :=
  match value with
  | some (.str s) => do
    refuseIf (s.all blankPoint = true) (trustError (field ++ " must be non-empty text"))
    refuseIf (maximum < s.length)
      (trustError (field ++ " exceeds " ++ toString maximum ++ " characters"))
    pure s
  | _ => throw (trustError (field ++ " must be non-empty text"))

def sextets : Points :=
  Points.ofString "ABCDEFGHIJKLMNOPQRSTUVWXYZabcdefghijklmnopqrstuvwxyz0123456789+/"

def sextet (c : CodePoint) : Option Nat := sextets.findIdx? (· == c)

/-- Strict base64; only the last group is padded. -/
def base64Bytes : Points → Option (List Nat)
  | [] => some []
  | a :: b :: c :: d :: rest => do
    let i ← sextet a
    let j ← sextet b
    -- padding may stand only at the end
    if [c, d] = Points.ofString "==" ∧ rest = [] then pure [i * 4 + j / 16]
    else do
      let k ← sextet c
      if [d] = Points.ofString "=" ∧ rest = [] then pure [i * 4 + j / 16, j % 16 * 16 + k / 4]
      else do
        let l ← sextet d
        let bytes ← base64Bytes rest
        pure ([i * 4 + j / 16, j % 16 * 16 + k / 4, k % 4 * 64 + l] ++ bytes)
  | _ => none

/-- `_decode_signature` -/
def decodeSignature (value : Points) : Except HarnessError (List Nat) := do
  refuseIf ((Points.ofString "base64:").isPrefixOf value = false)
    (trustError "operator signature encoding is invalid")
  let signature ← orRefuse (base64Bytes (value.drop 7))
    (trustError "operator signature encoding is invalid")
  refuseIf (signature.length ≠ 64) (trustError "Ed25519 signature must be 64 bytes")
  pure signature

/-! ### Bindings -/

/-- Operators and the identifiers of their keys, in the order they stand in. -/
abbrev Bindings := List (Points × List Points)

namespace Bindings

def toDict (b : Bindings) : Data := .obj (b.map fun e => (e.1, .arr (e.2.map .str)))

/-- `bindings.get(operator, [])` -/
def keysOf (b : Bindings) (operator : Points) : List Points :=
  ((b.find? (·.1 == operator)).map (·.2)).getD []

/-- A key is bound to an operator. -/
def Binds (b : Bindings) (operator keyId : Points) : Prop := ∃ e ∈ b, e.1 = operator ∧ keyId ∈ e.2

end Bindings

/-- `sha256_of` of a document. -/
def sha256Of (sha : TextHash) (x : Data) : Points := Points.ofString ("sha256:" ++ sha x.canonical)

/-- `_is_additive` -/
def isAdditive (current candidate : Bindings) : Bool :=
  current != candidate && current.all fun e =>
    candidate.any (·.1 == e.1) && e.2.all (candidate.keysOf e.1).contains

/-! ### Trusted keys -/

/-- Public keys with their raw bytes in hexadecimal, and the check of a signature. What verifies
under a key was signed with it. -/
structure SignatureScheme (Key : Type) where
  publicKey : Key → Points
  verifies : Key → List Nat → List Char → Bool
  signed : Key → List Char → Prop
  unforgeable : ∀ key signature message, verifies key signature message = true → signed key message

/-- An argument that names an operator and a key file, as the command line decodes it: no code point
is spelled as two surrogates. -/
structure TrustSpec where
  text : Points
  unpaired : text.unpaired = true

/-- A readable key file: its size, and the Ed25519 key in it, if there is one. -/
structure KeyFile (Key : Type) where
  size : Nat
  key : Option Key

/-- The keys of every operator by their identifiers. -/
structure OperatorTrustPolicy (Key : Type) where
  keys : Dict Points (Dict Points Key)

/-- What has been collected from the first arguments. -/
structure Collected (Key : Type) where
  keys : Dict Points (Dict Points Key)
  owners : Dict Points Points
  totalBytes : Nat

section Policy

variable {Key : Type} (sha : TextHash) (scheme : SignatureScheme Key)
  (readKey : Points → Option (KeyFile Key))

/-- `public_key_id` -/
def publicKeyId (key : Key) : Points := sha256Of sha (.obj [
  (Points.ofString "algorithm", .str (Points.ofString "Ed25519")),
  (Points.ofString "public_key", .str (scheme.publicKey key))])

def isSeparator (c : CodePoint) : Bool := c == CodePoint.ofChar '='

/-- One argument of `from_specs`. -/
def collect (collected : Collected Key) (spec : TrustSpec) : Except HarnessError (Collected Key) := do
  let operator := strip (spec.text.takeWhile (!isSeparator ·))
  let path := strip ((spec.text.dropWhile (!isSeparator ·)).drop 1)
  refuseIf (spec.text.any isSeparator = false ∨ operator = [] ∨ path = [])
    (trustError "trusted operator keys must use IDENTITY=PUBLIC_KEY.pem")
  let operator ← boundedText (some (.str operator)) "operator" maxOperatorChars
  let file ← orRefuse (readKey path) (trustError "cannot read public key")
  refuseIf (maxTrustedPublicKeyBytes < file.size) (trustError "public key file is too large")
  -- the set of files is bounded too, not only each file
  let totalBytes := collected.totalBytes + file.size
  refuseIf (maxTrustedPublicKeySetBytes < totalBytes) (trustError
    "trusted operator public key set exceeds fixed 8388608-byte ceiling")
  let key ← orRefuse file.key (trustError "cannot load operator public key")
  let keyId := publicKeyId sha scheme key
  -- one key may be named twice, but only for one operator
  refuseIf (∃ previous ∈ collected.owners.lookup keyId, previous ≠ operator)
    (trustError "trusted key is assigned to multiple operators")
  pure {
    keys := collected.keys.set operator
      (((collected.keys.lookup operator).getD ∅).set keyId key)
    owners := collected.owners.set keyId operator
    totalBytes }

def collectAll : Collected Key → List TrustSpec → Except HarnessError (Collected Key)
  | collected, [] => pure collected
  | collected, spec :: specs => do
    let collected ← collect sha scheme readKey collected spec
    collectAll collected specs

namespace OperatorTrustPolicy

def keyCount (keys : Dict Points (Dict Points Key)) : Nat :=
  (keys.entries.map fun e => e.2.entries.length).sum

/-- `OperatorTrustPolicy.from_specs` -/
def fromSpecs (specs : List TrustSpec) : Except HarnessError (OperatorTrustPolicy Key) := do
  refuseIf (maxTrustedPublicKeys < specs.length)
    (trustError "trusted operator key count exceeds fixed limit of 1024")
  let collected ← collectAll sha scheme readKey ⟨∅, ∅, 0⟩ specs
  refuseIf (collected.keys.entries = []) (trustError "at least one trusted operator key is required")
  refuseIf (maxTrustedPublicKeys < keyCount collected.keys)
    (trustError "trusted operator key count exceeds fixed limit of 1024")
  pure ⟨collected.keys⟩

def byOperator (e f : Points × List Points) : Prop := e.1 ≤ f.1

instance : DecidableRel byOperator := fun e f => inferInstanceAs (Decidable (e.1 ≤ f.1))

variable (policy : OperatorTrustPolicy Key)

def bindings : Bindings :=
  (policy.keys.entries.map fun e => (e.1, (e.2.entries.map (·.1)).insertionSort (· ≤ ·))).insertionSort
    byOperator

def bindingsHash : Points := sha256Of sha policy.bindings.toDict

def isAdditiveSuccessor (newer : OperatorTrustPolicy Key) : Bool :=
  isAdditive policy.bindings newer.bindings

def key? (operator keyId : Points) : Option Key :=
  policy.keys.lookup operator >>= fun keys => keys.lookup keyId

end OperatorTrustPolicy
end Policy

/-! ### Statements -/

def trustDomain : String := "Defiant Agent Harness operator trust transition v0.1.0\x00"

def attestationFields : List String := ["schema_name", "schema_version", "algorithm", "purpose",
  "key_id", "signed_at", "operator", "note", "from_generation", "to_generation",
  "from_bindings_hash", "to_bindings_hash", "signature"]

/-- What is signed: everything except the signature. -/
def statementBytes (attestation : List Field) : List Char :=
  trustDomain.toList ++
    (Data.obj (attestation.filter (·.1 != Points.ofString "signature"))).canonical

section Checks

variable {Instant : Type} [LinearOrder Instant] (clock : WallClock Instant) (now : Instant)

/-- A positive integer of a statement. -/
def positiveAt (name : String) (attestation : List Field) : Except HarnessError Int := do
  let value ← orRefuse (intAt name attestation) (trustError (name ++ " must be a positive integer"))
  refuseIf (value < 1) (trustError (name ++ " must be a positive integer"))
  pure value

def parsedTimestamp (value : Points) (field : String) : Except HarnessError Instant := do
  let parsed ← orRefuse (clock.parse value) (trustError (field ++ " must be an RFC3339 timestamp"))
  orRefuse parsed (trustError (field ++ " must include a timezone"))

/-- `_validate_trust_transition` -/
def validateTrustTransition (attestation : List Field) : Except HarnessError Unit := do
  let get (name : String) := fieldAt (Points.ofString name) attestation
  refuseIf (namesExactly attestationFields attestation = false)
    (trustError "trust transition fields do not match the schema")
  refuseIf (textAt "schema_name" attestation ≠ some (Points.ofString "defiant.operator.trust_transition"))
    (trustError "unsupported trust transition schema")
  refuseIf (textAt "schema_version" attestation ≠ some (Points.ofString "0.1.0"))
    (trustError "unsupported trust transition version")
  refuseIf (textAt "algorithm" attestation ≠ some (Points.ofString "Ed25519"))
    (trustError "unsupported trust transition algorithm")
  refuseIf (textAt "purpose" attestation ≠ some (Points.ofString "operator_trust_rotation"))
    (trustError "unsupported trust transition purpose")
  let keyId ← boundedText (get "key_id") "key_id" maxNoteChars
  let _ ← boundedText (get "operator") "operator" maxNoteChars
  let _ ← boundedText (get "note") "note" maxNoteChars
  let fromHash ← boundedText (get "from_bindings_hash") "from_bindings_hash" maxNoteChars
  let toHash ← boundedText (get "to_bindings_hash") "to_bindings_hash" maxNoteChars
  let signature ← boundedText (get "signature") "signature" maxNoteChars
  let fromGeneration ← positiveAt "from_generation" attestation
  let toGeneration ← positiveAt "to_generation" attestation
  -- a rotation may not skip a generation
  refuseIf (toGeneration ≠ fromGeneration + 1)
    (trustError "trust transition generation is not contiguous")
  refuseIf (isHash keyId = false) (trustError "trust transition key id is invalid")
  refuseIf (isHash fromHash = false ∨ isHash toHash = false)
    (trustError "trust transition binding hash is invalid")
  let signedAt ← boundedText (get "signed_at") "signed_at" 128
  let parsed ← parsedTimestamp clock signedAt "signed_at"
  refuseIf (clock.horizon now < parsed) (trustError "trust transition time is too far in the future")
  -- only the signature's form is read here; the key is not at hand
  let _ ← decodeSignature signature
  pure ()

def mismatch (field : String) : HarnessError :=
  trustError ("trust transition " ++ field ++ " does not match the requested rotation")

/-- A text of the statement is the expected one. -/
def requireText (name : String) (attestation : List Field) (expected : Points) :
    Except HarnessError Unit := do
  let same ← compareDigest ((textAt name attestation).getD []) expected
  refuseIf (same = false) (mismatch name)

def untrusted (keyId operator : Points) : HarnessError :=
  trustError ("key " ++ keyId.toString ++ " is not trusted for operator " ++ operator.repr)

/-- `require_trust_transition` -/
def OperatorTrustPolicy.requireTrustTransition {Key : Type} (scheme : SignatureScheme Key)
    (policy : OperatorTrustPolicy Key) (attestation : List Field) (fromGeneration : Nat)
    (fromBindingsHash toBindingsHash operator note : Points) : Except HarnessError Unit := do
  validateTrustTransition clock now attestation
  refuseIf (intAt "from_generation" attestation ≠ some (fromGeneration : Int))
    (mismatch "from_generation")
  refuseIf (intAt "to_generation" attestation ≠ some (fromGeneration + 1 : Int))
    (mismatch "to_generation")
  requireText "from_bindings_hash" attestation fromBindingsHash
  requireText "to_bindings_hash" attestation toBindingsHash
  requireText "operator" attestation (strip operator)
  requireText "note" attestation (strip note)
  let key ← orRefuse (policy.key? (strip operator) ((textAt "key_id" attestation).getD []))
    (untrusted ((textAt "key_id" attestation).getD []) (strip operator))
  let signature ← decodeSignature ((textAt "signature" attestation).getD [])
  refuseIf (scheme.verifies key signature (statementBytes attestation) = false)
    (trustError "trust transition signature is invalid")

/-! ### The state document -/

structure TrustTransition where
  attestation : List Field
  bindings : Bindings

structure OperatorTrustState where
  generation : Nat
  enrolledAt : Points
  updatedAt : Points
  initialBindings : Bindings
  initialBindingsHash : Points
  bindings : Bindings
  bindingsHash : Points
  transitions : List TrustTransition

def stateFields : List String := ["schema_name", "schema_version", "mode", "generation",
  "enrolled_at", "updated_at", "initial_bindings", "initial_bindings_hash", "bindings",
  "bindings_hash", "transitions"]

def transitionFields : List String := ["attestation", "bindings"]

def trustStateSchema : String := "defiant.operator.trust_state"
def trustStateVersion : String := "0.1.0"
def signedRequired : String := "signed_required"

def record (fields : List (String × Data)) : List Field :=
  fields.map fun f => (Points.ofString f.1, f.2)

def textData (s : String) : Data := .str (Points.ofString s)

def TrustTransition.toDict (t : TrustTransition) : Data := .obj (record [
  ("attestation", .obj t.attestation), ("bindings", t.bindings.toDict)])

namespace OperatorTrustState

def fields (s : OperatorTrustState) : List Field := record [
  ("schema_name", textData trustStateSchema), ("schema_version", textData trustStateVersion),
  ("mode", textData signedRequired), ("generation", .int s.generation),
  ("enrolled_at", .str s.enrolledAt), ("updated_at", .str s.updatedAt),
  ("initial_bindings", s.initialBindings.toDict),
  ("initial_bindings_hash", .str s.initialBindingsHash), ("bindings", s.bindings.toDict),
  ("bindings_hash", .str s.bindingsHash),
  ("transitions", .arr (s.transitions.map TrustTransition.toDict))]

def toDict (s : OperatorTrustState) : Data := .obj s.fields

/-- The bindings of every generation, the first one first. -/
def generations (s : OperatorTrustState) : List Bindings :=
  s.initialBindings :: s.transitions.map (·.bindings)

end OperatorTrustState

/-- `_timestamp` -/
def timestamp (value : Option Data) (field : String) : Except HarnessError Instant :=
  match value with
  | some (.str s) => do
    refuseIf (s = [] ∨ 128 < s.length) (trustError (field ++ " must be a timestamp"))
    let parsed ← orRefuse (clock.parse s) (trustError (field ++ " is not a valid timestamp"))
    let parsed ← orRefuse parsed (trustError (field ++ " must include a timezone"))
    refuseIf (clock.horizon now < parsed) (trustError (field ++ " is too far in the future"))
    pure parsed
  | _ => throw (trustError (field ++ " must be a timestamp"))

/-- `_hash` -/
def hash (value : Option Data) (field : String) : Except HarnessError Points :=
  match value with
  | some (.str s) => do
    refuseIf (isHash s = false) (trustError (field ++ " is not a sha256 identifier"))
    pure s
  | _ => throw (trustError (field ++ " is not a sha256 identifier"))

def keyIdOf : Data → Option Points
  | .str s => if isHash s then some s else none
  | _ => none

/-- The key set of one operator. -/
def keySet (value : Data) (field : String) : Except HarnessError (List Points) :=
  match value with
  | .arr (x :: xs) => do
    let keyIds ← orRefuse ((x :: xs).mapM keyIdOf) (trustError (field ++ " contains an invalid key id"))
    refuseIf (sortedSet keyIds ≠ keyIds)
      (trustError (field ++ " key ids must be sorted and unique"))
    pure keyIds
  | _ => throw (trustError (field ++ " contains an empty key set"))

/-- The operators from a count of keys on. -/
def operatorEntries (field : String) : Nat → List Field → Except HarnessError Bindings
  | _, [] => pure []
  | keyCount, (operator, keyIds) :: rest => do
    refuseIf (operator.all blankPoint = true ∨ operator ≠ strip operator ∨
        maxOperatorChars < operator.length)
      (trustError (field ++ " contains an invalid operator"))
    let keyIds ← keySet keyIds field
    -- the count runs over all operators
    refuseIf (maxTrustedPublicKeys < keyCount + keyIds.length)
      (trustError (field ++ " key limit exceeded"))
    let entries ← operatorEntries field (keyCount + keyIds.length) rest
    pure ((operator, keyIds) :: entries)

/-- `_bindings` -/
def checkBindings (value : Option Data) (field : String) : Except HarnessError Bindings :=
  match value with
  | some (.obj (f :: fs)) => do
    refuseIf (maxOperators < (f :: fs).length) (trustError (field ++ " operator limit exceeded"))
    let normalized ← operatorEntries field 0 (f :: fs)
    refuseIf (sortedSet (normalized.map (·.1)) ≠ normalized.map (·.1))
      (trustError (field ++ " operators must be sorted"))
    pure normalized
  | _ => throw (trustError (field ++ " must be a non-empty object"))

section States

variable (sha : TextHash) (chunking : Chunking)

/-- `_trust_state_snapshot`; the snapshot of decoded JSON is the document itself. -/
def trustStateSnapshot (raw : Data) : Except HarnessError (List Field) := do
  let _ ← (authoritySnapshotAndSha256Of sha chunking (.ofData raw) (some maxStateBytes)).mapError
    fun _ => trustError "operator trust exceeds bounded canonical state contract"
  match raw with
  | .obj fields => pure fields
  | _ => throw (trustError "operator trust state must be an object")

def attestationOf (index : Nat) (raw : Data) : Except HarnessError (List Field × Option Data) :=
  match raw with
  | .obj fields => do
    refuseIf (namesExactly transitionFields fields = false)
      (trustError ("operator trust transition " ++ toString index ++ " has invalid fields"))
    match fieldAt (Points.ofString "attestation") fields with
    | some (.obj attestation) => pure (attestation, fieldAt (Points.ofString "bindings") fields)
    | _ => throw (trustError ("operator trust transition " ++ toString index ++ " has no attestation"))
  | _ => throw (trustError ("operator trust transition " ++ toString index ++ " has invalid fields"))

/-- One transition after the bindings, the hash and the time of its predecessor; its time is the
second component. -/
def checkTransition (index : Nat) (previous : Bindings) (previousHash : Points)
    (previousTime : Instant) (raw : Data) : Except HarnessError (TrustTransition × Instant) := do
  let label := "operator trust transition " ++ toString index
  let (attestation, bindings) ← attestationOf index raw
  let candidate ← checkBindings bindings ("transition " ++ toString index ++ " bindings")
  -- no step of the chain removes a key or gives it away
  refuseIf (isAdditive previous candidate = false) (trustError (label ++ " is not strictly additive"))
  let isNumber (name : String) (expected : Nat) : Bool :=
    (fieldAt (Points.ofString name) attestation).any (Data.equals · (.int expected))
  refuseIf (isNumber "from_generation" index = false ∨ isNumber "to_generation" (index + 1) = false)
    (trustError (label ++ " generation is not contiguous"))
  refuseIf (textAt "from_bindings_hash" attestation ≠ some previousHash ∨
      textAt "to_bindings_hash" attestation ≠ some (sha256Of sha candidate.toDict))
    (trustError (label ++ " does not bind its mappings"))
  let signedAt ← timestamp clock now (fieldAt (Points.ofString "signed_at") attestation)
    ("transition " ++ toString index ++ " signed_at")
  -- signing times do not go back along the chain
  refuseIf (signedAt < previousTime) (trustError (label ++ " predates its predecessor"))
  pure (⟨attestation, candidate⟩, signedAt)

/-- Transitions from a generation on: what they normalize to, with the last bindings, hash and time. -/
def checkTransitions (index : Nat) (previous : Bindings) (previousHash : Points)
    (previousTime : Instant) :
    List Data → Except HarnessError (List TrustTransition × Bindings × Points × Instant)
  | [] => pure ([], previous, previousHash, previousTime)
  | raw :: rest => do
    let (t, signedAt) ← checkTransition clock now sha index previous previousHash previousTime raw
    let (ts, last) ← checkTransitions (index + 1) t.bindings (sha256Of sha t.bindings.toDict) signedAt rest
    pure (t :: ts, last)

namespace OperatorTrustState

/-- `OperatorTrustState.from_dict` -/
def fromDict (raw : Data) : Except HarnessError OperatorTrustState := do
  let fields ← trustStateSnapshot sha chunking raw
  let get (name : String) := fieldAt (Points.ofString name) fields
  refuseIf (namesExactly stateFields fields = false)
    (trustError "operator trust state fields do not match the schema")
  refuseIf (textAt "schema_name" fields ≠ some (Points.ofString trustStateSchema))
    (trustError "unsupported operator trust state schema")
  refuseIf (textAt "schema_version" fields ≠ some (Points.ofString trustStateVersion))
    (trustError "unsupported operator trust state version")
  refuseIf (textAt "mode" fields ≠ some (Points.ofString signedRequired))
    (trustError "operator trust mode must be signed_required")
  let generation ← orRefuse (intAt "generation" fields)
    (trustError "operator trust generation must be a positive integer")
  refuseIf (generation < 1) (trustError "operator trust generation must be a positive integer")
  let enrolledAt ← timestamp clock now (get "enrolled_at") "enrolled_at"
  let updatedAt ← timestamp clock now (get "updated_at") "updated_at"
  refuseIf (updatedAt < enrolledAt) (trustError "operator trust updated_at precedes enrollment")
  let initial ← checkBindings (get "initial_bindings") "initial_bindings"
  let current ← checkBindings (get "bindings") "bindings"
  let initialHash ← hash (get "initial_bindings_hash") "initial_bindings_hash"
  let currentHash ← hash (get "bindings_hash") "bindings_hash"
  refuseIf (initialHash ≠ sha256Of sha initial.toDict)
    (trustError "initial operator bindings hash is invalid")
  refuseIf (currentHash ≠ sha256Of sha current.toDict)
    (trustError "current operator bindings hash is invalid")
  match get "transitions" with
  | some (.arr items) => do
    refuseIf (maxTransitions < items.length) (trustError "operator trust transition limit exceeded")
    refuseIf ((items.length : Int) ≠ generation - 1)
      (trustError "operator trust transition count does not match its generation")
    let (transitions, lastBindings, lastHash, lastTime) ←
      checkTransitions clock now sha 1 initial initialHash enrolledAt items
    refuseIf (lastBindings ≠ current ∨ lastHash ≠ currentHash)
      (trustError "operator trust transition chain does not reach current bindings")
    -- without transitions the last time is the time of enrollment
    refuseIf (updatedAt ≠ lastTime) (trustError (if items.isEmpty
      then "initial operator trust timestamps do not match"
      else "operator trust updated_at does not match its latest transition"))
    pure {
      generation := generation.toNat
      enrolledAt := (textAt "enrolled_at" fields).getD []
      updatedAt := (textAt "updated_at" fields).getD []
      initialBindings := initial
      initialBindingsHash := initialHash
      bindings := current
      bindingsHash := currentHash
      transitions }
  | _ => throw (trustError "operator trust transitions must be a list")

end OperatorTrustState

variable {Key : Type} (scheme : SignatureScheme Key)

/-- The signer of a transition holds a key of the previous generation, and the transition is
verified under the configured keys. -/
def verifyTransition (policy : OperatorTrustPolicy Key) (index : Nat) (previous : Bindings)
    (previousHash : Points) (t : TrustTransition) : Except HarnessError Unit := do
  let unsigned := trustError ("operator trust transition " ++ toString index ++
    " was not signed by a prior key")
  let operator ← orRefuse (textAt "operator" t.attestation) unsigned
  let keyId ← orRefuse (textAt "key_id" t.attestation) unsigned
  refuseIf ((previous.keysOf operator).contains keyId = false) unsigned
  -- a note that is no text is refused by the schema
  policy.requireTrustTransition clock now scheme t.attestation index previousHash
    (sha256Of sha t.bindings.toDict) operator ((textAt "note" t.attestation).getD [])

def verifyTransitions (policy : OperatorTrustPolicy Key) (index : Nat) (previous : Bindings)
    (previousHash : Points) : List TrustTransition → Except HarnessError Unit
  | [] => pure ()
  | t :: ts => do
    verifyTransition clock now sha scheme policy index previous previousHash t
    verifyTransitions policy (index + 1) t.bindings (sha256Of sha t.bindings.toDict) ts

namespace OperatorTrustState

/-- `OperatorTrustState.verify` -/
def verify (s : OperatorTrustState) (policy : OperatorTrustPolicy Key) : Except HarnessError Unit := do
  refuseIf (policy.bindings ≠ s.bindings) (trustError
    "configured operator trust does not match durable enrollment; use an explicit signed additive rotation")
  verifyTransitions clock now sha scheme policy 1 s.initialBindings s.initialBindingsHash s.transitions

/-- `OperatorTrustState.enrolled`; its snapshot is taken again when it is written. -/
def enrolled (policy : OperatorTrustPolicy Key) : OperatorTrustState where
  generation := 1
  enrolledAt := Points.ofString (clock.utcNow now)
  updatedAt := Points.ofString (clock.utcNow now)
  initialBindings := policy.bindings
  initialBindingsHash := policy.bindingsHash sha
  bindings := policy.bindings
  bindingsHash := policy.bindingsHash sha
  transitions := []

end OperatorTrustState

/-! ### The store -/

def fileName : String := "operator_trust.json"

/-- The object in a state file. -/
def readState (text : List Char) : Except HarnessError Data := do
  refuseIf (maxStateBytes < utf8Length text)
    (persistenceError ("state file exceeds " ++ toString maxStateBytes ++ " bytes: " ++ fileName))
  let data ← (loadsStrictJson "state JSON" text).mapError fun message =>
    persistenceError ("cannot read valid JSON state from " ++ fileName ++ ": " ++ message)
  match data with
  | .obj fields => pure (.obj fields)
  | _ => throw (persistenceError ("state file must contain a JSON object: " ++ fileName))

/-- `OperatorTrustStateStore.get` -/
def get : Option (List Char) → Except HarnessError (Option OperatorTrustState)
  | none => pure none
  | some text => do
    let raw ← readState text
    let state ← OperatorTrustState.fromDict clock now sha chunking raw
    pure (some state)

/-- `_write_state`: the text that replaces the file. -/
def stateText (state : OperatorTrustState) : Except HarnessError (List Char) := do
  let candidate ← OperatorTrustState.fromDict clock now sha chunking state.toDict
  atomicWriteJson fileName maxStateBytes (.ofData candidate.toDict)

abbrev Store := Proc (Option (List Char)) HarnessError

variable (readKey : Points → Option (KeyFile Key))

/-- `resolve_for_authority`; the approvals of the directory may carry signatures that are older than
the enrollment. -/
def resolveForAuthority (specs : List TrustSpec) (legacySigned : Bool) :
    Store (Option (OperatorTrustPolicy Key)) := do
  let candidate ← Proc.lift (if specs = [] then pure none
    else (OperatorTrustPolicy.fromSpecs sha scheme readKey specs).map some)
  let file ← Proc.get
  let stored ← Proc.lift (get clock now sha chunking file)
  match stored, candidate with
  | none, none => do
    Proc.lift (refuseIf (legacySigned = true) (trustError
      "signed operator attestations predate durable enrollment; trusted operator keys are required to migrate this workdir"))
    pure none
  -- the first keys that are given are enrolled
  | none, some candidate => do
    let state := OperatorTrustState.enrolled clock now sha candidate
    let text ← Proc.lift (stateText clock now sha chunking state)
    Proc.set (some text)
    Proc.lift (state.verify clock now sha scheme candidate)
    pure (some candidate)
  -- keys that were enrolled once cannot be left away later
  | some _, none => Proc.raise (trustError
      "signed operator trust is durably enrolled; trusted operator keys are required for authority-bearing startup")
  | some state, some candidate => do
    Proc.lift (state.verify clock now sha scheme candidate)
    pure (some candidate)

namespace OperatorTrustState

/-- The state after a rotation. -/
def rotated (s : OperatorTrustState) (candidate : OperatorTrustPolicy Key) (attestation : List Field) :
    OperatorTrustState :=
  { s with
    generation := s.generation + 1
    updatedAt := (textAt "signed_at" attestation).getD []
    bindings := candidate.bindings
    bindingsHash := candidate.bindingsHash sha
    transitions := s.transitions ++ [⟨attestation, candidate.bindings⟩] }

/-- The last rotation had this statement and these keys. -/
def completed (s : OperatorTrustState) (candidate : OperatorTrustPolicy Key)
    (attestation : List Field) : Bool :=
  s.bindings == candidate.bindings &&
    s.transitions.getLast?.any fun t => Data.equals (.obj t.attestation) (.obj attestation)

/-- The checks of a rotation, and the state that it gives. -/
def successor (s : OperatorTrustState) (current candidate : OperatorTrustPolicy Key)
    (attestation : List Field) : Except HarnessError OperatorTrustState := do
  s.verify clock now sha scheme current
  refuseIf (current.isAdditiveSuccessor candidate = false) (trustError
    "online operator trust rotation must be strictly additive; key removal or reassignment requires offline compromise recovery")
  let unsigned := trustError
    "trust rotation requires a note and a signer from the current generation"
  let operator ← orRefuse (textAt "operator" attestation) unsigned
  let note ← orRefuse (textAt "note" attestation) unsigned
  let keyId ← orRefuse (textAt "key_id" attestation) unsigned
  -- the signer must hold a key of the generation that is replaced
  refuseIf (note.all blankPoint = true ∨ (s.bindings.keysOf operator).contains keyId = false) unsigned
  current.requireTrustTransition clock now scheme attestation s.generation s.bindingsHash
    (candidate.bindingsHash sha) operator note
  -- what is about to be written is read back first
  let updated ← fromDict clock now sha chunking (s.rotated sha candidate attestation).toDict
  updated.verify clock now sha scheme candidate
  pure updated

end OperatorTrustState

/-- `OperatorTrustStateStore.rotate` -/
def rotate (current candidate : OperatorTrustPolicy Key) (attestation : List Field) :
    Store OperatorTrustState := do
  let file ← Proc.get
  let stored ← Proc.lift (get clock now sha chunking file)
  let state ← Proc.lift (orRefuse stored (trustError
    "operator trust is not enrolled; start once with trusted keys"))
  -- a repeated rotation answers from the file
  if state.completed candidate attestation then do
    Proc.lift (state.verify clock now sha scheme candidate)
    pure state
  else do
    let updated ← Proc.lift (state.successor clock now sha chunking scheme current candidate attestation)
    let text ← Proc.lift (stateText clock now sha chunking updated)
    Proc.set (some text)
    pure updated

end States
end Checks
end TrustState
end DefiantHarness
