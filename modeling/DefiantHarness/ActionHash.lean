import DefiantHarness.CanonicalJson
import DefiantHarness.Foundation.JsonWidth
import DefiantHarness.Foundation.Meter

/-! The bounded canonical snapshot that actions and authority records are hashed from. -/
namespace DefiantHarness

open Foundation

def maxActionHashNestingDepth : Nat := 64
def maxActionHashNodes : Nat := 1100000
def maxActionHashMappingEntries : Nat := 65536
def maxActionHashMappingSortWorkUnits : Nat := 64 * 1024 * 1024
def maxActionHashScalarCharacters : Nat := 8 * 1024 * 1024
def maxActionHashCanonicalBytes : Nat := 64 * 1024 * 1024

/-- Ceilings of one snapshot; the two byte ceilings may be lifted. -/
structure CanonicalSnapshotLimits where
  canonicalBytes : Ceiling
  mappingEntries : Nat
  mappingSortWorkUnits : Nat
  nestingDepth : Nat
  nodes : Nat
  numberCharacters : Nat
  scalarCharacters : Nat
  stringTokenBytes : Ceiling
deriving DecidableEq, Repr

/-- The fixed profile with both byte ceilings at `bytes`. -/
def snapshotLimits (bytes : Ceiling) : CanonicalSnapshotLimits where
  canonicalBytes := bytes
  mappingEntries := maxActionHashMappingEntries
  mappingSortWorkUnits := maxActionHashMappingSortWorkUnits
  nestingDepth := maxActionHashNestingDepth
  nodes := maxActionHashNodes
  numberCharacters := maxActionHashNumberCharacters
  scalarCharacters := maxActionHashScalarCharacters
  stringTokenBytes := bytes

@[simp] theorem snapshotLimits_numberCharacters (bytes : Ceiling) :
    (snapshotLimits bytes).numberCharacters = maxActionHashNumberCharacters := rfl

/-- What a traversal has claimed so far. -/
structure Usage where
  nodes : Nat
  canonicalBytes : Nat
  mappingSortWork : Nat
deriving DecidableEq, Repr

abbrev Traversal (α : Type) := StateT Usage (Except HashFault) α

def limitFault (enforced subject : String) (limit : Nat) (unit : String) : HashFault :=
  ⟨some enforced, subject ++ toString limit ++ unit⟩

def canonicalLimitFault (maximum : Nat) : HashFault :=
  limitFault "action_hash_canonical_bytes" "action canonical hash input exceeds maximum of "
    maximum " bytes"

def stringTokenFault (limit : Ceiling) : HashFault :=
  limitFault "action_hash_string_token_bytes"
    "action hash canonical string token exceeds maximum of " (limit.getD 0) " bytes"

def notCanonical : HashFault := ⟨none, "action hash input is not canonical JSON data"⟩

def nonFiniteNumber : HashFault := ⟨none, "action hash input contains a non-finite number"⟩

def unsupportedType : HashFault := ⟨none, "unsupported action hash value type"⟩

/-- Raise inside a traversal. -/
def checked (result : Except HashFault α) : Traversal α := fun s => result.map (·, s)

/-- Bytes that one code point takes inside a string token. -/
def characterWidth (c : CodePoint) : Nat :=
  if c.val ∈ [0x22, 0x5C, 0x08, 0x0C, 0x0A, 0x0D, 0x09] then 2
  else if 0x20 ≤ c.val ∧ c.val ≤ 0x7E then 1
  else if c.val ≤ 0xFFFF then 6
  else 12

def tokenLoop (maximum : Ceiling) : Nat → Points → Except HashFault Nat
  | used, [] => pure used
  | used, c :: cs => do
    refuseIf (maximum.admits (used + characterWidth c) = false) (stringTokenFault maximum)
    tokenLoop maximum (used + characterWidth c) cs

/-- Printable ASCII without quotes and backslashes is written verbatim. -/
def verbatim (s : Points) : Bool :=
  s.all fun c => 0x20 ≤ c.val && c.val ≤ 0x7E && c.val != 0x22 && c.val != 0x5C

def validateActionHashStringToken (value : Points) (maximum : Ceiling) : Except HashFault Nat := do
  refuseIf (maximum.admits 2 = false) (stringTokenFault maximum)
  if verbatim value then do
    refuseIf (maximum.admits (2 + value.length) = false) (stringTokenFault maximum)
    pure (2 + value.length)
  else tokenLoop maximum 2 value

def validateActionHashScalar (limits : CanonicalSnapshotLimits) (value : Points) :
    Except HashFault Nat := do
  refuseIf (limits.scalarCharacters < value.length)
    (limitFault "action_hash_scalar_characters" "action hash scalar exceeds maximum of "
      limits.scalarCharacters " characters")
  validateActionHashStringToken value limits.stringTokenBytes

def validateActionHashInteger (value : Int) (maximum : Nat) : Except HashFault Nat := do
  let signCharacters := if value < 0 then 1 else 0
  let allowedDigits := maximum - signCharacters
  refuseIf (allowedDigits = 0) (numberFault maximum)
  refuseIf (10 ^ allowedDigits ≤ value.natAbs) (numberFault maximum)
  pure (Numeral.ofInt value).chars.length

def validateActionHashNumberText (value : List Char) (maximum : Nat) : Except HashFault Unit :=
  refuseIf (maximum < value.length) (numberFault maximum)

section Traversal

variable (limits : CanonicalSnapshotLimits)

def claimNode (depth : Nat) : Traversal Unit := fun s => do
  refuseIf (limits.nestingDepth < depth)
    (limitFault "action_hash_nesting_depth" "action hash input exceeds maximum nesting depth of "
      limits.nestingDepth "")
  refuseIf (limits.nodes < s.nodes + 1)
    (limitFault "action_hash_nodes" "action hash input exceeds maximum node count of "
      limits.nodes "")
  pure ((), { s with nodes := s.nodes + 1 })

def consume (width : Nat) : Traversal Unit := fun s => do
  refuseIf (limits.canonicalBytes.admits (s.canonicalBytes + width) = false)
    (canonicalLimitFault maxActionHashCanonicalBytes)
  pure ((), { s with canonicalBytes := s.canonicalBytes + width })

def consumeMappingSortWork (width rounds : Nat) : Traversal Unit := fun s =>
  if rounds = 0 then pure ((), s)
  else do
    refuseIf ((limits.mappingSortWorkUnits - s.mappingSortWork) / rounds < width)
      (limitFault "action_hash_mapping_sort_work_units"
        "action hash mapping sort work exceeds maximum of " limits.mappingSortWorkUnits " units")
    pure ((), { s with mappingSortWork := s.mappingSortWork + width * rounds })

def validateEntryCount (entryCount : Nat) : Except HashFault Unit :=
  refuseIf (limits.mappingEntries < entryCount)
    (limitFault "action_hash_mapping_entries" "action hash mapping exceeds maximum entry count of "
      limits.mappingEntries "")

/-- The family that `isinstance` finds for a key before any conversion. -/
def Value.family? : Value → Option KeyFamily
  | .str _ => some .string
  | .bool _ => some .number
  | .int _ => some .number
  | .float _ => some .number
  | .nonFinite => some .number
  | .null => some .null
  | .member true v => v.family?
  | _ => none

def validateMappingKeyFamilies (keys : List Value) : Except HashFault Unit := do
  checkAll (fun key => refuseIf (key.family? = none) notCanonical) keys
  match keys with
  | [] => pure ()
  | key :: rest => refuseIf (rest.any (·.family? != key.family?) = true) notCanonical

def visitKey (depth : Nat) : Value → Traversal (Key × Nat)
  | .member _ v => do
    claimNode limits depth
    visitKey depth v
  | .decimal d => do
    claimNode limits depth
    let text ← checked (boundedMoneyText limits.numberCharacters d)
    let width ← checked (validateActionHashStringToken (ofChars text) limits.stringTokenBytes)
    consume limits width
    pure (.str (ofChars text), width)
  | .str s => do
    claimNode limits depth
    let width ← checked (validateActionHashScalar limits s)
    consume limits width
    pure (.str s, width)
  -- a key is written between quotes, so it is two characters wider than its text
  | .bool b => do
    claimNode limits depth
    let width := if b then 6 else 7
    consume limits width
    pure (.bool b, width)
  | .null => do
    claimNode limits depth
    consume limits 6
    pure (.null, 6)
  | .int i => do
    claimNode limits depth
    let digits ← checked (validateActionHashInteger i limits.numberCharacters)
    consume limits (digits + 2)
    pure (.int i, digits + 2)
  | .nonFinite => do
    claimNode limits depth
    checked (.error nonFiniteNumber)
  | .float x => do
    claimNode limits depth
    checked (validateActionHashNumberText x.numeral.chars limits.numberCharacters)
    consume limits (x.numeral.chars.length + 2)
    pure (.float x, x.numeral.chars.length + 2)
  | _ => do
    claimNode limits depth
    checked (.error unsupportedType)

/-- The keys of a mapping, each with its share of the sort work and never twice. -/
def visitKeys (depth rounds : Nat) : List Key → List Value → Traversal (List Key)
  | _, [] => pure []
  | seen, k :: ks => do
    let (key, width) ← visitKey limits depth k
    consumeMappingSortWork limits width rounds
    checked (refuseIf (seen.any key.same = true) notCanonical)
    let keys ← visitKeys depth rounds (seen ++ [key]) ks
    pure (key :: keys)

/-- The number of rounds that sorting `n` entries is charged for. -/
def sortRounds (n : Nat) : Nat := if n ≤ 1 then 0 else Nat.log2 (n - 1) + 1

def Key.toValue : Key → Value
  | .null => .null
  | .bool b => .bool b
  | .int i => .int i
  | .float x => .float x
  | .str s => .str s

mutual

def visit (depth : Nat) : Value → Traversal Value
  | .member _ v => do
    claimNode limits depth
    visit depth v
  | .decimal d => do
    claimNode limits depth
    let text ← checked (boundedMoneyText limits.numberCharacters d)
    let width ← checked (validateActionHashStringToken (ofChars text) limits.stringTokenBytes)
    consume limits width
    pure (.str (ofChars text))
  | .str s => do
    claimNode limits depth
    let width ← checked (validateActionHashScalar limits s)
    consume limits width
    pure (.str s)
  | .bool b => do
    claimNode limits depth
    consume limits (if b then 4 else 5)
    pure (.bool b)
  | .null => do
    claimNode limits depth
    consume limits 4
    pure .null
  | .int i => do
    claimNode limits depth
    let digits ← checked (validateActionHashInteger i limits.numberCharacters)
    consume limits digits
    pure (.int i)
  | .nonFinite => do
    claimNode limits depth
    checked (.error nonFiniteNumber)
  | .float x => do
    claimNode limits depth
    checked (validateActionHashNumberText x.numeral.chars limits.numberCharacters)
    consume limits x.numeral.chars.length
    pure (.float x)
  | .dict entries => do
    claimNode limits depth
    checked (validateEntryCount limits entries.length)
    checked (validateMappingKeyFamilies (entries.map (·.1)))
    consume limits 2
    -- every key is checked before any value is touched
    let keys ← visitKeys limits (depth + 1) (sortRounds entries.length) [] (entries.map (·.1))
    let values ← visitValues (depth + 1) 0 entries
    pure (.dict (keys.map Key.toValue |>.zip values))
  | .list items => do
    claimNode limits depth
    consume limits 2
    let items ← visitItems (depth + 1) 0 items
    pure (.list items)
  | .tuple items => do
    claimNode limits depth
    consume limits 2
    let items ← visitItems (depth + 1) 0 items
    pure (.tuple items)
  | .foreign => do
    claimNode limits depth
    checked (.error unsupportedType)

/-- Items from position `index` on, each after its comma. -/
def visitItems (depth index : Nat) : List Value → Traversal (List Value)
  | [] => pure []
  | v :: vs => do
    consume limits (if index = 0 then 0 else 1)
    let v ← visit depth v
    let vs ← visitItems depth (index + 1) vs
    pure (v :: vs)

/-- Values from position `index` on, each after its comma and its colon. -/
def visitValues (depth index : Nat) : List Entry → Traversal (List Value)
  | [] => pure []
  | (_, v) :: es => do
    consume limits (if index = 0 then 0 else 1)
    consume limits 1
    let v ← visit depth v
    let vs ← visitValues depth (index + 1) es
    pure (v :: vs)

end

end Traversal

/-- Preflight a value and return its detached snapshot. -/
def validateActionHashStructure (limits : CanonicalSnapshotLimits) (v : Value) :
    Except HashFault Value := (visit limits 0 v ⟨0, 0, 0⟩).map (·.1)

/-- The length of `text.encode("utf-8")`. -/
def utf8Length (text : List Char) : Nat := (text.map Char.utf8Size).sum

/-- Feed the encoder's chunks to the digest while their bytes fit. -/
def streamChunks (maximum : Nat) : Nat → List (List Char) → Except HashFault Nat
  | encoded, [] => pure encoded
  | encoded, chunk :: chunks => do
    refuseIf (maximum - encoded < utf8Length chunk) (canonicalLimitFault maximum)
    streamChunks maximum (encoded + utf8Length chunk) chunks

/-- How the encoder cuts a text into chunks. -/
structure Chunking where
  cut : List Char → List (List Char)
  whole : ∀ text, (cut text).flatten = text

/-- The whole text as one chunk. -/
def Chunking.single : Chunking := ⟨fun text => [text], fun text => List.append_nil text⟩

/-- The text that the encoder with the hash fallback writes. -/
def encoded (v : Value) : Except HashFault (List Char) :=
  (v.dumps .actionHashDefault).map Data.text

/-- A ceiling is reported as such; every other error means that the input is not canonical. -/
def encoderFault (fault : HashFault) : HashFault :=
  if fault.limitEnforced.isSome then fault else notCanonical

/-- The text that is hashed for a snapshot. -/
def hashedText (chunking : Chunking) (snapshot : Value) (maximumCanonicalBytes : Nat) :
    Except HashFault (List Char) := do
  let text ← (encoded snapshot).mapError encoderFault
  let _ ← streamChunks maximumCanonicalBytes 0 (chunking.cut text)
  pure text

def actionSnapshotAndSha256Of (sha : TextHash) (chunking : Chunking) (v : Value) :
    Except HashFault (Value × String) := do
  let snapshot ← validateActionHashStructure (snapshotLimits (some maxActionHashCanonicalBytes)) v
  let text ← hashedText chunking snapshot maxActionHashCanonicalBytes
  pure (snapshot, "sha256:" ++ sha text)

def actionSha256Of (sha : TextHash) (chunking : Chunking) (v : Value) : Except HashFault String :=
  (actionSnapshotAndSha256Of sha chunking v).map (·.2)

/-- A ceiling on the canonical bytes of authority material. -/
def authoritySnapshotLimits : Option Nat → Except HashFault CanonicalSnapshotLimits
  | none => pure (snapshotLimits (some maxActionHashCanonicalBytes))
  | some n => do
    refuseIf (n < 1 ∨ maxActionHashCanonicalBytes < n)
      ⟨none, "authority snapshot byte ceiling is invalid"⟩
    pure (snapshotLimits (some n))

/-- Faults of authority material name no inner ceiling. -/
def authorityFault (fault : HashFault) : HashFault :=
  if fault.limitEnforced.isSome then ⟨none, "authority snapshot exceeds canonical limits"⟩
  else ⟨none, "authority snapshot must contain canonical data"⟩

def authoritySnapshotAndSha256Of (sha : TextHash) (chunking : Chunking) (v : Value)
    (maximumCanonicalBytes : Option Nat) : Except HashFault (Value × String) := do
  let limits ← authoritySnapshotLimits maximumCanonicalBytes
  (do
    let snapshot ← validateActionHashStructure limits v
    let text ← hashedText chunking snapshot (limits.canonicalBytes.getD maxActionHashCanonicalBytes)
    pure (snapshot, "sha256:" ++ sha text)).mapError authorityFault

end DefiantHarness
