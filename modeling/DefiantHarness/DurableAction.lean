import DefiantHarness.ActionHash
import DefiantHarness.Contracts

/-! An action with the Python values that it carries: its fingerprints and its durable form. -/
namespace DefiantHarness

open Foundation

def Trust.text : Trust → String
  | .trusted => "trusted"
  | .untrusted => "untrusted"
  | .derived => "derived"

def SideEffect.text : SideEffect → String
  | .none => "none"
  | .localWrite => "local_write"
  | .externalSend => "external_send"
  | .externalPublish => "external_publish"
  | .spend => "spend"
  | .destructive => "destructive"

/-- The member of an enumeration that has a text as its value. -/
def memberOf? (members : List α) (text : α → String) (s : Points) : Option α :=
  members.find? fun m => Points.ofString (text m) == s

def Trust.ofText? : Points → Option Trust := memberOf? [.trusted, .untrusted, .derived] Trust.text

def SideEffect.ofText? : Points → Option SideEffect :=
  memberOf? [.none, .localWrite, .externalSend, .externalPublish, .spend, .destructive]
    SideEffect.text

/-- Whitespace among the code points; surrogates are none. -/
def blankPoint (c : CodePoint) : Bool := isSpace (Char.ofNat c.val)

/-- The content of a string, also of a string that is a member of an enumeration. -/
def Value.text? : Value → Option Points
  | .str s => some s
  | .member true v => v.text?
  | _ => none

/-- Strings lose their subclass, other values stay. -/
def Value.plainText (v : Value) : Value :=
  match v.text? with
  | some s => .str s
  | none => v

namespace Durable

def invalid (message : String) : HarnessError := ⟨.value, message⟩

def requireText (value : Value) (fieldName : String) : Except HarnessError Points := do
  let text ← orRefuse value.text? (invalid (fieldName ++ " must be a non-empty string"))
  refuseIf (text.all blankPoint = true) (invalid (fieldName ++ " must be a non-empty string"))
  pure text

def maxProvenanceRefs : Nat := 100000
def maxProvenanceTextItemCharacters : Nat := 8192
def maxProvenanceTextCharacters : Nat := 8 * 1024 * 1024

def requireProvenanceText (value : Value) (fieldName : String) : Except HarnessError Points := do
  let text ← orRefuse value.text? (invalid (fieldName ++ " must be a string"))
  refuseIf (maxProvenanceTextItemCharacters < text.length)
    (invalid ("provenance metadata item exceeds maximum of " ++
      toString maxProvenanceTextItemCharacters ++ " characters"))
  pure text

/-- A dictionary whose keys are field names. -/
def record (fields : List (String × Value)) : List Entry :=
  fields.map fun (name, v) => (.str (Points.ofString name), v)

/-- The value under a field name. -/
def lookup (name : String) : List Entry → Option Value
  | [] => none
  | (.str k, v) :: es => if k = Points.ofString name then some v else lookup name es
  | _ :: es => lookup name es

structure ContentRef where
  refId : Points
  origin : Points
  trust : Trust
  contentHash : Points
  label : Points
deriving DecidableEq

namespace ContentRef

/-- The constructor: three fields must not be blank, all are bounded. -/
def make (refId origin trust contentHash label : Value) : Except HarnessError ContentRef := do
  let refId ← requireText refId "ref_id"
  let origin ← requireText origin "origin"
  let contentHash ← requireText contentHash "content_hash"
  -- visible text first, then its length
  let refId ← requireProvenanceText (.str refId) "ref_id"
  let origin ← requireProvenanceText (.str origin) "origin"
  let contentHash ← requireProvenanceText (.str contentHash) "content_hash"
  let label ← requireProvenanceText label "label"
  let trust ← orRefuse (trust.text? >>= Trust.ofText?) (invalid "not a valid Trust")
  pure ⟨refId, origin, trust, contentHash, label⟩

/-- `asdict` of a reference. -/
def asDict (r : ContentRef) : Value := .dict (record [
  ("ref_id", .str r.refId), ("origin", .str r.origin),
  ("trust", .member true (.str (Points.ofString r.trust.text))),
  ("content_hash", .str r.contentHash), ("label", .str r.label)])

def fromDict : Value → Except HarnessError ContentRef
  | .dict ref => do
    let refId ← orRefuse (lookup "ref_id" ref) (invalid "ref_id")
    let origin ← orRefuse (lookup "origin" ref) (invalid "origin")
    let trust ← orRefuse (lookup "trust" ref) (invalid "trust")
    let contentHash ← orRefuse (lookup "content_hash" ref) (invalid "content_hash")
    make refId origin trust contentHash ((lookup "label" ref).getD (.str []))
  | _ => throw (invalid "reference must be an object")

/-- The texts that count towards the volume of the provenance. -/
def texts (r : ContentRef) : List Points := [r.refId, r.origin, r.contentHash, r.label]

end ContentRef

def worstTrust (refs : List ContentRef) : Trust :=
  if refs = [] then .derived
  else if refs.any (·.trust == .untrusted) then .untrusted
  else if refs.any (·.trust == .derived) then .derived
  else .trusted

/-- Timestamps: reading an aware one in UTC, and the text that it is stored as. -/
structure Timestamps where
  Instant : Type
  read : Points → Option Instant
  write : Instant → Points
  read_write : ∀ t, read (write t) = some t
  plain_write : ∀ t, (write t).plain = true

def utcTimestamp (timestamps : Timestamps) (value : Value) (fieldName : String) :
    Except HarnessError Points := do
  let text ← orRefuse value.text? (invalid (fieldName ++ " must be an RFC3339 timestamp"))
  refuseIf (text = []) (invalid (fieldName ++ " must be an RFC3339 timestamp"))
  let parsed ← orRefuse (timestamps.read text)
    (invalid (fieldName ++ " must be an RFC3339 timestamp"))
  pure (timestamps.write parsed)

/-- What the agent wants to do; the request and the reason may hold any value. -/
structure ProposedAction where
  toolName : Points
  target : Points
  payload : List Entry
  sideEffectLevel : SideEffect
  agentReason : Value
  actionId : Points
  requestId : Value
  payloadSources : List ContentRef
  estimatedCostUsd : Decimal
  createdAt : Points

def requireAggregateText (maximum : Nat) : Nat → List Points → Except HarnessError Unit
  | _, [] => pure ()
  | used, s :: ss => do
    refuseIf (maximum - used < s.length)
      (invalid ("action provenance text exceeds maximum of " ++ toString maximum ++ " characters"))
    requireAggregateText maximum (used + s.length) ss

namespace ProposedAction

/-- The checks of the constructor, which sealing repeats. -/
def validateContract (timestamps : Timestamps) (a : ProposedAction) :
    Except HarnessError ProposedAction := do
  let toolName ← requireText (.str a.toolName) "tool_name"
  let target ← requireText (.str a.target) "target"
  let actionId ← requireText (.str a.actionId) "action_id"
  refuseIf (maxProvenanceRefs < a.payloadSources.length)
    (invalid ("action payload provenance count exceeds maximum of " ++ toString maxProvenanceRefs))
  requireAggregateText maxProvenanceTextCharacters 0 (a.payloadSources.flatMap ContentRef.texts)
  let estimatedCostUsd ← money a.estimatedCostUsd "estimated_cost_usd"
  let createdAt ← utcTimestamp timestamps (.str a.createdAt) "created_at"
  pure { a with
    toolName, target, actionId, estimatedCostUsd, createdAt
    -- a text enumeration is stored as the text it is
    requestId := a.requestId.plainText
    agentReason := a.agentReason.plainText }

def authorizationSurface (a : ProposedAction) (payload : Value) : Value := .dict (record [
  ("action_id", .str a.actionId), ("request_id", a.requestId), ("tool_name", .str a.toolName),
  ("target", .str a.target), ("payload", payload),
  ("side_effect_level", .member true (.str (Points.ofString a.sideEffectLevel.text))),
  ("payload_sources", .list (a.payloadSources.map ContentRef.asDict)),
  ("estimated_cost_usd", .decimal a.estimatedCostUsd)])

end ProposedAction

/-- An action with its sealed fingerprints. -/
structure SealedAction where
  action : ProposedAction
  payloadHash : String
  authorizationHash : String

/-- The payload inside an authorization snapshot. -/
def sealedPayload : Value → Option (List Entry)
  | .dict entries =>
    match lookup "payload" entries with
    | some (.dict payload) => some payload
    | _ => none
  | _ => none

namespace ProposedAction

variable (sha : TextHash) (chunking : Chunking)

/-- Hash a validated action once; the payload becomes the snapshot that was hashed. -/
def sealFingerprints (a : ProposedAction) : Except HashFault SealedAction := do
  let (payload, payloadHash) ← actionSnapshotAndSha256Of sha chunking (.dict a.payload)
  let (snapshot, authorizationHash) ←
    actionSnapshotAndSha256Of sha chunking (a.authorizationSurface payload)
  let payload ← orRefuse (sealedPayload snapshot) notCanonical
  pure ⟨{ a with payload }, payloadHash, authorizationHash⟩

end ProposedAction

namespace SealedAction

/-- `asdict` of the action without its private fields. -/
def asDict (a : ProposedAction) : Value := .dict (record [
  ("tool_name", .str a.toolName), ("target", .str a.target), ("payload", .dict a.payload),
  ("side_effect_level", .member true (.str (Points.ofString a.sideEffectLevel.text))),
  ("agent_reason", a.agentReason), ("action_id", .str a.actionId), ("request_id", a.requestId),
  ("payload_sources", .list (a.payloadSources.map ContentRef.asDict)),
  ("estimated_cost_usd", .decimal a.estimatedCostUsd), ("created_at", .str a.createdAt)])

/-- The durable form: plain data, with the fingerprints and the worst trust. -/
def toDict (a : SealedAction) : Except HashFault Value := do
  let data ← (asDict a.action).enumSafe
  match data with
  | .dict entries => pure (.dict (entries ++ record [
      ("payload_hash", .str (Points.ofString a.payloadHash)),
      ("payload_trust", .str (Points.ofString (worstTrust a.action.payloadSources).text)),
      ("authorization_hash", .str (Points.ofString a.authorizationHash))]))
  | _ => throw notCanonical

end SealedAction

/-- An amount that a record holds: texts are read as decimals. -/
def amountOf : Value → Option Decimal
  | .decimal d => some d
  | .str s => PlainDecimal.read (String.ofList (s.map fun c => Char.ofNat c.val))
  | .int i => some ⟨decide (i < 0), i.natAbs, 0⟩
  | .float x => some ⟨x.numeral.negative, x.numeral.coefficient, x.numeral.scale⟩
  | .member true v => amountOf v
  | _ => none

namespace ProposedAction

def fieldNames : List String := ["tool_name", "target", "payload", "side_effect_level",
  "agent_reason", "action_id", "request_id", "payload_sources", "estimated_cost_usd", "created_at"]

def dropped : List String := ["payload_hash", "payload_trust", "authorization_hash"]

/-- A keyword that the constructor takes, or one that is dropped before it is called. -/
def expected : Value → Bool
  | .str k => (fieldNames ++ dropped).any fun name => Points.ofString name == k
  | _ => false

def sourcesOf : Option Value → Except HarnessError (List ContentRef)
  | none => pure []
  | some (.list items) => items.mapM ContentRef.fromDict
  | some (.tuple items) => items.mapM ContentRef.fromDict
  | some _ => throw (invalid "payload_sources must be a list")

def payloadOf : Option Value → Except HarnessError (List Entry)
  | some (.dict payload) => pure payload
  | _ => throw (invalid "payload must be a dictionary")

/-- Rebuild an action from its durable form; `fresh` and `now` fill in what may be missing. -/
def fromDict (timestamps : Timestamps) (fresh now : Points) (raw : List Entry) :
    Except HarnessError ProposedAction := do
  let level ← orRefuse (lookup "side_effect_level" raw) (invalid "side_effect_level")
  let sideEffectLevel ← orRefuse (level.text? >>= SideEffect.ofText?)
    (invalid "not a valid SideEffect")
  -- `from_dict` converts the level and the sources, the constructor does the rest
  let payloadSources ← sourcesOf (lookup "payload_sources" raw)
  refuseIf (raw.all (fun e => expected e.1) = false) (invalid "unexpected keyword argument")
  let toolName ← orRefuse (lookup "tool_name" raw) (invalid "tool_name")
  let target ← orRefuse (lookup "target" raw) (invalid "target")
  let payload ← orRefuse (lookup "payload" raw) (invalid "payload")
  let toolName ← requireText toolName "tool_name"
  let target ← requireText target "target"
  let actionId ← requireText ((lookup "action_id" raw).getD (.str fresh)) "action_id"
  let payload ← payloadOf (some payload)
  let estimatedCostUsd ← orRefuse (amountOf ((lookup "estimated_cost_usd" raw).getD (.decimal .zero)))
    (invalid "estimated_cost_usd must be a valid monetary number")
  let createdAt ← orRefuse ((lookup "created_at" raw).getD (.str now)).text?
    (invalid "created_at must be an RFC3339 timestamp")
  validateContract timestamps {
    toolName, target, payload, sideEffectLevel, payloadSources, estimatedCostUsd, actionId, createdAt
    agentReason := (lookup "agent_reason" raw).getD (.str [])
    requestId := (lookup "request_id" raw).getD (.str []) }

end ProposedAction
end Durable
end DefiantHarness
