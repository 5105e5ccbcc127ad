import DefiantHarness.Harness
import DefiantHarness.McpMethods
import DefiantHarness.McpRetry
import DefiantHarness.McpSession

/-! The proxy at the `tools/call` authority boundary: what it does with each line of its client. -/
namespace DefiantHarness

open Foundation
open TrustState (record textData)

/-! ### Documents and their fields -/

def object (fields : List (String × Data)) : Data := .obj (record fields)

/-- `dict.get` -/
def getField (name : String) (fields : List Field) : Data :=
  (fieldAt (.ofString name) fields).getD .null

def hasField (name : String) (fields : List Field) : Bool :=
  (fieldAt (.ofString name) fields).isSome

/-- Assign a key of a dictionary: in its place, or at the end. -/
def setField (name : String) (x : Data) (fields : List Field) : List Field :=
  if hasField name fields then
    fields.map fun f => if f.1 = .ofString name then (f.1, x) else f
  else fields ++ record [(name, x)]

/-- How the harness holds decoded documents and reads held ones back, and `str` of a document. -/
structure DocumentForms where
  payload : Data → Json
  document : Json → Data
  text : Points → String
  str : Data → Points

/-! ### The world of a proxy -/

/-- What a proxy sends: a line to the upstream, or a message to its client. -/
inductive Transmission where
  | forwarded (line : List Char)
  | emitted (message : Data)

structure ProxyWorld where
  world : World
  sent : List Transmission

abbrev Serving (α : Type) := Proc ProxyWorld HarnessError α

/-- What is the same for every line. `fails` says which transmissions raise. -/
structure ProxySite where
  control : Deployment
  sha : TextHash
  chunking : Chunking
  forms : DocumentForms
  validateUrl : Points → Except String Unit
  fails : List Transmission → Transmission → Option HarnessError

structure McpProxy (site : ProxySite) where
  harness : Harness
  methods : Option (McpMethodDispositions site.validateUrl)
  serverName : String
  serverFingerprint : String
  proxyFingerprint : String
  executionOwner : String
  userId : String
  workspaceId : String
  sensitivity : Sensitivity

namespace Serving

variable (site : ProxySite)

/-- A step of the control path. -/
def control {α : Type} (p : Control α) : Serving α := fun s =>
  let (answer, w) := p s.world
  (answer, { s with world := w })

/-- A transmission that raises may have been sent. -/
def send (transmission : Transmission) : Serving Unit := fun s =>
  (match site.fails s.sent transmission with
    | none => .ok ()
    | some e => .error e, { s with sent := s.sent ++ [transmission] })

def emitMessage (message : Data) : Serving Unit := send site (.emitted message)

def forwardRaw (line : List Char) : Serving Unit := send site (.forwarded line)

/-- `except ApprovalError`: the text of one that was raised. -/
def attempt {α : Type} (p : Serving α) : Serving (Except String α) := fun s =>
  match p s with
  | (.ok a, t) => (.ok (.ok a), t)
  | (.error e, t) => if e.kind = .approval then (.ok (.error e.message), t) else (.error e, t)

end Serving

/-! ### Replies -/

def rpcError (requestId : Data) (code : Int) (message : String) : Data := object [
  ("jsonrpc", textData "2.0"), ("id", requestId),
  ("error", object [("code", .int code), ("message", textData message)])]

def validRequestId : Data → Bool
  | .int _ => true
  | .str value => 0 < value.length && value.length ≤ 256
  | _ => false

/-- The request capabilities are emptied, and only the reviewed revision is offered. -/
def boundedParams (params : List Field) : List Field :=
  setField "protocolVersion" (.str mcpProtocolVersion) (setField "capabilities" (.obj []) params)

def boundedInitialize (fields params : List Field) : List Char :=
  (Data.obj (setField "params" (.obj (boundedParams params)) fields)).render .compact 0 ++ ['\n']

namespace ResultStatus

def mcpText : ResultStatus → String
  | .succeeded => "succeeded"
  | .failed => "failed"
  | .blocked => "blocked"
  | .skipped => "skipped"
  | .pendingApproval => "pending_approval"
  | .expired => "expired"
  | .rejected => "rejected"
  | .notExecuted => "not_executed"

end ResultStatus

def retryAdvice : Data := textData "After approval, repeat this exact tools/call."

/-- `_metadata` -/
def outcomeMetadata (outcome : ActionOutcome) (executionKey : String) : List Field :=
  record ([("status", textData outcome.status.mcpText),
      ("evidence_record_id", textData outcome.evidenceRecordId),
      ("approval_id", textData outcome.approvalId)] ++
    if outcome.status = .pendingApproval then
      [("retry", retryAdvice), ("execution_key", textData executionKey)]
    else [])

def rpcReply (requestId : Data) (field : String) (body : List Field) : Data := object [
  ("jsonrpc", textData "2.0"), ("id", requestId), (field, .obj body)]

/-- `dict.update` -/
def updateFields (fields others : List Field) : List Field :=
  others.foldl (fun kept f => if kept.any (·.1 == f.1) then
    kept.map fun g => if g.1 = f.1 then f else g else kept ++ [f]) fields

section Outcomes

variable (forms : DocumentForms)

/-- The statuses under which the agent is told that its call was denied. -/
def deniedStatuses : List ResultStatus := [.blocked, .rejected, .expired, .failed, .notExecuted]

/-- `_as_text` -/
def asText : Data → Data
  | .str s => .str s
  | x => .str ((x.sorted.render (.indented 2) 0).map CodePoint.ofChar)

/-- `ActionOutcome.as_tool_outcome`, shaped by `ToolCallOutcome.as_mcp_result` -/
def mcpResult (outcome : ActionOutcome) : List Field :=
  -- a held action is an error for the client too, but not a denial
  let denied := deniedStatuses.contains outcome.status
  let content : Data :=
    if outcome.status = .pendingApproval then
      textData ("Action held for human approval (" ++ outcome.approvalId ++ "). Reason: " ++
        outcome.decision.reason)
    else if denied then textData ("Permission denied by policy: " ++ outcome.decision.reason)
    else match outcome.result with
      | some result => forms.document result.output
      | none => textData "ok"
  record [("isError", .bool (denied || outcome.status == .pendingApproval)),
    ("content", .arr [object [("type", textData "text"), ("text", asText content)]]),
    ("_defiant", object [("status", textData outcome.status.mcpText),
      ("evidence_record_id", textData outcome.evidenceRecordId),
      ("approval_id", textData outcome.approvalId)])]

/-- The upstream's error, with the harness's own account beside its data. -/
def upstreamError (error : Data) (metadata : List Field) : List Field :=
  let body := match error with
    | .obj fields => fields
    | other => record [("code", .int (-32000)), ("message", .str (forms.str other))]
  match getField "data" body with
  | .null => setField "data" (object [("_defiant", .obj metadata)]) body
  | data => setField "data" (object [("upstream", data), ("_defiant", .obj metadata)]) body

/-- The upstream's result; a field that it named like the harness's own is kept aside. -/
def upstreamResult (body metadata : List Field) : List Field :=
  let kept := match fieldAt (.ofString "_defiant") body with
    | some own => setField "_defiant_upstream" own body
    | none => body
  setField "_defiant" (.obj metadata) kept

def outcomeResponse (requestId : Data) (outcome : ActionOutcome) (executionKey : String) : Data :=
  let metadata := outcomeMetadata outcome executionKey
  let output := match outcome.result.map (forms.document ·.output) with
    | some (.obj fields) => fields
    | _ => []
  match fieldAt (.ofString "_defiant_mcp_error") output with
  -- an upstream error is passed on under its own code
  | some error => rpcReply requestId "error" (upstreamError forms error metadata)
  | none =>
    match fieldAt (.ofString "_defiant_mcp_result") output with
    -- an upstream result keeps its body, and gains the metadata
    | some (.obj body) => rpcReply requestId "result" (upstreamResult body metadata)
    | _ =>
      -- otherwise the harness answers in its own words
      let result := mcpResult forms outcome
      let own := match fieldAt (.ofString "_defiant") result with
        | some (.obj fields) => fields
        | _ => []
      rpcReply requestId "result" (setField "_defiant" (.obj (updateFields own metadata)) result)

end Outcomes

def approvalResponse (requestId : Data) (approvalId : String) (status : ResultStatus)
    (evidenceId executionKey detail : String) : Data :=
  let detail :=
    if detail ≠ "" then detail
    else if status = .pendingApproval then
      "Action held for human approval (" ++ approvalId ++
        "). After approval, repeat this exact tools/call."
    else "Action " ++ status.mcpText ++ " by human reviewer."
  rpcReply requestId "result" (record [
    ("isError", .bool true),
    ("content", .arr [object [("type", textData "text"), ("text", textData detail)]]),
    ("_defiant", object ([("status", textData status.mcpText),
        ("evidence_record_id", textData evidenceId), ("approval_id", textData approvalId)] ++
      if status = .pendingApproval then
        [("retry", retryAdvice), ("execution_key", textData executionKey)]
      else [("terminal", .bool true)]))])

/-! ### Messages -/

/-- Why a message is refused, and how its client is told. -/
structure Refusal where
  disposition : String
  reason : String
  code : Int := -32601
  kind : String := ""

def maxMcpMessageBytes : Nat := 10 * 1024 * 1024

/-- What a decoded message comes to. -/
inductive Verdict where
  | refused (refusal : Refusal) (response : Bool)
  | governed
  | forwarded (line : List Char)

def envelopeFields : List Points :=
  [.ofString "jsonrpc", .ofString "id", .ofString "method", .ofString "params"]

/-- A JSON-RPC request or notification in the one admitted form. -/
def admitsEnvelope (fields : List Field) : Bool :=
  (match getField "jsonrpc" fields with
    | .str version => version == .ofString "2.0"
    | _ => false) &&
  validMethodName (getField "method" fields) &&
  fields.all (fun f => envelopeFields.contains f.1) &&
  (match fieldAt (.ofString "id") fields with
    | some requestId => validRequestId requestId
    | none => true)

/-- The method of a message that names one. -/
def methodName (fields : List Field) : Points :=
  match getField "method" fields with
  | .str name => name
  | _ => []

def isObject : Data → Bool
  | .obj _ => true
  | _ => false

namespace McpProxy

variable {site : ProxySite} (proxy : McpProxy site)

/-! ### Tool requests -/

def identity : ProxyIdentity where
  server := .ofString proxy.serverName
  runner := .ofString proxy.harness.adapter.runnerName
  userId := .ofString proxy.userId
  workspaceId := .ofString proxy.workspaceId
  proxyFingerprint := .ofString proxy.proxyFingerprint

/-- The approval holds an action of the same parameters. -/
def holdsParams (authority : Data) (approval : PendingApproval) : Bool :=
  match approval.heldAction with
  | .ok action => (authorityParams (site.forms.document action.payload)).equals authority
  | .error _ => false

/-- `list_actionable` -/
def actionable (approvals : Approvals) (now : Timestamp) : List PendingApproval :=
  byCreation (approvals.values.filter fun approval => approval.status.active &&
    (approval.status == .executing || !approval.isExpired now))

/-- `list_pending` -/
def pendingOf (approvals : Approvals) (now : Timestamp) : List PendingApproval :=
  byCreation (approvals.values.filter fun approval =>
    approval.status == .pending && !approval.isExpired now)

/-- Recognize approvals created before progress tokens were normalized. -/
def findLegacyProgressExecution (approvals : Approvals) (authority : Data) (now : Timestamp) :
    Option PendingApproval :=
  firstMax (fun a b => priority a.status < priority b.status ||
      (priority a.status == priority b.status &&
        textOrder a.terms.createdAt < textOrder b.terms.createdAt))
    ((actionable approvals now).filter fun approval =>
      approval.terms.executionOwner == proxy.executionOwner &&
        @holdsParams site authority approval)

def latestEvidenceId (records : List EvidenceRecord) (actionId : String) : String :=
  (((EvidenceLog.byAction records actionId).getLast?).map (·.recordId)).getD ""

/-- Reject the other pending approvals of the same parameters. -/
def rejectDuplicatePending (authority : Data) (consumedApprovalId : String) : Control Unit := do
  let disk ← Control.disk
  let clock ← Control.now site.control
  -- same owner and same parameters up to the progress token
  let duplicates := (pendingOf disk.approvals (clock 0)).filter fun approval =>
    approval.approvalId != consumedApprovalId &&
      approval.terms.executionOwner == proxy.executionOwner &&
      @holdsParams site authority approval
  let _ ← Proc.each (fun approval => Harness.decideApproval site.control approval.approvalId false
    "defiant-dedup" "Superseded by an approved retry differing only by progressToken." none)
    duplicates
  pure ()

/-- Carry out an approved call that its client repeats. -/
def resumeExisting (requestId : Data) (approval : PendingApproval)
    (evidenceId executionKey : String) (authority : Data) : Serving Data := do
  let decidedBy := approval.decidedBy.getD ""
  let resumed ← Serving.attempt (Serving.control (proxy.harness.resume site.control
    approval.approvalId true (if decidedBy = "" then proxy.userId else decidedBy) approval.note none))
  match resumed with
  -- a refused resumption is an answer, not a failure of the proxy
  | .error message =>
    pure (approvalResponse requestId approval.approvalId .failed evidenceId executionKey message)
  | .ok outcome => do
    Serving.control (proxy.rejectDuplicatePending authority approval.approvalId)
    pure (outcomeResponse site.forms requestId outcome executionKey)

def handleExisting (requestId : Data) (approval : PendingApproval) (executionKey : String)
    (authority : Data) : Serving Data := do
  let disk ← Serving.control Control.disk
  let evidenceId := latestEvidenceId disk.records approval.actionId
  let respond := fun (status : ResultStatus) (detail : String) => (pure (approvalResponse requestId
    approval.approvalId status evidenceId executionKey detail) : Serving Data)
  match approval.status with
  | .pending => respond .pendingApproval ""
  | .rejected => respond .rejected ""
  -- a crash may have followed the tool's effect, so it is never repeated
  | .executing =>
    respond .failed "Prior execution outcome is uncertain; automatic replay refused."
  | _ => proxy.resumeExisting requestId approval evidenceId executionKey authority

/-- The approval that a call is a retry of. -/
def existingApproval (executionKey : String) (authority : Data) :
    Control (Option PendingApproval) := do
  let disk ← Control.disk
  let clock ← Control.now site.control
  match ApprovalStore.findExecution disk.approvals proxy.executionOwner executionKey (clock 0) with
  | some approval => pure (some approval)
  | none => do
    let later ← Control.now site.control
    pure (proxy.findLegacyProgressExecution disk.approvals authority (later 0))

/-- The request and the call that a new `tools/call` is put to the harness as. -/
def proposeCall (requestId : Data) (name : Points) (arguments authority : Data)
    (executionKey : String) : Control ActionOutcome := do
  let harnessRequestId ← Control.newId site.control "req"
  let clock ← Control.now site.control
  let request : HarnessRequest :=
    { task := "MCP tools/call " ++ proxy.serverName ++ ":" ++ site.forms.text name
      userId := proxy.userId
      workspaceId := proxy.workspaceId
      requestId := harnessRequestId
      taskType := "general"
      sensitivity := proxy.sensitivity
      -- the client cannot narrow or widen the tools: every registered one is allowed
      allowedTools := proxy.harness.tools.specs.map (·.name)
      budgetLimitUsd := none
      inputs := []
      createdAt := clock 0 }
  let call : ToolCall :=
    { name := site.forms.text name
      arguments := site.forms.payload arguments
      callId := site.forms.text (site.forms.str requestId)
      server := proxy.serverName
      transportParams := site.forms.payload authority }
  proxy.harness.handleCall site.control call request proxy.executionOwner executionKey

/-- Put the parameters of a `tools/call` to the harness. -/
def governCall (requestId : Data) (params : List Field) (name : Points) (arguments : Data) :
    Serving Data := do
  let authority := authorityParams (.obj params)
  let executionKey ← Proc.lift ((DefiantHarness.executionKey site.sha site.chunking proxy.identity
    authority).mapError fun fault => valueError fault.message)
  -- an approval that has lapsed must not answer for this call
  let _ ← Serving.control (proxy.harness.reconcileExpiredApprovals site.control)
  let existing ← Serving.control (proxy.existingApproval executionKey authority)
  match existing with
  | some approval => proxy.handleExisting requestId approval executionKey authority
  | none => do
    let outcome ← Serving.control
      (proxy.proposeCall requestId name arguments authority executionKey)
    pure (outcomeResponse site.forms requestId outcome executionKey)

@[irreducible] def handleToolRequest (fields : List Field) : Serving Data :=
  match fieldAt (.ofString "id") fields with
  | none => pure (rpcError .null (-32600) "tools/call must be a request, not a notification")
  | some requestId =>
    match getField "params" fields with
    | .obj params =>
      match getField "name" params with
      | .str (c :: cs) =>
        match (fieldAt (.ofString "arguments") params).getD (.obj []) with
        | .obj arguments => proxy.governCall requestId params (c :: cs) (.obj arguments)
        | _ => pure (rpcError requestId (-32602) "tools/call arguments must be an object")
      | _ => pure (rpcError requestId (-32602) "tools/call name must be non-empty")
    | _ => pure (rpcError requestId (-32602) "tools/call params must be an object")

/-! ### Refusals -/

/-- `sha256_of` -/
def documentHash (x : Data) : String := "sha256:" ++ site.sha x.canonical

/-- What the evidence of a refusal says about the message. -/
def refusalInputs (fields : List Field) (refusal : Refusal) : Json :=
  let method := getField "method" fields
  let kind :=
    if refusal.kind ≠ "" then refusal.kind
    else if hasField "id" fields then "request" else "notification"
  .obj [
    ("event_type", .str "mcp_method_refusal"), ("direction", .str "client_to_upstream"),
    ("message_kind", .str kind),
    ("method", .str (match method with
      -- an unreadable method name is not copied into the evidence
      | .str name => if validName name then site.forms.text name else "<invalid-or-absent>"
      | _ => "<invalid-or-absent>")),
    ("method_hash", .str (@documentHash site method)),
    ("rpc_id_hash", .str (match fieldAt (.ofString "id") fields with
      | some requestId => @documentHash site requestId
      | none => "")),
    ("server_name", .str proxy.serverName),
    ("server_fingerprint", .str proxy.serverFingerprint),
    ("proxy_fingerprint", .str proxy.proxyFingerprint),
    ("protocol_version", .str "2025-06-18"), ("disposition", .str refusal.disposition),
    ("forwarded", .bool false)]

/-- The evidence of a refused message: a protocol event, neither an action nor a grant. -/
def refusalRecord (fields : List Field) (line : List Char) (refusal : Refusal)
    (eventId recordId : String) (timestamp : Timestamp) : EvidenceRecord :=
  { requestId := eventId
    actionId := eventId
    decision := .block
    resultStatus := .blocked
    recordId := recordId
    timestamp := timestamp
    agentRunner := proxy.harness.adapter.runnerName
    modelId := proxy.harness.adapter.modelId
    userId := proxy.userId
    workspaceId := proxy.workspaceId
    toolName := "mcp.protocol"
    target := ""
    sideEffectLevel := .none
    policyIds := ["mcp_method_disposition"]
    policyVersion := proxy.harness.policy.version
    rulesetHash := proxy.harness.policy.rulesetHash
    decisionReason := refusal.reason
    decisionInputs := proxy.refusalInputs fields refusal
    approvedBy := none
    approvedAt := none
    -- the line as it came, and no arguments: nothing of it is trusted
    payloadHash := "sha256:" ++ site.sha line
    authorizationHash := ""
    payloadTrust := .untrusted
    inputRefs := []
    outputHash := ""
    resultSummary := refusal.reason
    costUsd := Decimal.zero.plain
    budgetRemainingUsd := none
    dryRun := false
    reconciliationOutcome := none
    reconciledBy := ""
    reconciledAt := none
    reconciliationNote := ""
    previousRecordHash := ""
    recordHash := ""
    enforcementBasis := .mcpProxy }

/-- The reply to a refused request names the evidence of the refusal. -/
def refusalReply (fields : List Field) (refusal : Refusal) (recordId : String) : Data :=
  let requestId := getField "id" fields
  object [("jsonrpc", textData "2.0"),
    ("id", if validRequestId requestId then requestId else .null),
    ("error", object [("code", .int refusal.code), ("message", textData refusal.reason),
      ("data", object [("_defiant", object [("status", textData "blocked"),
        ("disposition", textData refusal.disposition),
        ("evidence_record_id", textData recordId)])])])]

@[irreducible] def recordRefusal (fields : List Field) (line : List Char) (refusal : Refusal) :
    Control EvidenceRecord := do
  let eventId ← Control.newId site.control "rpc_event"
  let recordId ← Control.newId site.control "evd"
  let clock ← Control.now site.control
  let record := proxy.refusalRecord fields line refusal eventId recordId (clock 0)
  Proc.lift record.validate
  EvidenceStore.append site.control record

@[irreducible] def refuseMethod (fields : List Field) (line : List Char) (refusal : Refusal) (response : Bool) :
    Serving Unit := do
  let recorded ← Serving.control (proxy.recordRefusal fields line refusal)
  if response then Serving.emitMessage site (refusalReply fields refusal recorded.recordId)
  else pure ()

/-! ### Lines -/

/-- The disposition of a method; without a review, only `tools/call` requests are let in. -/
def dispositionOf (method : Points) (notification : Bool) : Option MethodDisposition :=
  match proxy.methods with
  | some policy => policy.disposition method notification
  | none => if method = toolsCall ∧ notification = false then some .governed else none

/-- An `initialize` that asks for nothing but what a review covers. -/
def judgeInitialize (fields : List Field) : Verdict :=
  match getField "params" fields with
  | .obj params =>
    if hasField "id" fields = false ∨ isObject (getField "capabilities" params) = false then
      .refused { disposition := "invalid", reason := "Invalid initialize request"
                 code := -32602 } (hasField "id" fields)
    else .forwarded (boundedInitialize fields params)
  | _ => .refused { disposition := "invalid", reason := "Invalid initialize request"
                    code := -32602 } (hasField "id" fields)

/-- A message whose method is allowed in its form. -/
def judgeAllowed (fields : List Field) (line : List Char) : Verdict :=
  if hasField "params" fields = true ∧ isObject (getField "params" fields) = false then
    .refused { disposition := "invalid", reason := "MCP params must be an object"
               code := -32602 } (hasField "id" fields)
  else if methodName fields = initializeMethod then judgeInitialize fields
  else .forwarded line

def judge (fields : List Field) (line : List Char) : Verdict :=
  -- the client may not answer requests of the upstream server
  if hasField "method" fields = false ∧
      (hasField "result" fields = true ∨ hasField "error" fields = true) then
    .refused { disposition := "client_response", reason := "Client responses are not enabled"
               kind := "response" } false
  else if admitsEnvelope fields = false then
    .refused { disposition := "invalid", reason := "Invalid MCP request envelope"
               code := -32600 } (hasField "id" fields)
  else
    match proxy.dispositionOf (methodName fields) (!hasField "id" fields) with
    | some .governed => .governed
    | some .allow => judgeAllowed fields line
    | some .deny => .refused { disposition := "deny"
                               reason := "MCP method/form is not permitted" } (hasField "id" fields)
    | none => .refused { disposition := "unclassified"
                         reason := "MCP method/form is not permitted" } (hasField "id" fields)

@[irreducible] def acceptMessage (fields : List Field) (line : List Char) : Serving Unit :=
  match proxy.judge fields line with
  | .refused refusal response => proxy.refuseMethod fields line refusal response
  | .governed => do
    let reply ← proxy.handleToolRequest fields
    Serving.emitMessage site reply
  | .forwarded text => Serving.forwardRaw site text

/-- `accept_line` -/
def acceptLine (line : List Char) : Serving Unit :=
  if maxMcpMessageBytes < (line.flatMap String.utf8EncodeChar).length then
    Serving.emitMessage site (rpcError .null (-32600) "MCP message exceeds size limit")
  else
    match loadsStrictJson "client MCP message" line with
    | .error _ => Serving.emitMessage site (rpcError .null (-32700) "Parse error")
    -- A batch could carry a `tools/call` past the interception.
    | .ok (.obj fields) => proxy.acceptMessage fields line
    | .ok _ => Serving.emitMessage site (rpcError .null (-32600) "Invalid Request")

/-- Serve the lines of a client, blank ones left out, until one raises. -/
def serve (lines : List (List Char)) : Serving Unit := do
  let _ ← Proc.each proxy.acceptLine (lines.filter fun line => line.any (!isSpace ·))
  pure ()

end McpProxy
end DefiantHarness
