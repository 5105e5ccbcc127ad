import DefiantHarness.ToolRegistry

/-! Sequences of calls on one registry by arbitrary callers: grants as objects, actions that change
between the calls. -/
namespace DefiantHarness

open Foundation

/-- An action as an object. Its containers may change after it was sealed, and a sealed object
answers with the hash that it was sealed with. -/
structure ActionObject where
  live : ProposedAction
  sealedHash : Option String

namespace ActionObject

def authorizationHash (digests : Digests) (object : ActionObject) : String :=
  object.sealedHash.getD (object.live.authorizationHash digests)

/-- Re-hash live fields for the final capability boundary check. -/
def currentAuthorizationHash (digests : Digests) (object : ActionObject) : String :=
  object.live.authorizationHash digests

end ActionObject

namespace ToolRegistry

/-- Sign one grant for an action object after a sealed authorization record exists. -/
def authorizeObject (registry : ToolRegistry) (digests : Digests) (object : ActionObject)
    (record : EvidenceRecord) (grantId : String) (now : Timestamp) :
    Except HarnessError CapabilityGrant := do
  registry.validateAction object.live
  refuseIf (record.recordHash = "")
    (grantError "authorization evidence must be sealed before grant issue")
  refuseIf (digests.record record.body ≠ record.recordHash)
    (grantError "authorization evidence content does not match its seal")
  refuseIf (record.actionId ≠ object.live.actionId)
    (grantError "authorization evidence/action id mismatch")
  refuseIf (record.toolName ≠ object.live.toolName)
    (grantError "authorization evidence/tool mismatch")
  refuseIf (record.authorizationHash ≠ object.authorizationHash digests)
    (grantError "authorization evidence/action hash mismatch")
  refuseIf (record.resultStatus ≠ .skipped)
    (grantError "authorization evidence is not execution-pending")
  refuseIf (record.decision ≠ .allow ∧ record.decision ≠ .approvalRequired)
    (grantError "blocked evidence cannot authorize execution")
  -- the signature covers the claims, so it is made last
  let grant : CapabilityGrant :=
    { actionId := object.live.actionId
      toolName := object.live.toolName
      authorizationHash := object.authorizationHash digests
      evidenceRecordId := record.recordId
      evidenceRecordHash := record.recordHash
      issuedAt := now
      grantId := grantId
      signature := ""
      spent := false }
  pure { grant with signature := registry.sign grant.claims }

end ToolRegistry

/-- A call on the registry, or what a caller does with grant objects in between. -/
inductive GrantCall where
  | authorize (object : ActionObject) (record : EvidenceRecord) (grantId : String) (now : Timestamp)
  | construct (grant : CapabilityGrant)
  | assign (index : Nat) (grant : CapabilityGrant)
  | execute (object : ActionObject) (index : Nat) (dryRun : Bool)

structure Issue where
  record : EvidenceRecord
  grant : CapabilityGrant

structure Dispatch where
  object : ActionObject
  grant : CapabilityGrant

/-- The grant objects that exist, in the order of their creation, the grants that were issued and
the handlers that were called. -/
structure GrantWorld where
  grants : List CapabilityGrant
  issued : List Issue
  dispatched : List Dispatch

namespace GrantWorld

def start : GrantWorld := ⟨[], [], []⟩

variable (registry : ToolRegistry) (digests : Digests)

/-- One call. A call that raises leaves everything as it was. -/
def step (w : GrantWorld) : GrantCall → GrantWorld
  | .authorize object record grantId now =>
    match registry.authorizeObject digests object record grantId now with
    | .ok grant => { w with grants := w.grants ++ [grant], issued := w.issued ++ [⟨record, grant⟩] }
    | .error _ => w
  -- any code may build a grant or write over one it holds
  | .construct grant => { w with grants := w.grants ++ [grant] }
  | .assign index grant => { w with grants := w.grants.set index grant }
  | .execute object index dryRun =>
    match w.grants[index]? with
    | none => w
    | some grant =>
      -- redeeming sets the flag on the one object presented
      match registry.redeem digests object.live grant with
      | .error _ => w
      | .ok _ =>
        { w with
          grants := w.grants.set index { grant with spent := true }
          dispatched := if dryRun then w.dispatched else w.dispatched ++ [⟨object, grant⟩] }

def run (calls : List GrantCall) : GrantWorld := calls.foldl (step registry digests) start

variable {registry digests}

theorem run_concat (calls : List GrantCall) (call : GrantCall) :
    run registry digests (calls ++ [call]) = step registry digests (run registry digests calls) call := by
  rw [run, run, List.foldl_append]
  rfl

end GrantWorld

/-- The signature of a grant belongs to its claims. -/
def ToolRegistry.Genuine (registry : ToolRegistry) (grant : CapabilityGrant) : Prop :=
  grant.signature = registry.sign grant.claims

instance (registry : ToolRegistry) (grant : CapabilityGrant) : Decidable (registry.Genuine grant) :=
  inferInstanceAs (Decidable (_ = _))

/-! ### What each call checks -/

variable {registry : ToolRegistry} {digests : Digests}

/-- The record binds the claims of a grant. -/
structure Binds (digests : Digests) (record : EvidenceRecord) (grant : CapabilityGrant) : Prop where
  seals : record.recordHash ≠ "" ∧ digests.record record.body = record.recordHash
  skipped : record.resultStatus = .skipped
  allowed : record.decision = .allow ∨ record.decision = .approvalRequired
  hash : record.recordHash = grant.evidenceRecordHash
  action : record.actionId = grant.actionId
  tool : record.toolName = grant.toolName
  authorization : record.authorizationHash = grant.authorizationHash

/-- The claims of a grant are the ones that a record binds, however the grant was spent since. -/
theorem Binds.congr {record : EvidenceRecord} {g h : CapabilityGrant} (binds : Binds digests record g)
    (same : g.claims = h.claims) : Binds digests record h := by
  simp only [CapabilityGrant.claims, CapabilityGrant.mk.injEq] at same
  obtain ⟨action, tool, authorization, -, hash, -⟩ := same
  exact ⟨binds.seals, binds.skipped, binds.allowed, binds.hash.trans hash, binds.action.trans action,
    binds.tool.trans tool, binds.authorization.trans authorization⟩

theorem authorizeObject_ok {object : ActionObject} {record : EvidenceRecord} {grantId : String}
    {now : Timestamp} {grant : CapabilityGrant}
    (issued : registry.authorizeObject digests object record grantId now = .ok grant) :
    Binds digests record grant ∧ registry.Genuine grant ∧ grant.spent = false ∧
      grant.grantId = grantId := by
  simp only [ToolRegistry.authorizeObject] at issued
  obtain ⟨-, issued⟩ := unit_bind_ok_iff.1 issued
  simp only [refuseIf_bind_ok_iff, not_not, not_and_or, pure_ok_iff] at issued
  obtain ⟨sealed, genuine, action, tool, hash, skipped, decided, rfl⟩ := issued
  exact ⟨⟨⟨sealed, genuine⟩, skipped, decided, rfl, action, tool, hash⟩, rfl, rfl, rfl⟩

theorem redeem_ok {action : ProposedAction} {grant : CapabilityGrant} {spec : ToolSpec}
    (redeemed : registry.redeem digests action grant = .ok spec) :
    registry.Genuine grant ∧ grant.spent = false ∧ action.actionId = grant.actionId ∧
      action.toolName = grant.toolName ∧
      action.authorizationHash digests = grant.authorizationHash := by
  simp only [ToolRegistry.redeem, refuseIf_bind_ok_iff, not_or, not_not] at redeemed
  obtain ⟨⟨-, genuine⟩, redeemed⟩ := redeemed
  obtain ⟨-, redeemed⟩ := unit_bind_ok_iff.1 redeemed
  simp only [bind_ok_iff, ToolRegistry.spend, refuseIf_ok_iff] at redeemed
  obtain ⟨_, ⟨-, unspent, -, own, -, tool, -, hash, -⟩, -⟩ := redeemed
  exact ⟨genuine, by simpa using unspent, not_not.1 own, not_not.1 tool, not_not.1 hash⟩

end DefiantHarness
