import DefiantHarness.GrantRuns
import DefiantHarness.Runs

/-! What a dispatch of a granted handler says about the calls before it, and how often there is one. -/
namespace DefiantHarness

open Foundation GrantWorld

/-! ### A registry with one mail tool -/

namespace Demo

/-- A signature that tells all claims apart. -/
def signature (grant : CapabilityGrant) : String :=
  "hmac:" ++ String.intercalate "/" [grant.actionId, grant.toolName, grant.authorizationHash,
    grant.evidenceRecordId, grant.evidenceRecordHash, toString grant.issuedAt, grant.grantId]

def mailRegistry : ToolRegistry where
  specs := [⟨"mail", .externalSend, .zero, true, .any⟩]
  checkTarget _ _ := .ok ()
  handler _ := .returned (result .zero)
  sign := signature
  signs _ := by simp [signature]

def mail : ActionObject := ⟨action (call "act_1") "req_1", none⟩

/-- The record that authorizes the mail. -/
def authorization : EvidenceRecord :=
  EvidenceRecord.sealed digests genesis
    { requestId := "req_1", actionId := "act_1", decision := .allow, resultStatus := .skipped
      recordId := "evd_1", timestamp := 0, agentRunner := "demo", modelId := "", userId := "user"
      workspaceId := "work", toolName := "mail", target := "inbox", sideEffectLevel := .externalSend
      policyIds := ["mail"], policyVersion := "1", rulesetHash := digest 3
      decisionReason := "mail is allowed", decisionInputs := .null, approvedBy := none
      approvedAt := none, payloadHash := digest 1
      authorizationHash := mail.authorizationHash digests, payloadTrust := .derived, inputRefs := []
      outputHash := "", resultSummary := "authorized; execution pending"
      costUsd := Decimal.zero.plain, budgetRemainingUsd := none, dryRun := false
      reconciliationOutcome := none, reconciledBy := "", reconciledAt := none
      reconciliationNote := "", previousRecordHash := "", recordHash := ""
      enforcementBasis := .harnessControlLoop }

/-- The grant that the registry issues for it. -/
def mailGrant : CapabilityGrant :=
  let unsigned : CapabilityGrant :=
    { actionId := "act_1", toolName := "mail", authorizationHash := mail.authorizationHash digests
      evidenceRecordId := "evd_1", evidenceRecordHash := authorization.recordHash, issuedAt := 0
      grantId := "grant_1", signature := "", spent := false }
  { unsigned with signature := signature unsigned }

def authorizeMail : GrantCall := .authorize mail authorization "grant_1" 0

end Demo

variable {registry : ToolRegistry} {digests : Digests}

/-! ### Signed claims come from the registry -/

/-- Nobody signs without the registry's key: a signature that belongs to the claims of a presented
grant was made by an earlier call of the registry, for these claims. -/
def Unforgeable (registry : ToolRegistry) (digests : Digests) (calls : List GrantCall) : Prop :=
  ∀ (before : List GrantCall) (object : ActionObject) (index : Nat) (dryRun : Bool),
    before ++ [.execute object index dryRun] <+: calls →
      ∀ grant, (run registry digests before).grants[index]? = some grant → registry.Genuine grant →
        ∃ issue ∈ (run registry digests before).issued, issue.grant.claims = grant.claims

/-- An earlier call has authorized what the grant claims, and the action still has the hash that was
authorized. -/
structure Authorized (registry : ToolRegistry) (digests : Digests) (before : List GrantCall)
    (object : ActionObject) (grant : CapabilityGrant) : Prop where
  issued : ∃ authorized record grantId now signed,
    GrantCall.authorize authorized record grantId now ∈ before ∧
      registry.authorizeObject digests authorized record grantId now = .ok signed ∧
      signed.claims = grant.claims ∧ Binds digests record grant
  action : object.live.actionId = grant.actionId
  tool : object.live.toolName = grant.toolName
  hash : object.currentAuthorizationHash digests = grant.authorizationHash

/-- Every issued grant comes from a call of the run. -/
theorem issued_run {calls : List GrantCall} {issue : Issue}
    (member : issue ∈ (run registry digests calls).issued) :
    ∃ object grantId now, .authorize object issue.record grantId now ∈ calls ∧
      registry.authorizeObject digests object issue.record grantId now = .ok issue.grant := by
  -- on the last call: only an authorization issues, and then exactly one grant
  induction calls using List.reverseRecOn with
  | nil => cases member
  | append_singleton calls call ih =>
    have earlier (member : issue ∈ (run registry digests calls).issued) :
        ∃ object grantId now, .authorize object issue.record grantId now ∈ calls ++ [call] ∧
          registry.authorizeObject digests object issue.record grantId now = .ok issue.grant := by
      obtain ⟨object, grantId, now, call', granted⟩ := ih member
      exact ⟨object, grantId, now, List.mem_append_left _ call', granted⟩
    rw [run_concat] at member
    cases call with
    | authorize object record grantId now =>
      simp only [step] at member
      split at member
      next grant granted =>
        rcases List.mem_append.1 member with old | new
        · exact earlier old
        · obtain rfl := List.mem_singleton.1 new
          exact ⟨object, grantId, now, by simp, granted⟩
      · exact earlier member
    | construct grant => exact earlier member
    | assign index grant => exact earlier member
    | execute object index dryRun =>
      simp only [step] at member
      split at member
      · exact earlier member
      · split at member <;> exact earlier member

/-- A redeemed grant was authorized earlier, for the action as it is now. -/
theorem authorized_of_redeem {calls before : List GrantCall}
    (unforgeable : Unforgeable registry digests calls) {object : ActionObject} {index : Nat}
    {dryRun : Bool} (called : before ++ [.execute object index dryRun] <+: calls)
    {grant : CapabilityGrant} (presented : (run registry digests before).grants[index]? = some grant)
    {spec : ToolSpec} (redeemed : registry.redeem digests object.live grant = .ok spec) :
    Authorized registry digests before object grant := by
  obtain ⟨genuine, -, action, tool, hash⟩ := redeem_ok redeemed
  obtain ⟨issue, member, same⟩ := unforgeable before object index dryRun called grant presented genuine
  obtain ⟨authorized, grantId, now, call, granted⟩ := issued_run member
  have binds := (authorizeObject_ok granted).1.congr same
  exact ⟨⟨authorized, issue.record, grantId, now, issue.grant, call, granted, same, binds⟩, action,
    tool, hash⟩

/-- A handler is called only under a grant that was authorized earlier for this very action; every
other combination raises first. -/
theorem grants_sound {calls before : List GrantCall}
    (unforgeable : Unforgeable registry digests calls) {object : ActionObject} {index : Nat}
    {dryRun : Bool} (called : before ++ [.execute object index dryRun] <+: calls) :
    ((run registry digests (before ++ [.execute object index dryRun])).dispatched ≠
        (run registry digests before).dispatched →
      ∃ grant, (run registry digests before).grants[index]? = some grant ∧
        Authorized registry digests before object grant) ∧
    ∀ grant, (run registry digests before).grants[index]? = some grant →
      ¬ Authorized registry digests before object grant →
        ∃ e, registry.redeem digests object.live grant = .error e := by
  constructor
  · intro dispatched
    rw [run_concat] at dispatched
    simp only [step] at dispatched
    split at dispatched
    · exact absurd rfl dispatched
    next grant presented =>
      split at dispatched
      · exact absurd rfl dispatched
      next spec redeemed =>
        -- a dispatch needs a redeemed grant, which the registry has signed
        exact ⟨grant, presented, authorized_of_redeem unforgeable called presented redeemed⟩
  · intro grant presented missing
    cases redeemed : registry.redeem digests object.live grant with
    | error e => exact ⟨e, rfl⟩
    | ok spec =>
      exact absurd (authorized_of_redeem unforgeable called presented redeemed) missing

/-- The registry issues the mail's grant, and the mail is sent under it. -/
theorem grants_sound_mail :
    (run Demo.mailRegistry Demo.digests [Demo.authorizeMail, .execute Demo.mail 0 false]).dispatched ≠
        (run Demo.mailRegistry Demo.digests [Demo.authorizeMail]).dispatched ∧
      ∃ grant, (run Demo.mailRegistry Demo.digests [Demo.authorizeMail]).grants[0]? = some grant ∧
        Authorized Demo.mailRegistry Demo.digests [Demo.authorizeMail] Demo.mail grant := by
  have issued : run Demo.mailRegistry Demo.digests [Demo.authorizeMail] =
      ⟨[Demo.mailGrant], [⟨Demo.authorization, Demo.mailGrant⟩], []⟩ := rfl
  have unforgeable : Unforgeable Demo.mailRegistry Demo.digests
      [Demo.authorizeMail, .execute Demo.mail 0 false] := by
    -- the one call to execute comes second, when the issued grant is the only one held
    rintro before object index dryRun ⟨after, calls⟩ grant presented -
    rcases before with _ | ⟨first, _ | ⟨second, rest⟩⟩
    · cases calls
    · obtain rfl : first = Demo.authorizeMail := (List.cons.inj calls).1
      rw [issued] at presented ⊢
      cases index with
      | zero =>
        obtain rfl := Option.some.inj presented
        exact ⟨_, List.mem_singleton_self _, rfl⟩
      | succ index => cases presented
    · simp at calls
  have dispatched :
      (run Demo.mailRegistry Demo.digests [Demo.authorizeMail, .execute Demo.mail 0 false]).dispatched ≠
        (run Demo.mailRegistry Demo.digests [Demo.authorizeMail]).dispatched := by
    intro same
    have lengths := congrArg List.length same
    revert lengths
    decide +kernel
  exact ⟨dispatched, (@grants_sound _ _ _ [Demo.authorizeMail] unforgeable Demo.mail 0 false
    List.prefix_rfl).1 dispatched⟩

/-! ### Single use -/

/-- Callers who neither make a second object of a signed grant nor have one record authorized twice.
Every grant has a new identifier. -/
def Careful (registry : ToolRegistry) (w : GrantWorld) : GrantCall → Prop
  | .authorize _ record grantId _ =>
    (∀ issue ∈ w.issued, issue.grant.evidenceRecordHash ≠ record.recordHash) ∧
      ∀ issue ∈ w.issued, issue.grant.grantId ≠ grantId
  | .construct grant => ¬ registry.Genuine grant
  | .assign _ grant => ¬ registry.Genuine grant
  | .execute _ _ _ => True

/-- The worlds that careful callers reach. -/
inductive CarefulRun (registry : ToolRegistry) (digests : Digests) : GrantWorld → Prop where
  | start : CarefulRun registry digests .start
  | step {w : GrantWorld} (before : CarefulRun registry digests w) (call : GrantCall)
      (careful : Careful registry w call) : CarefulRun registry digests (w.step registry digests call)

/-- A grant that would still be redeemed for its action. -/
def Live (registry : ToolRegistry) (grant : CapabilityGrant) : Bool :=
  decide (registry.Genuine grant) && !grant.spent

private theorem filter_set_sublist {α : Type} {p : α → Bool} {as : List α} {b : α} (index : Nat)
    (dropped : p b = false) : ((as.set index b).filter p).Sublist (as.filter p) := by
  induction as generalizing index with
  | nil => exact List.Sublist.refl _
  | cons a as ih =>
    cases index with
    | zero =>
      rw [List.set_cons_zero, List.filter_cons_of_neg (by simp [dropped])]
      exact (List.sublist_cons_self a as).filter p
    | succ index =>
      rw [List.set_cons_succ]
      cases kept : p a with
      | true =>
        rw [List.filter_cons_of_pos kept, List.filter_cons_of_pos kept]
        exact (ih index).cons_cons a
      | false =>
        rw [List.filter_cons_of_neg (by simp [kept]), List.filter_cons_of_neg (by simp [kept])]
        exact ih index

private theorem filter_set_perm {α : Type} {p : α → Bool} {as : List α} {a b : α} {index : Nat}
    (found : as[index]? = some a) (kept : p a = true) (dropped : p b = false) :
    (as.filter p).Perm (a :: (as.set index b).filter p) := by
  induction as generalizing index with
  | nil => simp at found
  | cons c as ih =>
    cases index with
    | zero =>
      obtain rfl : c = a := by simpa using found
      rw [List.set_cons_zero, List.filter_cons_of_pos kept, List.filter_cons_of_neg (by simp [dropped])]
    | succ index =>
      rw [List.set_cons_succ]
      have rest := ih (by simpa using found)
      cases own : p c with
      | true =>
        rw [List.filter_cons_of_pos own, List.filter_cons_of_pos own]
        exact (rest.cons c).trans (.swap a c _)
      | false =>
        rw [List.filter_cons_of_neg (by simp [own]), List.filter_cons_of_neg (by simp [own])]
        exact rest

/-- The identifiers of the grants that can still be redeemed, and of those that were. -/
def held (registry : ToolRegistry) (w : GrantWorld) : List CapabilityGrant :=
  w.grants.filter (Live registry) ++ w.dispatched.map (·.grant)

/-- What careful callers keep: no two issued grants share an identifier or a record, every genuine or
dispatched grant was issued, and the live and the dispatched ones have different identifiers. -/
structure GrantsAccounted (registry : ToolRegistry) (w : GrantWorld) : Prop where
  identifiers : (w.issued.map (·.grant.grantId)).Nodup
  records : (w.issued.map (·.grant.evidenceRecordHash)).Nodup
  genuine : ∀ grant ∈ w.grants, registry.Genuine grant →
    ∃ issue ∈ w.issued, issue.grant.claims = grant.claims
  dispatched : ∀ d ∈ w.dispatched, ∃ issue ∈ w.issued, issue.grant.claims = d.grant.claims
  apart : ((held registry w).map (·.grantId)).Nodup

theorem grantId_of_claims {g h : CapabilityGrant} (same : g.claims = h.claims) :
    g.grantId = h.grantId := by
  have ids : g.claims.grantId = h.claims.grantId := by rw [same]
  exact ids

theorem recordHash_of_claims {g h : CapabilityGrant} (same : g.claims = h.claims) :
    g.evidenceRecordHash = h.evidenceRecordHash := by
  have hashes : g.claims.evidenceRecordHash = h.claims.evidenceRecordHash := by rw [same]
  exact hashes

namespace GrantsAccounted

variable {w : GrantWorld}

/-- Every grant that is live or was dispatched has been issued. -/
theorem held_issued (held' : GrantsAccounted registry w) {grant : CapabilityGrant}
    (member : grant ∈ held registry w) : ∃ issue ∈ w.issued, issue.grant.claims = grant.claims := by
  rcases List.mem_append.1 member with live | past
  · obtain ⟨own, alive⟩ := List.mem_filter.1 live
    simp only [Live, Bool.and_eq_true, decide_eq_true_eq] at alive
    exact held'.genuine grant own alive.1
  · obtain ⟨d, own, rfl⟩ := List.mem_map.1 past
    exact held'.dispatched d own

/-- A newly issued grant adds itself to the live ones. -/
theorem authorize (accounted : GrantsAccounted registry w) {object : ActionObject} {record : EvidenceRecord}
    {grantId : String} {now : Timestamp} {grant : CapabilityGrant}
    (careful : Careful registry w (.authorize object record grantId now))
    (granted : registry.authorizeObject digests object record grantId now = .ok grant) :
    GrantsAccounted registry
      { w with grants := w.grants ++ [grant], issued := w.issued ++ [⟨record, grant⟩] } := by
  obtain ⟨otherRecords, otherIds⟩ := careful
  obtain ⟨binds, genuine, unspent, rfl⟩ := authorizeObject_ok granted
  have alive : Live registry grant = true := by simp [Live, genuine, unspent]
  refine ⟨?_, ?_, ?_, ?_, ?_⟩
  · rw [List.map_append, List.map_singleton, ← List.concat_eq_append]
    apply accounted.identifiers.concat
    intro known
    obtain ⟨issue, member, same⟩ := List.mem_map.1 known
    exact otherIds issue member same
  · rw [List.map_append, List.map_singleton, ← List.concat_eq_append]
    apply accounted.records.concat
    intro known
    obtain ⟨issue, member, same⟩ := List.mem_map.1 known
    exact otherRecords issue member (same.trans binds.hash.symm)
  · intro g member genuine'
    rcases List.mem_append.1 member with old | new
    · obtain ⟨issue, own, same⟩ := accounted.genuine g old genuine'
      exact ⟨issue, List.mem_append_left _ own, same⟩
    · obtain rfl := List.mem_singleton.1 new
      exact ⟨⟨record, g⟩, by simp, rfl⟩
  · intro d member
    obtain ⟨issue, own, same⟩ := accounted.dispatched d member
    exact ⟨issue, List.mem_append_left _ own, same⟩
  · have order : (held registry { w with
        grants := w.grants ++ [grant], issued := w.issued ++ [⟨record, grant⟩] }).Perm
          (grant :: held registry w) := by
      rw [held, List.filter_append, List.filter_cons_of_pos alive, List.filter_nil, List.append_assoc]
      exact List.perm_middle
    rw [(order.map _).nodup_iff, List.map_cons, List.nodup_cons]
    refine ⟨?_, accounted.apart⟩
    -- an older grant with this identifier would have been issued with it
    intro known
    obtain ⟨g, member, same⟩ := List.mem_map.1 known
    obtain ⟨issue, own, claims⟩ := accounted.held_issued member
    exact otherIds issue own ((grantId_of_claims claims).trans same)

/-- An object that is not genuine is never live. -/
private theorem not_live {grant : CapabilityGrant} (forged : ¬ registry.Genuine grant) :
    Live registry grant = false := by
  simp [Live, forged]

theorem construct (accounted : GrantsAccounted registry w) {grant : CapabilityGrant}
    (forged : ¬ registry.Genuine grant) :
    GrantsAccounted registry { w with grants := w.grants ++ [grant] } := by
  refine ⟨accounted.identifiers, accounted.records, ?_, accounted.dispatched, ?_⟩
  · intro g member genuine
    rcases List.mem_append.1 member with old | new
    · exact accounted.genuine g old genuine
    · exact absurd (List.mem_singleton.1 new ▸ genuine) forged
  · have same : held registry { w with grants := w.grants ++ [grant] } = held registry w := by
      simp [held, List.filter_append, not_live forged]
    rw [same]
    exact accounted.apart

theorem assign (accounted : GrantsAccounted registry w) (index : Nat) {grant : CapabilityGrant}
    (forged : ¬ registry.Genuine grant) :
    GrantsAccounted registry { w with grants := w.grants.set index grant } := by
  refine ⟨accounted.identifiers, accounted.records, ?_, accounted.dispatched, ?_⟩
  · intro g member genuine
    rcases List.mem_or_eq_of_mem_set member with old | rfl
    · exact accounted.genuine g old genuine
    · exact absurd genuine forged
  · have less : (held registry { w with grants := w.grants.set index grant }).Sublist
        (held registry w) :=
      (filter_set_sublist index (not_live forged)).append_right _
    exact accounted.apart.sublist (less.map _)

/-- A redeemed grant moves from the live ones to the dispatched ones, or is spent on a dry run. -/
theorem execute (accounted : GrantsAccounted registry w) {object : ActionObject} {index : Nat}
    {dryRun : Bool} {grant : CapabilityGrant} (presented : w.grants[index]? = some grant)
    {spec : ToolSpec} (redeemed : registry.redeem digests object.live grant = .ok spec) :
    GrantsAccounted registry
      { w with
        grants := w.grants.set index { grant with spent := true }
        dispatched := if dryRun then w.dispatched else w.dispatched ++ [⟨object, grant⟩] } := by
  obtain ⟨genuine, unspent, -⟩ := redeem_ok redeemed
  have own : grant ∈ w.grants := List.mem_of_getElem? presented
  have alive : Live registry grant = true := by simp [Live, genuine, unspent]
  have spent' : Live registry { grant with spent := true } = false := by simp [Live]
  refine ⟨accounted.identifiers, accounted.records, ?_, ?_, ?_⟩
  · intro g member genuine'
    rcases List.mem_or_eq_of_mem_set member with old | rfl
    · exact accounted.genuine g old genuine'
    · exact accounted.genuine grant own genuine
  · intro d member
    split at member
    · exact accounted.dispatched d member
    · rcases List.mem_append.1 member with old | new
      · exact accounted.dispatched d old
      · obtain rfl := List.mem_singleton.1 new
        exact accounted.genuine grant own genuine
  -- redeeming moves the grant from those alive to those dispatched, or drops it in a dry run
  · have order := filter_set_perm presented alive spent'
    split
    · have less : ((w.grants.set index { grant with spent := true }).filter (Live registry) ++
          w.dispatched.map (·.grant)).Sublist (held registry w) :=
        (filter_set_sublist index spent').append_right _
      exact accounted.apart.sublist (less.map _)
    · have moved : (held registry w).Perm
          ((w.grants.set index { grant with spent := true }).filter (Live registry) ++
            (w.dispatched ++ [(⟨object, grant⟩ : Dispatch)]).map (·.grant)) := by
        rw [held, List.map_append, ← List.append_assoc, List.map_singleton]
        apply (order.append_right _).trans
        rw [List.cons_append]
        exact (List.perm_append_singleton grant _).symm
      exact (moved.map _).nodup_iff.1 accounted.apart

end GrantsAccounted

theorem accounted_step {w : GrantWorld} (accounted : GrantsAccounted registry w) (call : GrantCall)
    (careful : Careful registry w call) : GrantsAccounted registry (w.step registry digests call) := by
  cases call with
  | authorize object record grantId now =>
    simp only [step]
    split
    next grant granted => exact accounted.authorize careful granted
    · exact accounted
  | construct grant => exact accounted.construct careful
  | assign index grant => exact accounted.assign index careful
  | execute object index dryRun =>
    simp only [step]
    split
    · exact accounted
    next grant presented =>
      split
      · exact accounted
      next spec redeemed => exact accounted.execute presented redeemed

theorem accounted_run {w : GrantWorld} (reached : CarefulRun registry digests w) :
    GrantsAccounted registry w := by
  induction reached with
  | start => exact ⟨.nil, .nil, by simp [GrantWorld.start], by simp [GrantWorld.start], .nil⟩
  | step before call careful ih => exact accounted_step ih call careful

/-- Under careful callers each grant, and each authorization record, is dispatched at most once. -/
theorem grants_single_use {w : GrantWorld} (reached : CarefulRun registry digests w) :
    (w.dispatched.map (·.grant.grantId)).Nodup ∧
      (w.dispatched.map (·.grant.evidenceRecordHash)).Nodup := by
  have accounted := accounted_run reached
  have ids : (w.dispatched.map (·.grant.grantId)).Nodup := by
    have apart := accounted.apart
    rw [held, List.map_append, List.map_map] at apart
    exact apart.of_append_right
  refine ⟨ids, ?_⟩
  rw [List.nodup_map_iff_inj_on (ids.of_map _)]
  intro d member e member' same
  obtain ⟨i, own, claims⟩ := accounted.dispatched d member
  obtain ⟨j, own', claims'⟩ := accounted.dispatched e member'
  have records : i.grant.evidenceRecordHash = j.grant.evidenceRecordHash := by
    rw [recordHash_of_claims claims, recordHash_of_claims claims', same]
  obtain rfl := List.inj_on_of_nodup_map accounted.records own own' records
  exact List.inj_on_of_nodup_map ids member member'
    ((grantId_of_claims claims).symm.trans (grantId_of_claims claims'))

/-- A mail is authorized and sent, and its spent grant is presented once more. -/
def sentTwice : List GrantCall :=
  [Demo.authorizeMail] ++ [.execute Demo.mail 0 false] ++ [.execute Demo.mail 0 false]

theorem grants_single_use_mail :
    (run Demo.mailRegistry Demo.digests sentTwice).dispatched.length = 1 ∧
      ((run Demo.mailRegistry Demo.digests sentTwice).dispatched.map (·.grant.grantId)).Nodup ∧
      ((run Demo.mailRegistry Demo.digests sentTwice).dispatched.map
        (·.grant.evidenceRecordHash)).Nodup := by
  have reached : CarefulRun Demo.mailRegistry Demo.digests
      (run Demo.mailRegistry Demo.digests ([] ++ sentTwice)) := by
    rw [sentTwice, ← List.append_assoc, ← List.append_assoc, run_concat, run_concat, run_concat]
    have authorized : CarefulRun Demo.mailRegistry Demo.digests
        (GrantWorld.start.step Demo.mailRegistry Demo.digests Demo.authorizeMail) :=
      .step .start Demo.authorizeMail
        ⟨fun _ none => absurd none List.not_mem_nil, fun _ none => absurd none List.not_mem_nil⟩
    exact .step (.step authorized (.execute Demo.mail 0 false) trivial) (.execute Demo.mail 0 false) trivial
  exact ⟨by decide +kernel, grants_single_use reached⟩

/-- A second object with the claims and the signature of a spent grant is redeemed again. -/
theorem copied_grant_dispatches_twice :
    (run Demo.mailRegistry Demo.digests [Demo.authorizeMail, .execute Demo.mail 0 false,
      .construct Demo.mailGrant, .execute Demo.mail 1 false]).dispatched.map (·.grant.grantId) =
        ["grant_1", "grant_1"] := by
  decide +kernel

end DefiantHarness
