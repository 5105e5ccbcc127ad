import DefiantHarness.SigningCompleteness
import DefiantHarness.OperatorTrust

/-! One method of the operator trust policy, seen from the harness, from the trust state and from the
stored statement: the three descriptions accept the same statements. -/
namespace DefiantHarness

open Foundation

namespace OperatorSigning

open TrustState hiding strip stripLeft maxNoteChars OperatorTrustPolicy boundedText hash timestamp
  untrusted mismatch

/-! ### Transitions of operator trust -/

section Transitions

variable {Instant Key : Type} [LinearOrder Instant] (clock : WallClock Instant) (now : Instant)
  (scheme : SignatureScheme Key)

/-- A bounded text is the text of the field. -/
theorem boundedText_bind {attestation : List Field} {name : String} {maximum : Nat} {α : Type}
    {f : Points → Except HarnessError α} {g : Except HarnessError α}
    (follows : f (textOf name attestation) = g) :
    (TrustState.boundedText (fieldAt (Points.ofString name) attestation) name maximum >>= f) =
      (TrustState.boundedText (fieldAt (Points.ofString name) attestation) name maximum >>= fun _ => g) := by
  subst follows
  rw [textOf, textAt]
  cases found : fieldAt (Points.ofString name) attestation with
  | none => rfl
  | some value =>
    cases value <;> try rfl
    simp only [TrustState.boundedText, bind_assoc]
    rfl
/-- Reading a timestamp twice is reading it once. -/
theorem timestampText_bind (value : Option Data) (field : String) {α : Type}
    (f : Instant → Except HarnessError α) :
    (timestampText clock value field >>= fun text => parsedTimestamp clock text field >>= f) =
      (TrustState.boundedText value field 128 >>= fun text => parsedTimestamp clock text field >>= f) := by
  simp only [timestampText, bind_assoc, pure_bind]
  refine bind_congr fun text => ?_
  cases parsedTimestamp clock text field <;> rfl

theorem validateTransition_trustTransition (attestation : List Field) :
    validateTransition clock now trustTransition attestation =
      validateTrustTransition clock now attestation := by
  unfold validateTransition validateTrustTransition requireHeadings requireTexts
  simp only [bind_assoc, checkAll, pure_bind, ok_bind]
  refine bind_congr fun _ => bind_congr fun _ => bind_congr fun _ => bind_congr fun _ =>
    bind_congr fun _ => Eq.symm ?_
  refine boundedText_bind (boundedText_bind (boundedText_bind (boundedText_bind (boundedText_bind
    (boundedText_bind ?_)))))
  refine bind_congr fun _ => bind_congr fun _ => bind_congr fun _ => bind_congr fun _ => ?_
  rw [refuseIf_or, bind_assoc]
  refine bind_congr fun _ => bind_congr fun _ => Eq.symm ?_
  exact timestampText_bind clock _ _ _

/-- The transition of operator trust is required by one code, here and where its state is replayed. -/
theorem requireTransition_trustTransition (policy : TrustState.OperatorTrustPolicy Key)
    (attestation : List Field) (fromGeneration : Nat) (fromHash toHash operator note : Points) :
    (do
      let _ ← requireTransition clock now scheme policy trustTransition (some attestation) fromGeneration
        fromHash toHash operator note
      pure ()) =
      policy.requireTrustTransition clock now scheme attestation fromGeneration fromHash toHash operator
        note := by
  unfold requireTransition TrustState.OperatorTrustPolicy.requireTrustTransition
  simp only [validateTransition_trustTransition, orRefuse, compareFields, checkAll, compareField, trustedKey,
    checkSignature, TrustState.requireText, ok_bind, bind_assoc, pure_bind]
  -- the same checks in the same order, up to the last one, after which a status is built
  refine bind_congr fun _ => bind_congr fun _ => bind_congr fun _ => bind_congr fun _ =>
    bind_congr fun _ => bind_congr fun _ => bind_congr fun _ => bind_congr fun _ =>
    bind_congr fun _ => bind_congr fun _ => bind_congr fun _ => bind_congr fun _ =>
    bind_congr fun _ => ?_
  exact bind_pure_unit

end Transitions

/-! ### Ordinary texts -/

theorem blankPoint_ofChar (c : Char) : blankPoint (CodePoint.ofChar c) = isSpace c := by
  rw [blankPoint]
  congr 1
  exact Char.ofNat_toNat c

theorem stripLeft_ofChar (cs : List Char) :
    TrustState.stripLeft (cs.map CodePoint.ofChar) = (stripLeft cs).map CodePoint.ofChar := by
  rw [TrustState.stripLeft, stripLeft, List.dropWhile_map]
  congr 2
  exact funext blankPoint_ofChar

theorem strip_ofString (s : String) :
    TrustState.strip (Points.ofString s) = Points.ofString (strip s) := by
  rw [TrustState.strip, strip, Points.ofString_eq, Points.ofString_eq, charsOf_eq, String.toList_ofList,
    stripLeft_ofChar, ← List.map_reverse, stripLeft_ofChar, ← List.map_reverse]

theorem blank_ofString {s : String} : (Points.ofString s).all blankPoint = true ↔ strip s = "" := by
  rw [strip_eq_empty_iff, Points.ofString_eq, List.all_map, List.all_eq_true]
  simp only [Function.comp_apply, blankPoint_ofChar]

theorem boundedText_ofString {s field : String} {maximum : Nat} {u : Unit} :
    boundedText s field maximum = .ok u ↔ Request.BoundedBy maximum (Points.ofString s) := by
  have length : (Points.ofString s).length = s.length := by
    rw [Points.ofString_eq, List.length_map, String.length_toList]
  simp only [boundedText, unit_bind_ok_iff, refuseIf_ok_iff, not_lt, Request.BoundedBy, ← Bool.not_eq_true,
    blank_ofString, length]

theorem asciiPoints_ofString (s : String) :
    TrustState.asciiPoints (Points.ofString s) = (charsOf s).all fun c => c.toNat < 0x80 := by
  rw [TrustState.asciiPoints, Points.ofString, List.all_map]
  rfl

/-- Both comparisons raise outside ASCII. -/
theorem compareDigest_ofString (s t : String) :
    TrustState.compareDigest (Points.ofString s) (Points.ofString t) = compareTexts s t := by
  have same : (Points.ofString s == Points.ofString t) = (s == t) := by
    rw [Bool.eq_iff_iff, beq_iff_eq, beq_iff_eq]
    exact ⟨fun same => ofString_injective same, congrArg _⟩
  simp only [TrustState.compareDigest, compareTexts, asciiPoints_ofString, same, List.all_append,
    Bool.and_eq_false_iff]
  rfl

theorem isHash_ofString (s : String) : TrustState.isHash (Points.ofString s) = isSha256 s := by
  have starts : (Points.ofString "sha256:").isPrefixOf (Points.ofString s) = startsWith "sha256:" s := by
    rw [Bool.eq_iff_iff, startsWith, List.isPrefixOf_iff_prefix, List.isPrefixOf_iff_prefix,
      Points.ofString, Points.ofString, List.prefix_map_iff_of_injective ofChar_injective]
  have digit (c : Char) :
      (Points.ofString "0123456789abcdef").contains (CodePoint.ofChar c) = isHexDigit c := by
    rw [Bool.eq_iff_iff, isHexDigit, List.contains_iff_mem, List.contains_iff_mem, Points.ofString,
      List.mem_map_of_injective ofChar_injective]
  rw [TrustState.isHash, isSha256, starts, Points.ofString, ← List.map_drop, List.length_map, List.all_map]
  congr 2
  exact funext digit

theorem requireSame_ok_iff {s t : String} {refusal : HarnessError} {u : Unit} :
    requireSame s t refusal = .ok u ↔ compareTexts s t = .ok true := by
  cases compared : compareTexts s t with
  | error e => simp [requireSame, compared]
  | ok same => simp [requireSame, compared]

/-- Fields are compared as the texts that stand in them. -/
theorem compareFields_texts {attestation : List Field} {message : String → String}
    (fields : List (String × String × String))
    (found : ∀ f ∈ fields, textOf f.1 attestation = Points.ofString f.2.1) :
    compareFields attestation message (fields.map fun f => (f.1, .text (Points.ofString f.2.2))) = .ok () ↔
      ∀ f ∈ fields, compareTexts f.2.1 f.2.2 = .ok true := by
  rw [compareFields, checkAll_ok_iff, List.forall_mem_map]
  refine forall₂_congr fun f member => ?_
  rw [compareField, found f member]
  dsimp only
  rw [compareDigest_ofString]
  cases compareTexts f.2.1 f.2.2 with
  | error e => simp
  | ok same => simp

/-! ### Stored statements -/

variable {Instant : Type} [LinearOrder Instant] {clock : WallClock Instant} {now : Instant}

/-- The times of the harness, as instants of a clock and as the texts that it stores. -/
structure StoredTimes (Instant : Type) [LinearOrder Instant] where
  value : Instant → Timestamp
  text : Timestamp → Points
  mono : StrictMono value

/-- The stored text of a time is read back as that time. -/
def StoredTimes.Spelled (times : StoredTimes Instant) (clock : WallClock Instant) (t : Timestamp) : Prop :=
  ∃ instant, Stamped clock (times.text t) instant ∧ times.value instant = t

variable {Key : Type} (times : StoredTimes Instant) (scheme : SignatureScheme Key)
  (policy : TrustState.OperatorTrustPolicy Key)

/-- The statement about an approval as it is stored. -/
def stored (a : OperatorAttestation) : List Field := TrustState.record
  [("schema_name", TrustState.textData attestationSchema),
    ("schema_version", TrustState.textData schemaVersion), ("algorithm", TrustState.textData algorithm),
    ("purpose", TrustState.textData a.purpose.text), ("key_id", TrustState.textData a.keyId),
    ("signed_at", .str (times.text a.signedAt)), ("operator", TrustState.textData a.operator),
    ("note", TrustState.textData a.note), ("outcome", TrustState.textData a.outcome),
    ("approval_id", TrustState.textData a.approvalId), ("action_id", TrustState.textData a.actionId),
    ("request_id", TrustState.textData a.requestId),
    ("authorization_hash", TrustState.textData a.authorizationHash),
    ("signature", TrustState.textData a.signature)]

/-- The statement about an authorization as it is stored. -/
def storedAuthorization (a : AuthorizationAttestation) : List Field := TrustState.record
  [("schema_name", TrustState.textData authorizationSchema),
    ("schema_version", TrustState.textData schemaVersion), ("algorithm", TrustState.textData algorithm),
    ("purpose", TrustState.textData authorizationPurpose), ("key_id", TrustState.textData a.keyId),
    ("signed_at", .str (times.text a.signedAt)), ("operator", TrustState.textData a.operator),
    ("note", TrustState.textData a.note), ("outcome", TrustState.textData a.outcome),
    ("authority_record_id", TrustState.textData a.authorityRecordId),
    ("authority_record_hash", TrustState.textData a.authorityRecordHash),
    ("action_id", TrustState.textData a.actionId), ("request_id", TrustState.textData a.requestId),
    ("authorization_hash", TrustState.textData a.authorizationHash),
    ("signature", TrustState.textData a.signature)]

/-- The policy that the harness asks: it looks the key up, and checks a decoded signature under it. -/
def trustOf : DefiantHarness.OperatorTrustPolicy where
  trusts operator keyId := (policy.key? (Points.ofString operator) (Points.ofString keyId)).isSome
  verifies a := ((policy.key? (Points.ofString a.operator) (Points.ofString a.keyId)).map fun key =>
    (checkSignature scheme key actionDomain "operator attestation" (stored times a)).isOk).getD false
  verifiesAuthorization a :=
    ((policy.key? (Points.ofString a.operator) (Points.ofString a.keyId)).map fun key =>
      (checkSignature scheme key authorizationDomain "authorization reconciliation"
        (storedAuthorization times a)).isOk).getD false

/-- What an operator decides about an approval, as it is stored. -/
def subjectOf (approval : PendingApproval) (present : approval.terms.approvalId ≠ "" ∧
    approval.terms.actionId ≠ "" ∧ approval.terms.requestId ≠ "") : ApprovalSubject where
  approvalId := Points.ofString approval.terms.approvalId
  actionId := Points.ofString approval.terms.actionId
  requestId := Points.ofString approval.terms.requestId
  authorizationHash := Points.ofString approval.terms.authorizationHash
  createdAt := times.text approval.terms.createdAt
  expiresAt := (approval.terms.expiresAt.map times.text).getD []
  decidedAt := approval.decidedAt.map times.text
  present :=
    have apart {s : String} (spelled : s ≠ "") : Points.ofString s ≠ [] := fun nothing =>
      spelled (ofString_injective nothing)
    ⟨apart present.1, apart present.2.1, apart present.2.2⟩

variable {times scheme policy} {a : OperatorAttestation} {approval : PendingApproval}

theorem stamp_stored (signed : times.Spelled clock a.signedAt) :
    timestampText clock (fieldAt (Points.ofString "signed_at") (stored times a)) "signed_at" =
      .ok (times.text a.signedAt) := by
  obtain ⟨instant, stamped, _⟩ := signed
  exact timestampText_field (by simp [stored, fieldAt_record]) stamped

theorem validateAttestation_stored (signed : times.Spelled clock a.signedAt) :
    validateAttestation clock (stored times a) = .ok () ↔ a.validate = .ok () := by
  have names : namesExactly actionFields (stored times a) = true := by
    rw [namesExactly, stored, record]
    simp only [List.map_cons, List.map_nil]
    decide +kernel
  have headed : requireHeadings "operator attestation" attestationSchema (stored times a) = .ok () := by
    simp [requireHeadings, stored, textAt, fieldAt_record, textData, refuseIf_of_not]
  have purpose : textAt "purpose" (stored times a) ∈ purposes.map some := by
    cases known : a.purpose <;>
      simp [stored, textAt, fieldAt_record, textData, known, Purpose.text, purposes, decisionPurpose,
        reconciliationPurpose]
  simp only [validateAttestation, OperatorAttestation.validate, unit_bind_ok_iff, refuseIf_ok_iff,
    requireTexts_ok_iff, names, headed, stamp_stored signed, purpose, boundedText_ofString,
    ← isHash_ofString, ok_bind]
  simp [textOf, textAt, stored, fieldAt_record, textData, TrustState.maxNoteChars, maxNoteChars, and_assoc]

/-- A window check is made where its purpose applies and its time is there. -/
theorem window_stored {t : Option Timestamp} {u : Unit} {applies : Prop} [Decidable applies] {field : String}
    {late : Instant → Prop} [DecidablePred late] {refusal : HarnessError} (late' : Timestamp → Prop)
    (spelled : ∀ found ∈ t, times.Spelled clock found)
    (same : ∀ instant, late instant ↔ late' (times.value instant)) :
    (if applies ∧ (t.map times.text).getD [] ≠ [] then do
        let found ← parsedTimestamp clock ((t.map times.text).getD []) field
        refuseIf (late found) refusal
      else pure ()) = .ok u ↔ ¬ (applies ∧ ∃ found ∈ t, late' found) := by
  cases t with
  | none => simp
  | some t =>
    obtain ⟨instant, stamped, rfl⟩ := spelled t rfl
    have there : times.text (times.value instant) ≠ [] := by
      intro nothing
      have visible := stamped.1.1
      rw [nothing] at visible
      cases visible
    by_cases here : applies
    · simp [here, there, bind_ok_iff, parsedTimestamp_ok_iff, stamped.2, same]
    · simp [here]

theorem window_then {t : Option Timestamp} {u : Unit} {applies : Prop} [Decidable applies] {field : String}
    {late : Instant → Prop} [DecidablePred late] {refusal : HarnessError} {rest : Except HarnessError Unit}
    (late' : Timestamp → Prop) (spelled : ∀ found ∈ t, times.Spelled clock found)
    (same : ∀ instant, late instant ↔ late' (times.value instant)) :
    (if applies ∧ (t.map times.text).getD [] ≠ [] then do
        let found ← parsedTimestamp clock ((t.map times.text).getD []) field
        refuseIf (late found) refusal
        rest
      else rest) = .ok u ↔ ¬ (applies ∧ ∃ found ∈ t, late' found) ∧ rest = .ok u := by
  have split : (if applies ∧ (t.map times.text).getD [] ≠ [] then do
        let found ← parsedTimestamp clock ((t.map times.text).getD []) field
        refuseIf (late found) refusal
        rest
      else rest) = ((if applies ∧ (t.map times.text).getD [] ≠ [] then do
        let found ← parsedTimestamp clock ((t.map times.text).getD []) field
        refuseIf (late found) refusal
      else pure ()) >>= fun _ => rest) := by
    split
    · rw [bind_assoc]
    · rfl
  rw [split, unit_bind_ok_iff, window_stored late' spelled same]

/-- Every time that a verification reads is spelled, and the clock's tolerance is the harness's. -/
structure Timed (times : StoredTimes Instant) (clock : WallClock Instant) (now : Instant)
    (a : OperatorAttestation) (approval : PendingApproval) : Prop where
  signed : times.Spelled clock a.signedAt
  created : times.Spelled clock approval.terms.createdAt
  expires : ∀ t ∈ approval.terms.expiresAt, times.Spelled clock t
  decided : ∀ t ∈ approval.decidedAt, times.Spelled clock t
  horizon : times.value (clock.horizon now) = times.value now + fiveMinutes

/-- An attestation and its stored form bind the same approvals, at the same times. -/
theorem validateBinding_stored {present : approval.terms.approvalId ≠ "" ∧
    approval.terms.actionId ≠ "" ∧ approval.terms.requestId ≠ ""}
    (timed : Timed times clock now a approval) :
    validateBinding clock now (stored times a) (subjectOf times approval present) = .ok () ↔
      a.validateBinding approval (times.value now) = .ok () := by
  obtain ⟨signedAt, signed, signedValue⟩ := timed.signed
  obtain ⟨createdAt, created, createdValue⟩ := timed.created
  have stamp : textOf "signed_at" (stored times a) = times.text a.signedAt := by
    simp [textOf, textAt, stored, fieldAt_record]
  have purpose : textOf "purpose" (stored times a) = Points.ofString a.purpose.text := by
    simp [textOf, textAt, stored, fieldAt_record, textData]
  have decision : Points.ofString a.purpose.text = Points.ofString decisionPurpose ↔
      a.purpose = .approvalDecision := by
    cases a.purpose <;> decide
  have reconciliation : Points.ofString a.purpose.text = Points.ofString reconciliationPurpose ↔
      a.purpose = .executionReconciliation := by
    cases a.purpose <;> decide
  have compared : compareFields (stored times a)
      (fun field => "operator attestation " ++ field ++ " does not match approval authority")
      [("approval_id", .text (Points.ofString approval.terms.approvalId)),
        ("action_id", .text (Points.ofString approval.terms.actionId)),
        ("request_id", .text (Points.ofString approval.terms.requestId)),
        ("authorization_hash", .text (Points.ofString approval.terms.authorizationHash))] = .ok () ↔
      compareTexts a.approvalId approval.terms.approvalId = .ok true ∧
        compareTexts a.actionId approval.terms.actionId = .ok true ∧
        compareTexts a.requestId approval.terms.requestId = .ok true ∧
        compareTexts a.authorizationHash approval.terms.authorizationHash = .ok true := by
    refine (compareFields_texts [("approval_id", a.approvalId, approval.terms.approvalId),
      ("action_id", a.actionId, approval.terms.actionId),
      ("request_id", a.requestId, approval.terms.requestId),
      ("authorization_hash", a.authorizationHash, approval.terms.authorizationHash)] ?_).trans (by simp)
    simp [textOf, textAt, stored, fieldAt_record, textData]
  have begun : createdAt ≤ signedAt ↔ approval.terms.createdAt ≤ a.signedAt := by
    rw [← signedValue, ← createdValue, times.mono.le_iff_le]
  have past : signedAt ≤ clock.horizon now ↔ a.signedAt ≤ times.value now + fiveMinutes := by
    rw [← signedValue, ← timed.horizon, times.mono.le_iff_le]
  have expired (instant : Instant) : instant ≤ signedAt ↔ times.value instant ≤ a.signedAt := by
    rw [← signedValue, times.mono.le_iff_le]
  have early (instant : Instant) : signedAt < instant ↔ a.signedAt < times.value instant := by
    rw [← signedValue, times.mono.lt_iff_lt]
  simp only [validateBinding, OperatorAttestation.validateBinding, bind_ok_iff, refuseIf_ok_iff, stamp,
    purpose, requireSame_ok_iff, subjectOf, parsedTimestamp_ok_iff, signed.2, created.2, Option.some.injEq,
    exists_eq_left', decision, reconciliation, compared]
  rw [window_then (· ≤ a.signedAt) timed.expires expired, window_stored (a.signedAt < ·) timed.decided early]
  simp only [exists_const, and_assoc, not_lt, begun, past]

theorem status_caught_ok_iff {x : Except HarnessError OperatorIdentityStatus} :
    (OperatorIdentityStatus.caught x).ok = true ↔ ∃ status, x = .ok status ∧ status.ok = true := by
  cases x with
  | ok status => simp [OperatorIdentityStatus.caught]
  | error e => simp [OperatorIdentityStatus.caught]

theorem verify_stored {present : approval.terms.approvalId ≠ "" ∧
    approval.terms.actionId ≠ "" ∧ approval.terms.requestId ≠ ""}
    (timed : Timed times clock now a approval) :
    (verify clock now scheme policy (stored times a) (subjectOf times approval present)).ok =
      ((trustOf times scheme policy).verify a approval (times.value now)).ok := by
  have operator : textOf "operator" (stored times a) = Points.ofString a.operator := by
    simp [textOf, textAt, stored, fieldAt_record, textData]
  have keyId : textOf "key_id" (stored times a) = Points.ofString a.keyId := by
    simp [textOf, textAt, stored, fieldAt_record, textData]
  rw [Bool.eq_iff_iff, verify, DefiantHarness.OperatorTrustPolicy.verify, caught_ok_iff, status_caught_ok_iff]
  simp only [unit_bind_ok_iff, refuseIf_ok_iff]
  simp only [bind_ok_iff, pure_ok_iff, operator, trustedKey, keyId, orRefuse_ok_iff, Unique.exists_iff,
    PUnit.default_eq_unit, validateAttestation_stored timed.signed,
    validateBinding_stored timed, trustOf]
  -- the key is looked up before the binding is checked, and used after it
  cases policy.key? (Points.ofString a.operator) (Points.ofString a.keyId) with
  | none => simp
  | some key =>
    cases signed : checkSignature scheme key actionDomain "operator attestation" (stored times a) with
    | error e => simp [signed, Except.isOk, Except.toBool]
    | ok u => simp [signed, Except.isOk, Except.toBool, trusted]

/-- What is asked of an operator's statement is asked of its stored form. -/
theorem require_stored {attestation : Option OperatorAttestation} {purpose : Purpose}
    {outcome operator note : String} (present : approval.terms.approvalId ≠ "" ∧
      approval.terms.actionId ≠ "" ∧ approval.terms.requestId ≠ "")
    (timed : ∀ a ∈ attestation, Timed times clock now a approval) :
    (∃ status, require clock now scheme policy (attestation.map (stored times))
      (subjectOf times approval present) (Points.ofString purpose.text) (Points.ofString outcome)
      (Points.ofString operator) (Points.ofString note) = .ok status) ↔
    ∃ status, (trustOf times scheme policy).require attestation approval purpose outcome operator note
      (times.value now) = .ok status := by
  cases attestation with
  | none => simp [require, DefiantHarness.OperatorTrustPolicy.require, orRefuse]
  | some a =>
    have purposes : compareTexts a.purpose.text purpose.text = .ok true ↔ a.purpose = purpose := by
      cases a.purpose <;> cases purpose <;> decide
    have compared : compareFields (stored times a)
        (fun field => "operator attestation " ++ field ++ " does not match the requested action")
        [("purpose", .text (Points.ofString purpose.text)), ("outcome", .text (Points.ofString outcome)),
          ("operator", .text (TrustState.strip (Points.ofString operator))),
          ("note", .text (TrustState.strip (Points.ofString note)))] = .ok () ↔
        a.purpose = purpose ∧ compareTexts a.outcome outcome = .ok true ∧
          compareTexts a.operator (strip operator) = .ok true ∧
          compareTexts a.note (strip note) = .ok true := by
      rw [strip_ofString, strip_ofString, ← purposes]
      refine (compareFields_texts [("purpose", a.purpose.text, purpose.text), ("outcome", a.outcome, outcome),
        ("operator", a.operator, strip operator), ("note", a.note, strip note)] ?_).trans (by simp)
      simp [textOf, textAt, stored, fieldAt_record, textData]
    simp only [require, DefiantHarness.OperatorTrustPolicy.require, Option.map_some, orRefuse, ok_bind,
      verify_stored (timed a rfl), unit_bind_ok_iff, refuseIf_ok_iff, compared, requireSame_ok_iff,
      not_not, pure_ok_iff]
    simp only [exists_and_left, exists_eq, and_true, and_assoc]

/-! ### Authorizations -/

theorem validate_subject {subject : AuthorizationReconciliationSubject} (valid : subject.validate = .ok ()) :
    (∀ s ∈ [subject.authorityRecordId, subject.actionId, subject.requestId],
      Request.BoundedBy TrustState.maxNoteChars (Points.ofString s)) ∧
      isSha256 subject.authorityRecordHash = true ∧ isSha256 subject.authorizationHash = true := by
  simp only [AuthorizationReconciliationSubject.validate, unit_bind_ok_iff, refuseIf_ok_iff,
    boundedText_ofString, Bool.not_eq_false] at valid
  obtain ⟨recordId, _, actionId, requestId, _, recordHash, authorizationHash⟩ := valid
  exact ⟨by simpa using ⟨recordId, actionId, requestId⟩, recordHash, authorizationHash⟩

/-- An authorization that an operator reports on, as it is stored. -/
def authorizationOf (times : StoredTimes Instant) (subject : AuthorizationReconciliationSubject)
    (valid : subject.validate = .ok ()) : AuthorizationSubject where
  authorityRecordId := Points.ofString subject.authorityRecordId
  authorityRecordHash := Points.ofString subject.authorityRecordHash
  actionId := Points.ofString subject.actionId
  requestId := Points.ofString subject.requestId
  authorizationHash := Points.ofString subject.authorizationHash
  authorizedAt := times.text subject.authorizedAt
  bounded s member := by
    have texts := (validate_subject valid).1
    simp only [List.mem_cons, List.not_mem_nil, or_false, forall_eq_or_imp, forall_eq] at texts member
    rcases member with rfl | rfl | rfl
    exacts [texts.1, texts.2.1, texts.2.2]
  hashes := by simpa only [isHash_ofString] using (validate_subject valid).2

variable {b : AuthorizationAttestation} {subject : AuthorizationReconciliationSubject}

theorem validateAuthorization_stored (signed : times.Spelled clock b.signedAt) :
    validateAuthorizationReconciliation clock (storedAuthorization times b) = .ok () ↔
      OperatorTrustPolicy.checkAuthorizationSchema b = .ok () ∧
        ∃ octets, decodeSignature (Points.ofString b.signature) = .ok octets := by
  have names : namesExactly authorizationFields (storedAuthorization times b) = true := by
    rw [namesExactly, storedAuthorization, record]
    simp only [List.map_cons, List.map_nil]
    decide +kernel
  have headed : requireHeadings "authorization reconciliation" authorizationSchema
      (storedAuthorization times b) = .ok () := by
    simp [requireHeadings, storedAuthorization, textAt, fieldAt_record, textData, refuseIf_of_not]
  have stamp : timestampText clock
      (fieldAt (Points.ofString "signed_at") (storedAuthorization times b)) "signed_at" =
        .ok (times.text b.signedAt) := by
    obtain ⟨instant, stamped, _⟩ := signed
    exact timestampText_field (by simp [storedAuthorization, fieldAt_record]) stamped
  have outcome : Points.ofString b.outcome ∈ outcomes ↔ b.outcome ∈ ["succeeded", "failed", "not_executed"] :=
    List.mem_map_of_injective fun _ _ => ofString_injective
  simp only [validateAuthorizationReconciliation,
    DefiantHarness.OperatorTrustPolicy.checkAuthorizationSchema, unit_bind_ok_iff, refuseIf_ok_iff,
    requireTexts_ok_iff, checkAll_ok_iff, names, headed, stamp, boundedText_ofString, ← isHash_ofString,
    ok_bind, ← outcome]
  simp only [bind_ok_iff, pure_ok_iff, and_true]
  simp [textOf, textAt, storedAuthorization, fieldAt_record, textData, TrustState.maxNoteChars, maxNoteChars,
    and_assoc]

theorem verifyAuthorization_stored {valid : subject.validate = .ok ()}
    (signed : times.Spelled clock b.signedAt) (authorized : times.Spelled clock subject.authorizedAt)
    (horizon : times.value (clock.horizon now) = times.value now + fiveMinutes) :
    (verifyAuthorizationReconciliation clock now scheme policy (storedAuthorization times b)
      (authorizationOf times subject valid)).ok =
      ((trustOf times scheme policy).verifyAuthorizationReconciliation b subject
        (times.value now)).ok := by
  obtain ⟨signedAt, signedText, signedValue⟩ := signed
  obtain ⟨authorizedAt, authorizedText, authorizedValue⟩ := authorized
  have operator : textOf "operator" (storedAuthorization times b) = Points.ofString b.operator := by
    simp [textOf, textAt, storedAuthorization, fieldAt_record, textData]
  have keyId : textOf "key_id" (storedAuthorization times b) = Points.ofString b.keyId := by
    simp [textOf, textAt, storedAuthorization, fieldAt_record, textData]
  have stamp : textOf "signed_at" (storedAuthorization times b) = times.text b.signedAt := by
    simp [textOf, textAt, storedAuthorization, fieldAt_record]
  have signature : textOf "signature" (storedAuthorization times b) = Points.ofString b.signature := by
    simp [textOf, textAt, storedAuthorization, fieldAt_record, textData]
  have compared : compareFields (storedAuthorization times b)
      (fun field => "authorization reconciliation " ++ field ++ " does not match authority")
      [("authority_record_id", .text (Points.ofString subject.authorityRecordId)),
        ("authority_record_hash", .text (Points.ofString subject.authorityRecordHash)),
        ("action_id", .text (Points.ofString subject.actionId)),
        ("request_id", .text (Points.ofString subject.requestId)),
        ("authorization_hash", .text (Points.ofString subject.authorizationHash))] = .ok () ↔
      OperatorTrustPolicy.checkSubject b subject = .ok () := by
    refine (compareFields_texts [("authority_record_id", b.authorityRecordId, subject.authorityRecordId),
      ("authority_record_hash", b.authorityRecordHash, subject.authorityRecordHash),
      ("action_id", b.actionId, subject.actionId), ("request_id", b.requestId, subject.requestId),
      ("authorization_hash", b.authorizationHash, subject.authorizationHash)] ?_).trans ?_
    · simp [textOf, textAt, storedAuthorization, fieldAt_record, textData]
    · simp [DefiantHarness.OperatorTrustPolicy.checkSubject, unit_bind_ok_iff, requireSame_ok_iff]
  have begun : authorizedAt ≤ signedAt ↔ subject.authorizedAt ≤ b.signedAt := by
    rw [← signedValue, ← authorizedValue, times.mono.le_iff_le]
  have past : signedAt ≤ clock.horizon now ↔ b.signedAt ≤ times.value now + fiveMinutes := by
    rw [← signedValue, ← horizon, times.mono.le_iff_le]
  rw [Bool.eq_iff_iff, verifyAuthorizationReconciliation,
    DefiantHarness.OperatorTrustPolicy.verifyAuthorizationReconciliation, caught_ok_iff, status_caught_ok_iff]
  simp only [unit_bind_ok_iff, refuseIf_ok_iff]
  simp only [bind_ok_iff, pure_ok_iff, operator, trustedKey, keyId, orRefuse_ok_iff, Unique.exists_iff,
    PUnit.default_eq_unit, validateAuthorization_stored ⟨signedAt, signedText, signedValue⟩,
    authorizationOf, compared, stamp, parsedTimestamp_ok_iff, signedText.2, authorizedText.2,
    Option.some.injEq, exists_eq_left', not_lt, trustOf]
  cases policy.key? (Points.ofString b.operator) (Points.ofString b.keyId) with
  | none => simp
  | some key =>
    cases signed : checkSignature scheme key authorizationDomain "authorization reconciliation"
        (storedAuthorization times b) with
    | error e => simp [signed, Except.isOk, Except.toBool]
    | ok u =>
      -- a signature that verifies was decoded
      have decoded : ∃ octets, decodeSignature (Points.ofString b.signature) = .ok octets := by
        rw [checkSignature, signature, bind_ok_iff] at signed
        obtain ⟨octets, decoded, _⟩ := signed
        exact ⟨octets, decoded⟩
      simp [signed, Except.isOk, Except.toBool, trusted, decoded, begun, past]

/-- What is asked of an operator's report on an authorization is asked of its stored form. -/
theorem requireAuthorization_stored {attestation : Option AuthorizationAttestation}
    {outcome operator note : String} (valid : subject.validate = .ok ())
    (signed : ∀ b ∈ attestation, times.Spelled clock b.signedAt)
    (authorized : times.Spelled clock subject.authorizedAt)
    (horizon : times.value (clock.horizon now) = times.value now + fiveMinutes) :
    (∃ status, requireAuthorizationReconciliation clock now scheme policy
      (attestation.map (storedAuthorization times)) (authorizationOf times subject valid)
      (Points.ofString outcome) (Points.ofString operator) (Points.ofString note) = .ok status) ↔
    ∃ status, (trustOf times scheme policy).requireAuthorizationReconciliation attestation subject outcome
      operator note (times.value now) = .ok status := by
  cases attestation with
  | none => simp [requireAuthorizationReconciliation,
      DefiantHarness.OperatorTrustPolicy.requireAuthorizationReconciliation, orRefuse]
  | some b =>
    have compared : compareFields (storedAuthorization times b)
        (fun field => "authorization reconciliation " ++ field ++ " does not match")
        [("outcome", .text (Points.ofString outcome)),
          ("operator", .text (TrustState.strip (Points.ofString operator))),
          ("note", .text (TrustState.strip (Points.ofString note)))] = .ok () ↔
        compareTexts b.outcome outcome = .ok true ∧
          compareTexts b.operator (strip operator) = .ok true ∧
          compareTexts b.note (strip note) = .ok true := by
      rw [strip_ofString, strip_ofString]
      refine (compareFields_texts [("outcome", b.outcome, outcome), ("operator", b.operator, strip operator),
        ("note", b.note, strip note)] ?_).trans (by simp)
      simp [textOf, textAt, storedAuthorization, fieldAt_record, textData]
    simp only [requireAuthorizationReconciliation,
      DefiantHarness.OperatorTrustPolicy.requireAuthorizationReconciliation, Option.map_some, orRefuse,
      ok_bind, verifyAuthorization_stored (signed b rfl) authorized horizon, unit_bind_ok_iff,
      refuseIf_ok_iff, compared, requireSame_ok_iff, pure_ok_iff]
    simp only [exists_and_left, exists_eq, and_true, and_assoc]

end OperatorSigning
end DefiantHarness
