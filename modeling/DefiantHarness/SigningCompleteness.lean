import DefiantHarness.OperatorSigning
import DefiantHarness.PublicationRecords

/-! Whether a signed statement passes the verifier of its kind, and what the others make of it. -/
namespace DefiantHarness

open Foundation

namespace OperatorSigning

open TrustState hiding strip maxNoteChars OperatorTrustPolicy boundedText hash timestamp
open AuthorityPublication (record_names record_nodup fieldAt_entry namesExactly_iff)

/-! ### Signature texts -/

theorem sextet_sextetPoint {n : Nat} (small : n < 64) : sextet (sextetPoint n) = some n := by
  have all : ∀ i : Fin 64, sextet (sextetPoint i) = some i.val := by decide +kernel
  exact all ⟨n, small⟩

theorem sextetPoint_digit {n : Nat} (small : n < 64) : sextetPoint n ≠ CodePoint.ofChar '=' := by
  have all : ∀ i : Fin 64, sextetPoint i ≠ CodePoint.ofChar '=' := by decide +kernel
  exact all ⟨n, small⟩

theorem padding_one : Points.ofString "=" = [CodePoint.ofChar '='] := rfl

theorem padding_two : Points.ofString "==" = [CodePoint.ofChar '=', CodePoint.ofChar '='] := rfl

/-- Strict decoding gives back what was encoded. -/
theorem base64Bytes_base64Text : ∀ {bytes : List Nat}, (∀ b ∈ bytes, b < 256) →
    base64Bytes (base64Text bytes) = some bytes
  | [], _ => rfl
  | [a], each => by
    have small := each a (by simp)
    have first := sextet_sextetPoint (n := a / 4) (by omega)
    have second := sextet_sextetPoint (n := a % 4 * 16) (by omega)
    rw [base64Text, padding_two, List.cons_append, List.cons_append, List.nil_append, base64Bytes,
      padding_two]
    simp only [first, second, and_self, ↓reduceIte, bind, Option.bind, pure]
    rw [Option.some.injEq, List.cons.injEq]
    exact ⟨by omega, rfl⟩
  -- the last one or two bytes leave zero bits and padding behind
  | [a, b], each => by
    have small := each a (by simp)
    have small' := each b (by simp)
    have first := sextet_sextetPoint (n := a / 4) (by omega)
    have second := sextet_sextetPoint (n := a % 4 * 16 + b / 16) (by omega)
    have third := sextet_sextetPoint (n := b % 16 * 4) (by omega)
    have digit := sextetPoint_digit (n := b % 16 * 4) (by omega)
    rw [base64Text, padding_one, List.cons_append, List.cons_append, List.cons_append, List.nil_append,
      base64Bytes, padding_two, padding_one]
    simp only [first, second, third, List.cons.injEq, digit, and_true, and_self, ↓reduceIte,
      bind, Option.bind, pure]
    rw [Option.some.injEq, List.cons.injEq, List.cons.injEq]
    exact ⟨by omega, by omega, rfl⟩
  | a :: b :: c :: rest, each => by
    have ih := base64Bytes_base64Text fun (x : Nat) (member : x ∈ rest) => each x (by simp [member])
    have small := each a (by simp)
    have small' := each b (by simp)
    have small'' := each c (by simp)
    have first := sextet_sextetPoint (n := a / 4) (by omega)
    have second := sextet_sextetPoint (n := a % 4 * 16 + b / 16) (by omega)
    have third := sextet_sextetPoint (n := b % 16 * 4 + c / 64) (by omega)
    have fourth := sextet_sextetPoint (n := c % 64) (by omega)
    have digit := sextetPoint_digit (n := b % 16 * 4 + c / 64) (by omega)
    have digit' := sextetPoint_digit (n := c % 64) (by omega)
    rw [base64Text, List.cons_append, List.cons_append, List.cons_append, List.cons_append,
      List.nil_append, base64Bytes, padding_two, padding_one]
    simp only [first, second, third, fourth, List.cons.injEq, digit, digit', false_and, ↓reduceIte,
      bind, Option.bind, pure, ih, List.cons_append, List.nil_append]
    rw [Option.some.injEq, List.cons.injEq, List.cons.injEq, List.cons.injEq]
    exact ⟨by omega, by omega, by omega, rfl⟩

theorem base64Text_length : ∀ bytes : List Nat, (base64Text bytes).length = (bytes.length + 2) / 3 * 4
  | [] => rfl
  | [_] => by simp [base64Text, padding_two]
  | [_, _] => by simp [base64Text, padding_one]
  | _ :: _ :: _ :: rest => by
    rw [base64Text, List.length_append, base64Text_length rest]
    simp only [List.length_cons, List.length_nil]
    omega

section Signatures

variable {Key : Type} {scheme : SignatureScheme Key} (key : SigningKey scheme) (message : List Char)

/-- A signature as it stands in a statement. -/
def signatureText : Points := Points.ofString "base64:" ++ base64Text (key.sign message)

theorem decode_signatureText : decodeSignature (signatureText key message) = .ok (key.sign message) := by
  have heading : (Points.ofString "base64:").length = 7 := rfl
  have read : base64Bytes ((signatureText key message).drop 7) = some (key.sign message) := by
    rw [signatureText, ← heading, List.drop_left, base64Bytes_base64Text (key.octets message).2]
  have starts : (Points.ofString "base64:").isPrefixOf (signatureText key message) = true := by
    rw [List.isPrefixOf_iff_prefix]
    exact List.prefix_append _ _
  simp [decodeSignature, starts, read, orRefuse, refuseIf_of_not, (key.octets message).1]

theorem bounded_signatureText (field : String) :
    TrustState.boundedText (some (.str (signatureText key message))) field TrustState.maxNoteChars =
      .ok (signatureText key message) := by
  have short : (signatureText key message).length = 95 := by
    rw [signatureText, List.length_append, base64Text_length, (key.octets message).1]
    rfl
  have visible : (signatureText key message).all blankPoint = false := rfl
  simp [TrustState.boundedText, short, visible, refuseIf_of_not, TrustState.maxNoteChars]

/-! ### Signed statements -/

section Attested

variable {domain : String} {statement : List (String × Data)}

theorem attest_eq : attest scheme key domain statement = record (statement ++ [("signature",
    .str (signatureText key (domain.toList ++ (Data.obj (record statement)).canonical)))]) := rfl

/-- No name of a statement stands twice or for the signature. -/
def Named (statement : List (String × Data)) : Prop := (statement.map (·.1) ++ ["signature"]).Nodup

theorem fieldAt_attest (named : Named statement) {name : String} {x : Data}
    (listed : (name, x) ∈ statement) :
    fieldAt (Points.ofString name) (attest scheme key domain statement) = some x := by
  rw [attest_eq]
  refine fieldAt_entry (e := (name, x)) ?_ (List.mem_append_left _ listed)
  rw [List.map_append]
  exact named

theorem textAt_attest (named : Named statement) {name : String} {s : Points}
    (listed : (name, Data.str s) ∈ statement) :
    textAt name (attest scheme key domain statement) = some s := by
  rw [textAt, fieldAt_attest key named listed]

theorem textOf_attest (named : Named statement) {name : String} {s : Points}
    (listed : (name, Data.str s) ∈ statement) :
    textOf name (attest scheme key domain statement) = s := by
  rw [textOf, textAt_attest key named listed, Option.getD_some]

theorem signature_attest (named : Named statement) :
    fieldAt (Points.ofString "signature") (attest scheme key domain statement) =
      some (.str (signatureText key (domain.toList ++ (Data.obj (record statement)).canonical))) := by
  rw [attest_eq]
  refine fieldAt_entry (e := ("signature", _)) ?_ (List.mem_append_right _ (List.mem_singleton_self _))
  rw [List.map_append]
  exact named

theorem namesExactly_attest {names : List String} :
    namesExactly names (attest scheme key domain statement) = true ↔
      (statement.map (·.1) ++ ["signature"]).Perm names := by
  rw [attest_eq, namesExactly_iff, record_names, List.map_append]
  exact List.map_perm_map_iff fun _ _ => ofString_injective

/-- A signature covers the statement that it stands in. -/
theorem signedBytes_attest (named : Named statement) :
    signedBytes domain (attest scheme key domain statement) =
      domain.toList ++ (Data.obj (record statement)).canonical := by
  have apart : ∀ f ∈ record statement, (f.1 != Points.ofString "signature") = true := by
    intro f member
    obtain ⟨e, listed, rfl⟩ := List.mem_map.1 member
    rw [bne_iff_ne]
    intro same
    have name : e.1 = "signature" := ofString_injective same
    have disjoint := (List.nodup_append.1 named).2.2
    exact disjoint e.1 (List.mem_map_of_mem listed) "signature" (by simp) name
  rw [signedBytes, attest_eq, record, List.map_append, List.filter_append]
  have kept := List.filter_eq_self.2 apart
  rw [record] at kept
  rw [kept]
  simp [record]

theorem checkSignature_attest (named : Named statement) (label : String) :
    checkSignature scheme key.publicKey domain label (attest scheme key domain statement) = .ok () := by
  have text : textOf "signature" (attest scheme key domain statement) =
      signatureText key (domain.toList ++ (Data.obj (record statement)).canonical) := by
    rw [textOf, textAt, signature_attest key named, Option.getD_some]
  rw [checkSignature, text, decode_signatureText, ok_bind, signedBytes_attest key named, key.accepted]
  exact refuseIf_of_not (by decide)

end Attested

/-! ### Comparisons -/

namespace Bound

/-- A text that can be compared in constant time, or a number. -/
def Plain : Bound → Prop
  | .text s => asciiPoints s = true
  | .number _ => True

instance : (value : Bound) → Decidable value.Plain
  | .text s => inferInstanceAs (Decidable (asciiPoints s = true))
  | .number _ => isTrue trivial

def isText : Bound → Bool
  | .text _ => true
  | .number _ => false

def data : Bound → Data
  | .text s => .str s
  | .number i => .int i

end Bound

section Comparisons

variable {attestation : List Field} {message : String → String}

/-- What comparing texts outside ASCII raises. -/
def unsupported : HarnessError :=
  ⟨.value, "comparing strings with non-ASCII characters is not supported"⟩

theorem compareDigest_error {s t : Points} (odd : asciiPoints s = false ∨ asciiPoints t = false) :
    compareDigest s t = .error unsupported := by
  simp [compareDigest, odd, refuseIf, unsupported]

theorem compareDigest_eq {s t : Points} (left : asciiPoints s = true) (right : asciiPoints t = true) :
    compareDigest s t = .ok (s == t) := by
  simp [compareDigest, left, right, refuseIf_of_not]

/-- The field of an attestation that holds a value. -/
def Carries (attestation : List Field) (e : String × Bound) : Prop :=
  fieldAt (Points.ofString e.1) attestation = some e.2.data

theorem Carries.text {name : String} {s : Points} (carries : Carries attestation (name, .text s)) :
    textOf name attestation = s := by
  rw [Carries] at carries
  rw [textOf, textAt, carries]
  rfl

theorem Carries.number {name : String} {i : Int} (carries : Carries attestation (name, .number i)) :
    intAt name attestation = some i := by
  rw [Carries] at carries
  rw [intAt, carries]
  rfl

/-- A comparison of a value with itself fails outside ASCII, and else succeeds. -/
theorem compareField_own {e : String × Bound} (carries : Carries attestation e) :
    compareField attestation message e = .ok () ↔ e.2.Plain := by
  obtain ⟨name, s | i⟩ := e
  · rw [compareField, carries.text, Bound.Plain]
    cases plain : asciiPoints s with
    | true => simp [compareDigest_eq plain plain, refuseIf_of_not]
    | false => simp [compareDigest_error (.inl plain)]
  · simp [compareField, carries.number, Bound.Plain]

theorem compareField_own_error (message : String → String) {e : String × Bound} (carries : Carries attestation e)
    (odd : ¬ e.2.Plain) :
    ∃ x, compareField attestation message e = .error x ∧ x.kind ≠ .operatorIdentity := by
  obtain ⟨name, s | i⟩ := e
  · rw [compareField, carries.text]
    have odd' : asciiPoints s = false := by simpa [Bound.Plain] using odd
    refine ⟨unsupported, ?_, by decide⟩
    dsimp only
    rw [compareDigest_error (.inl odd')]
    rfl
  · exact absurd trivial odd

/-- A comparison with another value is a refusal where both can be compared. -/
theorem compareField_other (message : String → String) {name : String} {v w : Bound}
    (carries : Carries attestation (name, v)) (sort : v.isText = w.isText) (apart : v ≠ w) :
    ∃ x, compareField attestation message (name, w) = .error x ∧
      (x.kind = .operatorIdentity ↔ v.Plain ∧ w.Plain) := by
  cases v with
  | text s => cases w with
    | number i => cases sort
    | text t =>
      rw [compareField, carries.text]
      -- a text that is not ASCII cannot be compared at all
      by_cases plain : asciiPoints s = true ∧ asciiPoints t = true
      · refine ⟨trustError (message name), ?_, iff_of_true rfl plain⟩
        have other : (s == t) = false := by simpa using apart
        simp [compareDigest_eq plain.1 plain.2, other, refuseIf]
      · have odd : asciiPoints s = false ∨ asciiPoints t = false := by
          cases left : asciiPoints s <;> cases right : asciiPoints t <;> simp_all
        refine ⟨unsupported, ?_, iff_of_false (by decide) plain⟩
        dsimp only
        rw [compareDigest_error odd]
        rfl
  | number i => cases w with
    | text t => cases sort
    | number j =>
      refine ⟨trustError (message name), ?_, iff_of_true rfl ⟨trivial, trivial⟩⟩
      have other : some i ≠ some j := by simpa using apart
      simp [compareField, carries.number, refuseIf, other]

/-- Two values of one sort that stand under one name. -/
def Aligned (e f : String × Bound) : Prop := e.1 = f.1 ∧ e.2.isText = f.2.isText

/-- Every comparison up to the first difference is one of plain values. -/
def Comparable : List (String × Bound) → List (String × Bound) → Prop
  | (_, v) :: own, (_, w) :: expected => v.Plain ∧ w.Plain ∧ (v = w → Comparable own expected)
  | _, _ => True

/-- A list of comparisons succeeds on equal values and refuses other ones, unless it raises. -/
theorem compareFields_cases (message : String → String) {own expected : List (String × Bound)}
    (carries : ∀ e ∈ own, Carries attestation e) (aligned : List.Forall₂ Aligned own expected) :
    (expected = own → (compareFields attestation message expected = .ok () ↔ Comparable own expected)) ∧
      (expected ≠ own → ∃ x, compareFields attestation message expected = .error x ∧
        (x.kind = .operatorIdentity ↔ Comparable own expected)) := by
  induction aligned with
  | nil => simp [compareFields, checkAll, Comparable]
  | @cons e f own expected same rest ih =>
    obtain ⟨name, v⟩ := e
    obtain ⟨_, w⟩ := f
    obtain ⟨rfl, sort⟩ := same
    have carried := carries _ List.mem_cons_self
    have ih := ih fun g member => carries g (List.mem_cons_of_mem _ member)
    rw [compareFields, checkAll, Comparable]
    rw [compareFields] at ih
    -- the first difference ends the comparison, so the rest matters only behind equal fields
    by_cases equal : v = w
    · subst equal
      simp only [ne_eq, List.cons.injEq, true_and, forall_const]
      by_cases plain : v.Plain
      · rw [(compareField_own carried).2 plain, ok_bind]
        simp only [plain, true_and]
        exact ih
      · obtain ⟨x, raised, kind⟩ := compareField_own_error message carried plain
        simp [raised, plain, kind]
    · obtain ⟨x, raised, kind⟩ := compareField_other message carried sort equal
      have different : w ≠ v := Ne.symm equal
      simp [raised, kind, equal, different]

theorem compareFields_ok_iff {own expected : List (String × Bound)} {u : Unit}
    (carries : ∀ e ∈ own, Carries attestation e) (aligned : List.Forall₂ Aligned own expected) :
    compareFields attestation message expected = .ok u ↔ expected = own ∧ ∀ e ∈ own, e.2.Plain := by
  induction aligned with
  | nil => simp [compareFields, checkAll]
  | @cons e f own expected same rest ih =>
    have ih := ih fun g member => carries g (List.mem_cons_of_mem _ member)
    obtain ⟨name, v⟩ := e
    obtain ⟨_, w⟩ := f
    obtain ⟨rfl, sort⟩ := same
    rw [compareFields, checkAll, unit_bind_ok_iff]
    rw [compareFields] at ih
    rw [ih]
    by_cases equal : v = w
    · subst equal
      rw [compareField_own (carries _ List.mem_cons_self)]
      simp only [List.cons.injEq, true_and, List.mem_cons, forall_eq_or_imp]
      tauto
    · obtain ⟨x, raised, _⟩ := compareField_other message (carries _ List.mem_cons_self) sort equal
      rw [raised]
      simp only [reduceCtorEq, false_and, List.cons.injEq, Prod.mk.injEq, true_and, false_iff, not_and]
      exact fun same => absurd same.1.symm equal

end Comparisons

/-! ### Requests -/

/-- The two statements about generations. -/
inductive Rotation where
  | trust | profile
deriving DecidableEq

def Rotation.kind : Rotation → TransitionKind
  | trust => trustTransition
  | profile => authorityProfileTransition

/-- What is signed, and what a verifier is asked about. -/
inductive Request where
  | action (approval : ApprovalSubject) (purpose outcome operator note : Points)
  | authorization (subject : AuthorizationSubject) (outcome operator note : Points)
  | transition (rotation : Rotation) (fromGeneration : Int) (fromHash toHash operator note : Points)

namespace Request

/-- The functions that sign and verify a request. -/
inductive Shape where
  | action | authorization | transition (rotation : Rotation)
deriving DecidableEq

def shape : Request → Shape
  | action .. => .action
  | authorization .. => .authorization
  | transition rotation .. => .transition rotation

/-- The five kinds of attestations; other purposes have none. -/
def kind : Request → Option (Shape × String)
  | action _ purpose _ _ _ =>
    if purpose = Points.ofString decisionPurpose then some (.action, decisionPurpose)
    else if purpose = Points.ofString reconciliationPurpose then some (.action, reconciliationPurpose)
    else none
  | authorization .. => some (.authorization, authorizationPurpose)
  | transition rotation .. => some (.transition rotation, rotation.kind.purpose)

def operator : Request → Points
  | action _ _ _ operator _ => operator
  | authorization _ _ operator _ => operator
  | transition _ _ _ _ operator _ => operator

/-- The request as it stands in its statement: the outcome is stripped of blanks. -/
def signed : Request → Request
  | action approval purpose outcome operator note =>
    action approval purpose (TrustState.strip outcome) operator note
  | authorization subject outcome operator note =>
    authorization subject (TrustState.strip outcome) operator note
  | transition rotation fromGeneration fromHash toHash operator note =>
    transition rotation fromGeneration fromHash toHash operator note

/-- The values of the subject, which are compared first. -/
def subject : Request → List (String × Bound)
  | action a _ _ _ _ => [("approval_id", .text a.approvalId), ("action_id", .text a.actionId),
      ("request_id", .text a.requestId), ("authorization_hash", .text a.authorizationHash)]
  | authorization s _ _ _ => [("authority_record_id", .text s.authorityRecordId),
      ("authority_record_hash", .text s.authorityRecordHash), ("action_id", .text s.actionId),
      ("request_id", .text s.requestId), ("authorization_hash", .text s.authorizationHash)]
  | transition .. => []

def named (operator note : Points) : List (String × Bound) :=
  [("operator", .text (TrustState.strip operator)), ("note", .text (TrustState.strip note))]

/-- The values that the caller of a verifier asks for, in the order they are compared. -/
def asked : Request → List (String × Bound)
  | action _ purpose outcome operator note =>
    [("purpose", .text purpose), ("outcome", .text outcome)] ++ named operator note
  | authorization _ outcome operator note => ("outcome", .text outcome) :: named operator note
  | transition rotation fromGeneration fromHash toHash operator note =>
    [("from_generation", .number fromGeneration), (rotation.kind.fromHash, .text fromHash),
      (rotation.kind.toHash, .text toHash)] ++ named operator note

/-- The comparisons a verifier makes after the subject; both generations of a transition are compared. -/
def compared : Request → List (String × Bound)
  | transition rotation fromGeneration fromHash toHash operator note =>
    [("from_generation", .number fromGeneration), ("to_generation", .number (fromGeneration + 1)),
      (rotation.kind.fromHash, .text fromHash), (rotation.kind.toHash, .text toHash)] ++ named operator note
  | r => r.asked

/-- Everything that a statement binds. -/
def values (r : Request) : List (String × Bound) := r.subject ++ r.asked

end Request

section Requests

variable {Instant Key : Type} [LinearOrder Instant] (clock : WallClock Instant) (now : Instant)
  (sha : TextHash) (scheme : SignatureScheme Key)

namespace Request

/-- The signer of a request. -/
def sign (path : String) (loaded : Option (SigningKey scheme)) (signedAt : Option Points) :
    Request → Except HarnessError (List Field)
  | action approval purpose outcome operator note => signOperatorAction clock now sha scheme path loaded
      signedAt approval purpose outcome operator note
  | authorization subject outcome operator note => signAuthorizationReconciliation clock now sha scheme
      path loaded signedAt subject outcome operator note
  | transition .trust fromGeneration fromHash toHash operator note => signTrustTransition clock now sha
      scheme path loaded signedAt fromGeneration fromHash toHash operator note
  | transition .profile fromGeneration fromHash toHash operator note => signAuthorityProfileTransition
      clock now sha scheme path loaded signedAt fromGeneration fromHash toHash operator note

/-- The verifier of a request. -/
def require (policy : TrustState.OperatorTrustPolicy Key) (attestation : Option (List Field)) :
    Request → Except HarnessError IdentityStatus
  | action approval purpose outcome operator note => OperatorSigning.require clock now scheme policy
      attestation approval purpose outcome operator note
  | authorization subject outcome operator note => requireAuthorizationReconciliation clock now scheme
      policy attestation subject outcome operator note
  | transition .trust fromGeneration fromHash toHash operator note => requireTrustTransition clock now
      scheme policy attestation fromGeneration fromHash toHash operator note
  | transition .profile fromGeneration fromHash toHash operator note =>
      requireAuthorityProfileTransition clock now scheme policy attestation fromGeneration fromHash toHash
        operator note

/-- The time of signing lies in the window that the verifier leaves: the subject has begun, a decision
is not expired, a report follows its decision, and the clock is at most five minutes behind. -/
def InWindow (purpose : Points) (time : Instant) : Request → Prop
  | action approval _ _ _ _ =>
    (∃ created, clock.parse approval.createdAt = some (some created) ∧ created ≤ time) ∧
      time ≤ clock.horizon now ∧
      (purpose = Points.ofString decisionPurpose → approval.expiresAt ≠ [] →
        ∃ expires, clock.parse approval.expiresAt = some (some expires) ∧ time < expires) ∧
      (purpose = Points.ofString reconciliationPurpose → approval.decidedAt.getD [] ≠ [] →
        ∃ decided, clock.parse (approval.decidedAt.getD []) = some (some decided) ∧ decided ≤ time)
  | authorization subject _ _ _ =>
    (∃ authorized, clock.parse subject.authorizedAt = some (some authorized) ∧ authorized ≤ time) ∧
      time ≤ clock.horizon now
  | transition .. => time ≤ clock.horizon now

/-- The statement that a request is signed as. -/
def statement (key : SigningKey scheme) (time : Points) : Request → List (String × Data)
  | action a purpose outcome operator note =>
    headings sha scheme attestationSchema purpose key time (TrustState.strip operator)
      (TrustState.strip note) ++ [("outcome", .str (TrustState.strip outcome)),
      ("approval_id", .str a.approvalId), ("action_id", .str a.actionId), ("request_id", .str a.requestId),
      ("authorization_hash", .str a.authorizationHash)]
  | authorization s outcome operator note =>
    headings sha scheme authorizationSchema (Points.ofString authorizationPurpose) key time
      (TrustState.strip operator) (TrustState.strip note) ++ [("outcome", .str (TrustState.strip outcome)),
      ("authority_record_id", .str s.authorityRecordId),
      ("authority_record_hash", .str s.authorityRecordHash), ("action_id", .str s.actionId),
      ("request_id", .str s.requestId), ("authorization_hash", .str s.authorizationHash)]
  | transition rotation fromGeneration fromHash toHash operator note =>
    headings sha scheme rotation.kind.schemaName (Points.ofString rotation.kind.purpose) key time
      (TrustState.strip operator) (TrustState.strip note) ++ [("from_generation", .int fromGeneration),
      ("to_generation", .int (fromGeneration + 1)), (rotation.kind.fromHash, .str fromHash),
      (rotation.kind.toHash, .str toHash)]

def domain (r : Request) : String :=
  match r.shape with
  | .action => actionDomain
  | .authorization => authorizationDomain
  | .transition rotation => rotation.kind.domain

def BoundedBy (maximum : Nat) (s : Points) : Prop := s.all blankPoint = false ∧ s.length ≤ maximum

/-- What a signer asks of a request. -/
def Signable : Request → Prop
  | action _ purpose outcome operator note => purpose ∈ purposes ∧
      BoundedBy maxOperatorChars (TrustState.strip operator) ∧
      BoundedBy TrustState.maxNoteChars (TrustState.strip note) ∧ BoundedBy 64 (TrustState.strip outcome)
  | authorization _ outcome operator note => TrustState.strip outcome ∈ outcomes ∧
      BoundedBy maxOperatorChars (TrustState.strip operator) ∧
      BoundedBy TrustState.maxNoteChars (TrustState.strip note) ∧ BoundedBy 64 (TrustState.strip outcome)
  | transition _ fromGeneration fromHash toHash operator note => 1 ≤ fromGeneration ∧
      isHash fromHash = true ∧ isHash toHash = true ∧ fromHash ≠ toHash ∧
      BoundedBy maxOperatorChars (TrustState.strip operator) ∧
      BoundedBy TrustState.maxNoteChars (TrustState.strip note)

end Request

/-! ### What signers leave -/

variable {clock now sha scheme}

theorem boundedText_str_ok_iff {s t : Points} {field : String} {maximum : Nat} :
    TrustState.boundedText (some (.str s)) field maximum = .ok t ↔
      Request.BoundedBy maximum s ∧ t = s := by
  simp only [TrustState.boundedText, refuseIf_bind_ok_iff, pure_ok_iff, Bool.not_eq_true, not_lt,
    Request.BoundedBy, and_assoc]

/-- A text that a timestamp may be, and the time it names. -/
def Stamped (clock : WallClock Instant) (text : Points) (time : Instant) : Prop :=
  Request.BoundedBy 128 text ∧ clock.parse text = some (some time)

theorem timestampText_ok_iff {s t : Points} {field : String} :
    timestampText clock (some (.str s)) field = .ok t ↔ t = s ∧ ∃ time, Stamped clock s time := by
  simp only [timestampText, parsedTimestamp, bind_ok_iff, boundedText_str_ok_iff, orRefuse_ok_iff,
    pure_ok_iff, Stamped]
  constructor
  · rintro ⟨_, ⟨bounded, rfl⟩, time, ⟨_, parsed, rfl⟩, rfl⟩
    exact ⟨rfl, time, bounded, parsed⟩
  · rintro ⟨rfl, time, bounded, parsed⟩
    exact ⟨_, ⟨bounded, rfl⟩, time, ⟨_, parsed, rfl⟩, rfl⟩

theorem signingTime_ok {signedAt : Option Points} {text : Points}
    (read : signingTime clock now signedAt = .ok text) : ∃ time, Stamped clock text time := by
  obtain ⟨rfl, time, stamped⟩ := timestampText_ok_iff.1 read
  exact ⟨time, stamped⟩

/-- What a signer accepts, it signs as the statement of the request. -/
theorem Request.sign_ok {r : Request} {path : String} {loaded : Option (SigningKey scheme)}
    {signedAt : Option Points} {attestation : List Field}
    (signed : r.sign clock now sha scheme path loaded signedAt = .ok attestation) :
    ∃ key text time, loaded = some key ∧ Stamped clock text time ∧ r.Signable ∧
      attestation = attest scheme key r.domain (r.statement sha scheme key text) := by
  cases r with
  | action approval purpose outcome operator note =>
    simp only [Request.sign, signOperatorAction, bind_ok_iff, refuseIf_ok_iff, not_not,
      boundedText_str_ok_iff, loadPrivateKey, orRefuse_ok_iff, pure_ok_iff] at signed
    obtain ⟨_, listed, _, ⟨operatorBound, rfl⟩, _, ⟨noteBound, rfl⟩, _, ⟨outcomeBound, rfl⟩, key, loaded,
      text, stamp, rfl⟩ := signed
    obtain ⟨time, stamped⟩ := signingTime_ok stamp
    exact ⟨key, text, time, loaded, stamped, ⟨listed, operatorBound, noteBound, outcomeBound⟩, rfl⟩
  | authorization subject outcome operator note =>
    simp only [Request.sign, signAuthorizationReconciliation, bind_ok_iff, refuseIf_ok_iff, not_not,
      boundedText_str_ok_iff, loadPrivateKey, orRefuse_ok_iff, pure_ok_iff] at signed
    obtain ⟨_, ⟨operatorBound, rfl⟩, _, ⟨noteBound, rfl⟩, _, ⟨outcomeBound, rfl⟩, _, listed, key, loaded,
      text, stamp, rfl⟩ := signed
    obtain ⟨time, stamped⟩ := signingTime_ok stamp
    exact ⟨key, text, time, loaded, stamped, ⟨listed, operatorBound, noteBound, outcomeBound⟩, rfl⟩
  | transition rotation fromGeneration fromHash toHash operator note =>
    have signed' : signTransition clock now sha scheme path loaded signedAt rotation.kind fromGeneration
        fromHash toHash operator note = .ok attestation := by
      cases rotation <;> exact signed
    simp only [signTransition, bind_ok_iff, refuseIf_ok_iff, not_lt, not_or, Bool.not_eq_false,
      Bool.not_eq_true, boundedText_str_ok_iff, loadPrivateKey, orRefuse_ok_iff, pure_ok_iff] at signed'
    obtain ⟨_, positive, _, ⟨fromFormed, toFormed⟩, same, compared, _, apart, _, ⟨operatorBound, rfl⟩, _,
      ⟨noteBound, rfl⟩, key, loaded, text, stamp, rfl⟩ := signed'
    obtain ⟨time, stamped⟩ := signingTime_ok stamp
    rw [compareDigest_eq (isHash_ascii fromFormed) (isHash_ascii toFormed), Except.ok.injEq] at compared
    rw [← compared, beq_eq_false_iff_ne] at apart
    exact ⟨key, text, time, loaded, stamped,
      ⟨positive, fromFormed, toFormed, apart, operatorBound, noteBound⟩, rfl⟩

theorem Request.statement_named (r : Request) (sha : TextHash) (key : SigningKey scheme) (text : Points) :
    Named (r.statement sha scheme key text) := by
  rcases r with ⟨⟩ | ⟨⟩ | ⟨rotation⟩
  · simp [Named, statement, headings]
  · simp [Named, statement, headings]
  · cases rotation <;>
      simp [Named, statement, headings, Rotation.kind, trustTransition, authorityProfileTransition]

/-- A signed statement carries every value of its request. -/
theorem Request.carries (r : Request) (key : SigningKey scheme) (text : Points) :
    ∀ e ∈ r.signed.values, Carries (attest scheme key r.domain (r.statement sha scheme key text)) e := by
  intro e member
  refine fieldAt_attest key (r.statement_named sha key text) ?_
  rcases r with ⟨⟩ | ⟨⟩ | ⟨rotation⟩
  · simp only [signed, values, subject, asked, named, List.cons_append, List.nil_append, List.mem_cons,
      List.not_mem_nil, or_false] at member
    rcases member with rfl | rfl | rfl | rfl | rfl | rfl | rfl | rfl <;>
      simp [statement, headings, Bound.data]
  · simp only [signed, values, subject, asked, named, List.cons_append, List.nil_append, List.mem_cons,
      List.not_mem_nil, or_false] at member
    rcases member with rfl | rfl | rfl | rfl | rfl | rfl | rfl | rfl <;>
      simp [statement, headings, Bound.data]
  · simp only [signed, values, subject, asked, named, List.cons_append, List.nil_append, List.mem_cons,
      List.not_mem_nil, or_false] at member
    rcases member with rfl | rfl | rfl | rfl | rfl <;> simp [statement, headings, Bound.data]

/-- Both generations of a transition stand in its statement. -/
theorem Request.carries_compared (r : Request) (sha : TextHash) (key : SigningKey scheme) (text : Points) :
    ∀ e ∈ r.signed.compared, Carries (attest scheme key r.domain (r.statement sha scheme key text)) e := by
  intro e member
  cases r with
  | action => exact carries _ key text e (List.mem_append_right _ member)
  | authorization => exact carries _ key text e (List.mem_append_right _ member)
  | transition rotation fromGeneration fromHash toHash operator note =>
    have next : e = ("to_generation", .number (fromGeneration + 1)) ∨
        e ∈ (Request.transition rotation fromGeneration fromHash toHash operator note).signed.values := by
      simp only [signed, compared, values, subject, asked, List.cons_append, List.nil_append,
        List.mem_cons] at member ⊢
      tauto
    rcases next with rfl | member
    · exact fieldAt_attest key (statement_named _ sha key text) (by simp [statement, headings, Bound.data])
    · exact carries _ key text e member

/-! ### What verifiers find -/

theorem boundedText_ok_iff {value : Option Data} {field : String} {maximum : Nat} {t : Points} :
    TrustState.boundedText value field maximum = .ok t ↔
      value = some (.str t) ∧ Request.BoundedBy maximum t := by
  constructor
  · intro read
    unfold TrustState.boundedText at read
    split at read
    next s =>
      simp only [refuseIf_bind_ok_iff, pure_ok_iff, Bool.not_eq_true, not_lt] at read
      obtain ⟨visible, short, rfl⟩ := read
      exact ⟨rfl, visible, short⟩
    · cases read
  · rintro ⟨rfl, bounded⟩
    exact boundedText_str_ok_iff.2 ⟨bounded, rfl⟩

theorem requireTexts_ok_iff {attestation : List Field} {names : List String} {u : Unit} :
    requireTexts attestation names = .ok u ↔ ∀ name ∈ names,
      ∃ s, fieldAt (Points.ofString name) attestation = some (.str s) ∧
        Request.BoundedBy TrustState.maxNoteChars s := by
  simp only [requireTexts, checkAll_ok_iff, bind_ok_iff, boundedText_ok_iff, pure_ok_iff, and_true]

theorem parsedTimestamp_ok_iff {value : Points} {field : String} {t : Instant} :
    parsedTimestamp clock value field = .ok t ↔ clock.parse value = some (some t) := by
  simp only [parsedTimestamp, bind_ok_iff, orRefuse_ok_iff]
  exact ⟨fun ⟨_, parsed, same⟩ => same ▸ parsed, fun parsed => ⟨_, parsed, rfl⟩⟩

theorem timestampText_field {attestation : List Field} {name field : String} {text : Points}
    {time : Instant} (found : fieldAt (Points.ofString name) attestation = some (.str text))
    (stamped : Stamped clock text time) :
    timestampText clock (fieldAt (Points.ofString name) attestation) field = .ok text := by
  rw [found]
  exact timestampText_ok_iff.2 ⟨rfl, time, stamped⟩

section Signed

variable {r : Request} {key : SigningKey scheme} {text : Points} {time : Instant}

/-- The signed statement of a request. -/
abbrev Request.attestation (r : Request) (sha : TextHash) (key : SigningKey scheme) (text : Points) :
    List Field :=
  attest scheme key r.domain (r.statement sha scheme key text)

namespace Request

theorem field_attestation {name : String} {x : Data} (listed : (name, x) ∈ r.statement sha scheme key text) :
    fieldAt (Points.ofString name) (r.attestation sha key text) = some x :=
  fieldAt_attest key (r.statement_named sha key text) listed

theorem text_attestation {name : String} {s : Points}
    (listed : (name, .str s) ∈ r.statement sha scheme key text) :
    textOf name (r.attestation sha key text) = s :=
  textOf_attest key (r.statement_named sha key text) listed

/-- The signature of a request. -/
def signature (r : Request) (sha : TextHash) (key : SigningKey scheme) (text : Points) : Points :=
  signatureText key (r.domain.toList ++ (Data.obj (record (r.statement sha scheme key text))).canonical)

theorem fieldAt_attestation (name : String) : fieldAt (Points.ofString name) (r.attestation sha key text) =
    ((r.statement sha scheme key text ++ [("signature", Data.str (r.signature sha key text))]).find?
      (·.1 == name)).map (·.2) :=
  fieldAt_record name _

theorem stamp_field :
    fieldAt (Points.ofString "signed_at") (r.attestation sha key text) = some (.str text) :=
  field_attestation (by cases r <;> simp [statement, headings])

theorem signature_bounded : BoundedBy TrustState.maxNoteChars (r.signature sha key text) :=
  (boundedText_str_ok_iff.1 (bounded_signatureText key _ "signature")).1

theorem decode_signature : decodeSignature (r.signature sha key text) = .ok (key.sign
    (r.domain.toList ++ (Data.obj (record (r.statement sha scheme key text))).canonical)) :=
  decode_signatureText key _

theorem boundedBy_hash {s : Points} (formed : isHash s = true) : BoundedBy TrustState.maxNoteChars s := by
  simp only [isHash, Bool.and_eq_true, beq_iff_eq] at formed
  obtain ⟨⟨starts, length⟩, _⟩ := formed
  obtain ⟨digits, rfl⟩ := List.isPrefixOf_iff_prefix.1 starts
  have heading : (Points.ofString "sha256:").length = 7 := rfl
  rw [← heading, List.drop_left] at length
  refine ⟨rfl, ?_⟩
  rw [List.length_append, heading, length]
  decide

theorem listed (r : Request) (sha : TextHash) (key : SigningKey scheme) (text : Points) :
    ("schema_version", textData schemaVersion) ∈ r.statement sha scheme key text ∧
      ("algorithm", textData algorithm) ∈ r.statement sha scheme key text ∧
      ("key_id", .str (publicKeyId sha scheme key.publicKey)) ∈ r.statement sha scheme key text ∧
      ("signed_at", .str text) ∈ r.statement sha scheme key text ∧
      ("operator", .str (TrustState.strip r.operator)) ∈ r.statement sha scheme key text := by
  rcases r with ⟨⟩ | ⟨⟩ | ⟨rotation⟩ <;> simp [statement, headings, operator]

theorem requireHeadings_attestation {label schemaName : String}
    (schema : ("schema_name", textData schemaName) ∈ r.statement sha scheme key text) :
    requireHeadings label schemaName (r.attestation sha key text) = .ok () := by
  obtain ⟨version, algorithm, _⟩ := listed r sha key text
  have named := r.statement_named sha key text
  simp [requireHeadings, textAt_attest key named schema, textAt_attest key named version,
    textAt_attest key named algorithm, refuseIf_of_not]

/-- The names of a statement, in the order in which it is signed. -/
def Shape.names : Shape → List String
  | .action => ["schema_name", "schema_version", "algorithm", "purpose", "key_id", "signed_at",
      "operator", "note", "outcome", "approval_id", "action_id", "request_id", "authorization_hash"]
  | .authorization => ["schema_name", "schema_version", "algorithm", "purpose", "key_id", "signed_at",
      "operator", "note", "outcome", "authority_record_id", "authority_record_hash", "action_id",
      "request_id", "authorization_hash"]
  | .transition rotation => ["schema_name", "schema_version", "algorithm", "purpose", "key_id",
      "signed_at", "operator", "note", "from_generation", "to_generation", rotation.kind.fromHash,
      rotation.kind.toHash]

/-- The names that the verifier of a shape asks for. -/
def Shape.fields : Shape → List String
  | .action => actionFields
  | .authorization => authorizationFields
  | .transition rotation => rotation.kind.fields

theorem statement_names (r : Request) (key : SigningKey scheme) (text : Points) :
    (r.statement sha scheme key text).map (·.1) = r.shape.names := by
  cases r <;> rfl

theorem Shape.names_perm_iff {s t : Shape} : (s.names ++ ["signature"]).Perm t.fields ↔ s = t := by
  rcases s with _ | _ | ⟨_ | _⟩ <;> rcases t with _ | _ | ⟨_ | _⟩ <;> decide

theorem names_attestation {t : Shape} :
    namesExactly t.fields (r.attestation sha key text) = true ↔ r.shape = t := by
  rw [namesExactly_attest, statement_names, Shape.names_perm_iff]

/-- What the verifier of an approval's statement asks of its subject. -/
def Readable : Request → Prop
  | action a _ _ _ _ => (∀ s ∈ [a.approvalId, a.actionId, a.requestId],
      BoundedBy TrustState.maxNoteChars s ∧ asciiPoints s = true) ∧ isHash a.authorizationHash = true
  | authorization s _ _ _ => ∀ t ∈ [s.authorityRecordId, s.actionId, s.requestId], asciiPoints t = true
  | transition .. => True

end Request

variable {approval : ApprovalSubject} {purpose outcome operator note : Points}

theorem operator_bounded {s : Points} (bounded : Request.BoundedBy maxOperatorChars s) :
    Request.BoundedBy TrustState.maxNoteChars s :=
  ⟨bounded.1, bounded.2.trans (by decide)⟩

theorem outcome_bounded {s : Points} (bounded : Request.BoundedBy 64 s) :
    Request.BoundedBy TrustState.maxNoteChars s :=
  ⟨bounded.1, bounded.2.trans (by decide)⟩

/-- The statement of an approval is valid when the ids of the approval are texts that a statement may
bind, and its authorization has a hash. -/
theorem validateAttestation_action (is : r = .action approval purpose outcome operator note)
    (signable : r.Signable) (keyFormed : isHash (publicKeyId sha scheme key.publicKey) = true)
    (stamped : Stamped clock text time) :
    validateAttestation clock (r.attestation sha key text) = .ok () ↔
      (∀ s ∈ [approval.approvalId, approval.actionId, approval.requestId],
        Request.BoundedBy TrustState.maxNoteChars s) ∧ isHash approval.authorizationHash = true := by
  rw [is] at signable
  obtain ⟨listedPurpose, operatorBound, noteBound, outcomeBound⟩ := signable
  have names : namesExactly actionFields (r.attestation sha key text) = true :=
    Request.names_attestation.2 (congrArg Request.shape is)
  have headingsOk : requireHeadings "operator attestation" attestationSchema (r.attestation sha key text) =
      .ok () := Request.requireHeadings_attestation (by simp [is, Request.statement, headings])
  have stamp : timestampText clock (fieldAt (Points.ofString "signed_at") (r.attestation sha key text))
      "signed_at" = .ok text := timestampText_field Request.stamp_field stamped
  simp only [validateAttestation, bind_ok_iff, refuseIf_ok_iff, requireTexts_ok_iff, names, headingsOk, stamp]
  simp only [textOf, textAt, Request.fieldAt_attestation, is, Request.statement, headings]
  simp [listedPurpose, operator_bounded operatorBound, noteBound, outcome_bounded outcomeBound,
    Request.boundedBy_hash keyFormed, Request.signature_bounded, keyFormed, and_assoc]
  exact fun _ _ _ formed => Request.boundedBy_hash formed

theorem validateAuthorizationReconciliation_own {subject : AuthorizationSubject}
    (is : r = .authorization subject outcome operator note) (signable : r.Signable)
    (keyFormed : isHash (publicKeyId sha scheme key.publicKey) = true) (stamped : Stamped clock text time) :
    validateAuthorizationReconciliation clock (r.attestation sha key text) = .ok () := by
  rw [is] at signable
  obtain ⟨listedOutcome, operatorBound, noteBound, outcomeBound⟩ := signable
  have names : namesExactly authorizationFields (r.attestation sha key text) = true :=
    Request.names_attestation.2 (congrArg Request.shape is)
  have headingsOk : requireHeadings "authorization reconciliation" authorizationSchema
      (r.attestation sha key text) = .ok () :=
    Request.requireHeadings_attestation (by simp [is, Request.statement, headings])
  have stamp : timestampText clock (fieldAt (Points.ofString "signed_at") (r.attestation sha key text))
      "signed_at" = .ok text := timestampText_field Request.stamp_field stamped
  have bounded (s : Points) (member : s ∈ [subject.authorityRecordId, subject.actionId, subject.requestId]) :
      Request.BoundedBy TrustState.maxNoteChars s := subject.bounded s member
  simp only [validateAuthorizationReconciliation, bind_ok_iff, refuseIf_ok_iff, requireTexts_ok_iff,
    checkAll_ok_iff, names, headingsOk, stamp]
  simp only [textOf, textAt, Request.fieldAt_attestation, is, Request.statement, headings]
  simp [listedOutcome, operator_bounded operatorBound, noteBound, outcome_bounded outcomeBound,
    Request.boundedBy_hash keyFormed, Request.signature_bounded, keyFormed, bounded, subject.hashes,
    Request.boundedBy_hash subject.hashes.1, Request.boundedBy_hash subject.hashes.2,
    Request.decode_signature]

theorem validateTransition_own {rotation : Rotation} {fromGeneration : Int} {fromHash toHash : Points}
    (is : r = .transition rotation fromGeneration fromHash toHash operator note) (signable : r.Signable)
    (keyFormed : isHash (publicKeyId sha scheme key.publicKey) = true) (stamped : Stamped clock text time)
    (past : time ≤ clock.horizon now) :
    validateTransition clock now rotation.kind (r.attestation sha key text) = .ok () := by
  rw [is] at signable
  obtain ⟨positive, fromFormed, toFormed, apart, operatorBound, noteBound⟩ := signable
  have nonneg : 0 ≤ fromGeneration := by omega
  have names : namesExactly rotation.kind.fields (r.attestation sha key text) = true :=
    Request.names_attestation.2 (congrArg Request.shape is)
  have headingsOk : requireHeadings rotation.kind.label rotation.kind.schemaName (r.attestation sha key text) =
      .ok () := Request.requireHeadings_attestation (by simp [is, Request.statement, headings])
  have stamp : timestampText clock (fieldAt (Points.ofString "signed_at") (r.attestation sha key text))
      "signed_at" = .ok text := timestampText_field Request.stamp_field stamped
  have parsed : parsedTimestamp clock text "signed_at" = .ok time := parsedTimestamp_ok_iff.2 stamped.2
  have digest : compareDigest fromHash toHash = .ok false := by
    rw [compareDigest_eq (isHash_ascii fromFormed) (isHash_ascii toFormed), beq_eq_false_iff_ne.2 apart]
  simp only [validateTransition, bind_ok_iff, refuseIf_ok_iff, requireTexts_ok_iff, checkAll_ok_iff, names,
    headingsOk, stamp, positiveAt]
  simp only [textOf, textAt, intAt, Request.fieldAt_attestation, is, Request.statement, headings]
  cases rotation <;> simp [Rotation.kind, trustTransition, authorityProfileTransition, positive, nonneg,
    fromFormed, toFormed, operator_bounded operatorBound, noteBound, Request.boundedBy_hash keyFormed,
    Request.boundedBy_hash fromFormed, Request.boundedBy_hash toFormed, Request.signature_bounded, keyFormed,
    Request.decode_signature, digest, parsed, past]

theorem caught_ok_iff {x : Except HarnessError IdentityStatus} :
    (caught x).ok = true ↔ ∃ status, x = .ok status ∧ status.ok = true := by
  cases x with
  | ok status => simp [caught]
  | error e => simp [caught]

namespace Request

/-- Values of subjects of one shape stand in the same places. -/
theorem subject_aligned {q : Request} (same : q.shape = r.shape) :
    List.Forall₂ Aligned r.subject q.subject := by
  cases r <;> cases q <;> simp_all [shape, subject, Aligned, Bound.isText]

theorem signed_subject : r.signed.subject = r.subject := by cases r <;> rfl

theorem compare_subject {q : Request} (same : q.shape = r.shape) {message : String → String} {u : Unit} :
    compareFields (r.attestation sha key text) message q.subject = .ok u ↔
      q.subject = r.subject ∧ ∀ e ∈ r.subject, e.2.Plain := by
  refine compareFields_ok_iff (fun e member => r.carries key text e ?_) (subject_aligned same)
  rw [values, signed_subject]
  exact List.mem_append_left _ member

theorem checkSignature_own {label : String} :
    checkSignature scheme key.publicKey r.domain label (r.attestation sha key text) = .ok () :=
  checkSignature_attest key (r.statement_named sha key text) label

theorem trustedKey_own {policy : TrustState.OperatorTrustPolicy Key}
    (bound : policy.key? (TrustState.strip r.operator) (publicKeyId sha scheme key.publicKey) =
      some key.publicKey) :
    trustedKey policy (TrustState.strip r.operator) (r.attestation sha key text) = .ok key.publicKey := by
  have keyId : textOf "key_id" (r.attestation sha key text) = publicKeyId sha scheme key.publicKey :=
    text_attestation (listed r sha key text).2.2.1
  rw [trustedKey, keyId, bound]
  rfl

theorem operator_text : textOf "operator" (r.attestation sha key text) = TrustState.strip r.operator :=
  text_attestation (listed r sha key text).2.2.2.2

theorem stamp_text : textOf "signed_at" (r.attestation sha key text) = text :=
  text_attestation (listed r sha key text).2.2.2.1

end Request

/-- A binding holds between a statement and the approvals with the subject it names, if the subject can
be compared. -/
theorem validateBinding_own {q : Request} {approval' : ApprovalSubject}
    {purpose' outcome' operator' note' : Points} (is : r = .action approval purpose outcome operator note)
    (is' : q = .action approval' purpose' outcome' operator' note') (stamped : Stamped clock text time)
    (window : q.InWindow clock now purpose time) :
    validateBinding clock now (r.attestation sha key text) approval' = .ok () ↔
      q.subject = r.subject ∧ ∀ e ∈ r.subject, e.2.Plain := by
  have same : q.shape = r.shape := by rw [is, is']; rfl
  rw [is'] at window
  obtain ⟨⟨created, createdAt, begun⟩, past, expiry, decided⟩ := window
  have purposeText : textOf "purpose" (r.attestation sha key text) = purpose :=
    Request.text_attestation (by simp [is, Request.statement, headings])
  have asked : q.subject = [("approval_id", .text approval'.approvalId), ("action_id", .text approval'.actionId),
      ("request_id", .text approval'.requestId), ("authorization_hash", .text approval'.authorizationHash)] := by
    rw [is']; rfl
  -- a report follows the decision that it is about
  have report : (if purpose = Points.ofString reconciliationPurpose ∧ approval'.decidedAt.getD [] ≠ [] then
      parsedTimestamp clock (approval'.decidedAt.getD []) "approval decided_at" >>= fun decidedAt =>
        refuseIf (time < decidedAt) (trustError "reconciliation signature predates the approval decision")
      else pure ()) = .ok () := by
    split
    next report =>
      obtain ⟨decidedAt, parsed, order⟩ := decided report.1 report.2
      rw [parsedTimestamp_ok_iff.2 parsed, ok_bind, refuseIf_of_not (not_lt.2 order)]
    next => rfl
  simp only [validateBinding, bind_ok_iff, refuseIf_ok_iff, parsedTimestamp_ok_iff, Request.stamp_text,
    stamped.2, purposeText, Option.some.injEq, ← asked, Request.compare_subject same]
  constructor
  · rintro ⟨_, compared, _⟩
    exact compared
  · intro compared
    refine ⟨(), compared, time, rfl, created, createdAt, (), not_lt.2 begun, (), not_lt.2 past, ?_⟩
    split
    next decision =>
      obtain ⟨expiresAt, parsed, order⟩ := expiry decision.1 decision.2
      rw [parsedTimestamp_ok_iff.2 parsed, ok_bind, refuseIf_of_not (not_le.2 order), ok_bind]
      exact report
    next => exact report

variable {policy : TrustState.OperatorTrustPolicy Key} {q : Request}

/-- The statement of an approval is trusted for the approvals with the same readable subject. -/
theorem verify_ok_iff {approval' : ApprovalSubject} {purpose' outcome' operator' note' : Points}
    (is : r = .action approval purpose outcome operator note)
    (is' : q = .action approval' purpose' outcome' operator' note') (signable : r.Signable)
    (keyFormed : isHash (publicKeyId sha scheme key.publicKey) = true) (stamped : Stamped clock text time)
    (bound : policy.key? (TrustState.strip r.operator) (publicKeyId sha scheme key.publicKey) =
      some key.publicKey) (window : q.InWindow clock now purpose time) :
    (verify clock now scheme policy (r.attestation sha key text) approval').ok = true ↔
      q.subject = r.subject ∧ r.Readable := by
  have domain : r.domain = actionDomain := by rw [is]; rfl
  rw [verify, caught_ok_iff]
  simp only [bind_ok_iff, validateAttestation_action is signable keyFormed stamped, Request.operator_text,
    Request.trustedKey_own bound, validateBinding_own is is' stamped window, Except.ok.injEq, ← domain]
  -- what the verifier checks of its own request is that the request is readable
  have subject : r.Readable ↔ ((∀ s ∈ [approval.approvalId, approval.actionId, approval.requestId],
      Request.BoundedBy TrustState.maxNoteChars s) ∧ isHash approval.authorizationHash = true) ∧
        ∀ e ∈ r.subject, e.2.Plain := by
    simp only [is, Request.Readable, Request.subject, Bound.Plain, List.mem_cons, List.not_mem_nil, or_false,
      forall_eq_or_imp, forall_eq]
    constructor
    · rintro ⟨⟨approvalId, actionId, requestId⟩, formed⟩
      exact ⟨⟨⟨approvalId.1, actionId.1, requestId.1⟩, formed⟩, approvalId.2, actionId.2, requestId.2,
        isHash_ascii formed⟩
    · rintro ⟨⟨⟨approvalId, actionId, requestId⟩, formed⟩, approvalPlain, actionPlain, requestPlain, _⟩
      exact ⟨⟨⟨approvalId, approvalPlain⟩, ⟨actionId, actionPlain⟩, requestId, requestPlain⟩, formed⟩
  rw [subject]
  constructor
  · rintro ⟨_, ⟨_, valid, _, _, _, ⟨same, plain⟩, _⟩, _⟩
    exact ⟨same, valid, plain⟩
  · rintro ⟨same, valid, plain⟩
    exact ⟨_, ⟨(), valid, _, rfl, (), ⟨same, plain⟩, (), Request.checkSignature_own, rfl⟩, rfl⟩

theorem verifyAuthorizationReconciliation_ok_iff {subject subject' : AuthorizationSubject}
    {outcome' operator' note' : Points} (is : r = .authorization subject outcome operator note)
    (is' : q = .authorization subject' outcome' operator' note') (signable : r.Signable)
    (keyFormed : isHash (publicKeyId sha scheme key.publicKey) = true) (stamped : Stamped clock text time)
    (bound : policy.key? (TrustState.strip r.operator) (publicKeyId sha scheme key.publicKey) =
      some key.publicKey) (window : q.InWindow clock now purpose time) :
    (verifyAuthorizationReconciliation clock now scheme policy (r.attestation sha key text) subject').ok =
      true ↔ q.subject = r.subject ∧ r.Readable := by
  have domain : r.domain = authorizationDomain := by rw [is]; rfl
  have same : q.shape = r.shape := by rw [is, is']; rfl
  rw [is'] at window
  obtain ⟨⟨authorized, authorizedAt, begun⟩, past⟩ := window
  have asked : q.subject = [("authority_record_id", .text subject'.authorityRecordId),
      ("authority_record_hash", .text subject'.authorityRecordHash), ("action_id", .text subject'.actionId),
      ("request_id", .text subject'.requestId),
      ("authorization_hash", .text subject'.authorizationHash)] := by
    rw [is']; rfl
  -- the hashes of a subject are always plain, so three texts are left to read
  have readable : r.Readable ↔ ∀ e ∈ r.subject, e.2.Plain := by
    simp only [is, Request.Readable, Request.subject, Bound.Plain, List.mem_cons, List.not_mem_nil, or_false,
      forall_eq_or_imp, forall_eq]
    constructor
    · rintro ⟨recordId, actionId, requestId⟩
      exact ⟨recordId, isHash_ascii subject.hashes.1, actionId, requestId, isHash_ascii subject.hashes.2⟩
    · rintro ⟨recordId, _, actionId, requestId, _⟩
      exact ⟨recordId, actionId, requestId⟩
  rw [verifyAuthorizationReconciliation, caught_ok_iff, readable]
  simp only [bind_ok_iff, validateAuthorizationReconciliation_own is signable keyFormed stamped,
    Request.operator_text, Request.trustedKey_own bound, ← asked, Request.compare_subject same,
    Request.stamp_text, parsedTimestamp_ok_iff, stamped.2, Except.ok.injEq, ← domain]
  constructor
  · rintro ⟨_, ⟨_, _, _, _, _, compared, _⟩, _⟩
    exact compared
  · intro compared
    exact ⟨_, ⟨(), trivial, _, rfl, (), compared, time, rfl, authorized, authorizedAt, (),
      refuseIf_of_not (not_lt.2 begun), (), refuseIf_of_not (not_lt.2 past), (), Request.checkSignature_own,
      rfl⟩, rfl⟩

namespace Request

/-- The purpose that stands in a statement. -/
def purposeText : Request → Points
  | action _ purpose _ _ _ => purpose
  | authorization .. => Points.ofString authorizationPurpose
  | transition rotation .. => Points.ofString rotation.kind.purpose

theorem compared_aligned (same : q.shape = r.shape) :
    List.Forall₂ Aligned r.signed.compared q.compared := by
  cases r <;> cases q <;> simp_all [shape, signed, compared, asked, named, Aligned, Bound.isText]

end Request

theorem Request.require_transition {rotation : Rotation} {fromGeneration : Int} {fromHash toHash : Points}
    {attestation : Option (List Field)} :
    (transition rotation fromGeneration fromHash toHash operator note).require clock now scheme policy
        attestation =
      requireTransition clock now scheme policy rotation.kind attestation fromGeneration fromHash toHash
        operator note := by
  cases rotation <;> rfl

theorem Request.action_of_shape (shape : q.shape = .action) : ∃ approval purpose outcome operator note,
    q = .action approval purpose outcome operator note := by
  cases q <;> first | exact ⟨_, _, _, _, _, rfl⟩ | cases shape

theorem Request.authorization_of_shape (shape : q.shape = .authorization) :
    ∃ subject outcome operator note, q = .authorization subject outcome operator note := by
  cases q <;> first | exact ⟨_, _, _, _, rfl⟩ | cases shape

theorem Request.transition_of_shape {rotation : Rotation} (shape : q.shape = .transition rotation) :
    ∃ fromGeneration fromHash toHash operator note,
      q = .transition rotation fromGeneration fromHash toHash operator note := by
  cases q <;> first | exact ⟨_, _, _, _, _, by cases shape; rfl⟩ | cases shape

/-- What the verifier of a shape answers about a statement of that shape with another subject, or with
one that it cannot read. -/
theorem require_refused (same : q.shape = r.shape) (signable : r.Signable)
    (keyFormed : isHash (publicKeyId sha scheme key.publicKey) = true) (stamped : Stamped clock text time)
    (bound : policy.key? (TrustState.strip r.operator) (publicKeyId sha scheme key.publicKey) =
      some key.publicKey) (window : q.InWindow clock now r.purposeText time)
    (unread : ¬ (q.subject = r.subject ∧ r.Readable)) :
    ∃ e, q.require clock now scheme policy (some (r.attestation sha key text)) = .error e ∧
      e.kind = .operatorIdentity := by
  -- a transition has no subject to read, so only two shapes can be unread
  cases is : r with
  | action approval purpose outcome operator note =>
    obtain ⟨approval', purpose', outcome', operator', note', is'⟩ := Request.action_of_shape
      (same.trans (congrArg Request.shape is))
    rw [is, Request.purposeText] at window
    have fails := (verify_ok_iff is is' signable keyFormed stamped bound window).not.2 unread
    rw [Bool.not_eq_true] at fails
    refine ⟨trustError (verify clock now scheme policy (r.attestation sha key text) approval').detail, ?_, rfl⟩
    rw [is', ← is]
    simp [Request.require, OperatorSigning.require, orRefuse, fails, refuseIf]
  | authorization subject outcome operator note =>
    obtain ⟨subject', outcome', operator', note', is'⟩ := Request.authorization_of_shape
      (same.trans (congrArg Request.shape is))
    have fails := (verifyAuthorizationReconciliation_ok_iff is is' signable keyFormed stamped bound window).not.2
      unread
    rw [Bool.not_eq_true] at fails
    refine ⟨trustError (verifyAuthorizationReconciliation clock now scheme policy (r.attestation sha key text)
      subject').detail, ?_, rfl⟩
    rw [is', ← is]
    simp [Request.require, requireAuthorizationReconciliation, orRefuse, fails, refuseIf]
  | transition rotation =>
    obtain ⟨_, _, _, _, _, is'⟩ := Request.transition_of_shape (same.trans (congrArg Request.shape is))
    refine absurd ⟨?_, ?_⟩ unread
    · rw [is, is']; rfl
    · rw [is]; trivial

/-- What the verifier of a shape answers about a statement of that shape with the same readable subject is
decided by its comparisons. -/
theorem require_compares (same : q.shape = r.shape) (signable : r.Signable)
    (keyFormed : isHash (publicKeyId sha scheme key.publicKey) = true) (stamped : Stamped clock text time)
    (bound : policy.key? (TrustState.strip r.operator) (publicKeyId sha scheme key.publicKey) =
      some key.publicKey) (window : q.InWindow clock now r.purposeText time)
    (read : q.subject = r.subject ∧ r.Readable) :
    ∃ message finish,
      q.require clock now scheme policy (some (r.attestation sha key text)) =
        (compareFields (r.attestation sha key text) message q.compared >>= fun _ => finish) ∧
      (compareFields (r.attestation sha key text) message q.compared = .ok () →
        ∃ status, finish = .ok status ∧ status.ok = true) := by
  cases is : r with
  | action approval purpose outcome operator note =>
    obtain ⟨approval', purpose', outcome', operator', note', is'⟩ := Request.action_of_shape
      (same.trans (congrArg Request.shape is))
    rw [is, Request.purposeText] at window
    have trusts := (verify_ok_iff is is' signable keyFormed stamped bound window).2 read
    rw [is', ← is]
    refine ⟨fun field => "operator attestation " ++ field ++ " does not match the requested action", _, ?_,
      fun _ => ⟨_, rfl, trusts⟩⟩
    simp [Request.require, OperatorSigning.require, orRefuse, trusts, refuseIf, Request.compared,
      Request.asked, Request.named]
  | authorization subject outcome operator note =>
    obtain ⟨subject', outcome', operator', note', is'⟩ := Request.authorization_of_shape
      (same.trans (congrArg Request.shape is))
    have trusts := (verifyAuthorizationReconciliation_ok_iff is is' signable keyFormed stamped bound window).2
      read
    rw [is', ← is]
    refine ⟨fun field => "authorization reconciliation " ++ field ++ " does not match", _, ?_,
      fun _ => ⟨_, rfl, trusts⟩⟩
    simp [Request.require, requireAuthorizationReconciliation, orRefuse, trusts, refuseIf, Request.compared,
      Request.asked, Request.named]
  | transition rotation =>
    obtain ⟨fromGeneration', fromHash', toHash', operator', note', is'⟩ := Request.transition_of_shape
      (same.trans (congrArg Request.shape is))
    rw [is'] at window
    have valid := validateTransition_own is signable keyFormed stamped window
    rw [← is]
    refine ⟨rotation.kind.mismatch, do
      let publicKey ← trustedKey policy (TrustState.strip q.operator) (r.attestation sha key text)
      checkSignature scheme publicKey rotation.kind.domain rotation.kind.label (r.attestation sha key text)
      pure (trusted (rotation.kind.label ++ " signature valid and operator key trusted")
        (TrustState.strip q.operator) (r.attestation sha key text)), ?_, fun passed => ?_⟩
    · rw [is', Request.require_transition, requireTransition, orRefuse, ok_bind, valid, ok_bind]
      rfl
    · -- the operator asked for is the one that signed
      have equal := ((compareFields_ok_iff (r.carries_compared sha key text) (Request.compared_aligned same)).1
        passed).1
      have operators : TrustState.strip q.operator = TrustState.strip r.operator := by
        rw [is, is'] at equal ⊢
        simp only [Request.compared, Request.signed, Request.named, List.cons_append, List.nil_append,
          List.cons.injEq, Prod.mk.injEq, Bound.text.injEq] at equal
        exact equal.2.2.2.2.1.2
      have domain : r.domain = rotation.kind.domain := by rw [is]; rfl
      rw [operators, Request.trustedKey_own bound, ok_bind, ← domain, Request.checkSignature_own, ok_bind]
      exact ⟨_, rfl, rfl⟩

/-- No verifier takes the statement of another shape. -/
theorem require_other_shape (apart : r.shape ≠ q.shape) :
    ∃ e, q.require clock now scheme policy (some (r.attestation sha key text)) = .error e ∧
      e.kind = .operatorIdentity := by
  -- the fields of a statement tell its shape, and they are checked first
  have names : namesExactly q.shape.fields (r.attestation sha key text) = false := by
    rw [← Bool.not_eq_true, Request.names_attestation]
    exact apart
  cases q with
  | action =>
    have unfit (e : HarnessError) :
        refuseIf (namesExactly actionFields (r.attestation sha key text) = false) e = .error e := if_pos names
    refine ⟨trustError "operator attestation fields do not match the schema", ?_, rfl⟩
    rw [Request.require, OperatorSigning.require, orRefuse, ok_bind, verify, validateAttestation, unfit]
    rfl
  | authorization =>
    have unfit (e : HarnessError) :
        refuseIf (namesExactly authorizationFields (r.attestation sha key text) = false) e = .error e :=
      if_pos names
    refine ⟨trustError "authorization reconciliation fields do not match the schema", ?_, rfl⟩
    rw [Request.require, requireAuthorizationReconciliation, orRefuse, ok_bind,
      verifyAuthorizationReconciliation, validateAuthorizationReconciliation, unfit]
    rfl
  | transition rotation =>
    have unfit (e : HarnessError) :
        refuseIf (namesExactly rotation.kind.fields (r.attestation sha key text) = false) e = .error e :=
      if_pos names
    refine ⟨trustError (rotation.kind.label ++ " fields do not match the schema"), ?_, rfl⟩
    rw [Request.require_transition, requireTransition, orRefuse, ok_bind, validateTransition, unfit]
    rfl

namespace Request

theorem values_eq_iff (same : q.shape = r.shape) :
    q.values = r.signed.values ↔ q.subject = r.subject ∧ q.compared = r.signed.compared := by
  have length := (subject_aligned same).length_eq
  have asked_iff : q.asked = r.signed.asked ↔ q.compared = r.signed.compared := by
    cases r <;> cases q <;> simp_all [shape, compared, signed, asked, named]
  rw [values, values, signed_subject, ← asked_iff]
  exact ⟨fun same => List.append_inj same length.symm, fun both => by rw [both.1, both.2]⟩

/-- Two kinds of statements about one approval differ in what is compared first. -/
theorem purposes_compared (same : q.shape = r.shape) (signable : r.Signable) (known : q.kind ≠ none)
    (apart : q.kind ≠ r.kind) :
    q.compared ≠ r.signed.compared ∧ Comparable r.signed.compared q.compared := by
  cases r with
  | action approval purpose outcome operator note =>
    obtain ⟨approval', purpose', outcome', operator', note', rfl⟩ := action_of_shape same
    have listed : purpose = Points.ofString decisionPurpose ∨ purpose = Points.ofString reconciliationPurpose := by
      simpa [purposes] using signable.1
    have listed' : purpose' = Points.ofString decisionPurpose ∨
        purpose' = Points.ofString reconciliationPurpose := by
      by_contra unlisted
      rw [not_or] at unlisted
      exact known (by simp [kind, unlisted])
    have differ (plain : asciiPoints purpose = true) (plain' : asciiPoints purpose' = true)
        (unequal : purpose ≠ purpose') :
        (action approval' purpose' outcome' operator' note').compared ≠
            (action approval purpose outcome operator note).signed.compared ∧
          Comparable (action approval purpose outcome operator note).signed.compared
            (action approval' purpose' outcome' operator' note').compared :=
      ⟨by simp [compared, signed, asked, Ne.symm unequal],
        plain, plain', fun equal => absurd (Bound.text.inj equal) unequal⟩
    -- two known purposes: they differ, or the kinds are equal
    rcases listed with rfl | rfl <;> rcases listed' with rfl | rfl
    · exact absurd rfl apart
    · exact differ (by decide) (by decide) (by decide)
    · exact differ (by decide) (by decide) (by decide)
    · exact absurd rfl apart
  | authorization =>
    obtain ⟨_, _, _, _, rfl⟩ := authorization_of_shape same
    exact absurd rfl apart
  | transition rotation =>
    obtain ⟨_, _, _, _, _, rfl⟩ := transition_of_shape same
    exact absurd rfl apart

end Request

/-- The verifier of a request refuses a statement as one of no trusted operator. -/
def Refused (clock : WallClock Instant) (now : Instant) (policy : TrustState.OperatorTrustPolicy Key)
    (attestation : List Field) (scheme : SignatureScheme Key) (q : Request) : Prop :=
  ∃ e, q.require clock now scheme policy (some attestation) = .error e ∧ e.kind = .operatorIdentity

/-- The answers that a verifier owes about the statement of a request: it takes the statement for exactly
the signed values, and refuses it for others and for other kinds. -/
structure Answers (clock : WallClock Instant) (now : Instant) (scheme : SignatureScheme Key)
    (policy : TrustState.OperatorTrustPolicy Key) (attestation : List Field) (r q : Request) : Prop where
  equal : q.shape = r.shape → q.values = r.signed.values →
    ∃ status, q.require clock now scheme policy (some attestation) = .ok status ∧ status.ok = true
  different : q.shape = r.shape → q.values ≠ r.signed.values → Refused clock now policy attestation scheme q
  foreign : q.kind ≠ none → q.kind ≠ r.kind → Refused clock now policy attestation scheme q

/-- For equal subjects the verifier can read the subject if everything else is equal, and compares only
plain values up to the first difference. -/
def Verifiable (r q : Request) : Prop :=
  q.shape = r.shape → q.subject = r.subject →
    (q.compared = r.signed.compared → r.Readable) ∧ (r.Readable → Comparable r.signed.compared q.compared)

theorem answers_of_read (same : q.shape = r.shape) (signable : r.Signable)
    (keyFormed : isHash (publicKeyId sha scheme key.publicKey) = true) (stamped : Stamped clock text time)
    (bound : policy.key? (TrustState.strip r.operator) (publicKeyId sha scheme key.publicKey) =
      some key.publicKey) (window : q.InWindow clock now r.purposeText time)
    (read : q.subject = r.subject ∧ r.Readable) :
    Answers clock now scheme policy (r.attestation sha key text) r q ↔
      Comparable r.signed.compared q.compared := by
  obtain ⟨message, finish, steps, finishes⟩ := require_compares same signable keyFormed stamped bound window read
  obtain ⟨equally, differently⟩ := compareFields_cases message (r.carries_compared sha key text)
    (Request.compared_aligned same)
  -- a difference that can be compared is answered with the error of the field
  have refused (different : q.compared ≠ r.signed.compared) :
      Refused clock now policy (r.attestation sha key text) scheme q ↔
        Comparable r.signed.compared q.compared := by
    obtain ⟨x, raised, kind⟩ := differently different
    rw [Refused, steps, raised, error_bind, ← kind]
    simp
  have values := Request.values_eq_iff same
  constructor
  · intro answers
    by_cases equal : q.compared = r.signed.compared
    · obtain ⟨status, answered, _⟩ := answers.equal same (values.2 ⟨read.1, equal⟩)
      rw [steps, unit_bind_ok_iff] at answered
      exact (equally equal).1 answered.1
    · exact (refused equal).1 (answers.different same fun same => equal (values.1 same).2)
  · intro comparable
    refine ⟨fun _ equal => ?_, fun _ different => ?_, fun known apart => ?_⟩
    · have passed := (equally (values.1 equal).2).2 comparable
      obtain ⟨status, answered, trusted⟩ := finishes passed
      exact ⟨status, by rw [steps, passed, ok_bind, answered], trusted⟩
    · exact (refused fun compared => different (values.2 ⟨read.1, compared⟩)).2 comparable
    · exact (refused (Request.purposes_compared same signable known apart).1).2 comparable

/-- The verifier of a request owes these answers to a signed statement exactly where it can read and compare
what it is asked. -/
theorem answers_iff_verifiable {now' : Instant} {path : String} {loaded : Option (SigningKey scheme)}
    {signedAt : Option Points} {attestation : List Field}
    (digests : ∀ publicKey, isHash (publicKeyId sha scheme publicKey) = true)
    (signed : r.sign clock now' sha scheme path loaded signedAt = .ok attestation)
    (bound : ∀ key, loaded = some key → policy.key? (TrustState.strip r.operator)
      (publicKeyId sha scheme key.publicKey) = some key.publicKey)
    (window : q.shape = r.shape → ∀ time, clock.parse (textOf "signed_at" attestation) = some (some time) →
      q.InWindow clock now r.purposeText time) :
    Answers clock now scheme policy attestation r q ↔ Verifiable r q := by
  obtain ⟨key, text, time, rfl, stamped, signable, rfl⟩ := Request.sign_ok signed
  have bound := bound key rfl
  have formed := digests key.publicKey
  have window := fun same => window same time (by rw [Request.stamp_text]; exact stamped.2)
  by_cases same : q.shape = r.shape
  · by_cases read : q.subject = r.subject ∧ r.Readable
    · rw [answers_of_read same signable formed stamped bound (window same) read, Verifiable]
      exact ⟨fun comparable _ _ => ⟨fun _ => read.2, fun _ => comparable⟩,
        fun verifiable => (verifiable same read.1).2 read.2⟩
    · have refused : Refused clock now policy (r.attestation sha key text) scheme q :=
        require_refused same signable formed stamped bound (window same) read
      constructor
      · intro answers _ subject
        refine ⟨fun equal => ?_, fun readable => absurd ⟨subject, readable⟩ read⟩
        obtain ⟨status, answered, _⟩ := answers.equal same ((Request.values_eq_iff same).2 ⟨subject, equal⟩)
        obtain ⟨e, raised, _⟩ := refused
        rw [answered] at raised
        cases raised
      · intro verifiable
        refine ⟨fun _ equal => ?_, fun _ _ => refused, fun _ _ => refused⟩
        obtain ⟨subject, compared⟩ := (Request.values_eq_iff same).1 equal
        exact absurd ⟨subject, (verifiable same subject).1 compared⟩ read
  · have refused : Refused clock now policy (r.attestation sha key text) scheme q :=
      require_other_shape (Ne.symm same)
    exact ⟨fun _ shape => absurd shape same, fun _ => ⟨fun shape => absurd shape same,
      fun _ _ => refused, fun _ _ => refused⟩⟩

end Signed

end Requests

end Signatures

namespace Desk

/-- A clock that knows one time. -/
def clock : WallClock Unit where
  parse s := if s = Points.ofString "2026-01-05T09:00:00Z" then some (some ()) else none
  utcNow _ := "2026-01-05T09:00:00Z"
  horizon := id
  utcNow_short := by decide
  parse_utcNow := by decide
  parse_unpaired s t parsed := by
    split at parsed
    next known =>
      rw [known]
      exact unpaired_ofString _
    · cases parsed
  le_horizon _ := le_rfl
  horizon_mono _ _ order := order

def sha : TextHash := fun _ => String.ofList (List.replicate 64 'a')

def scheme : SignatureScheme Unit where
  publicKey _ := Points.ofString "key"
  verifies _ signature _ := signature == List.replicate 64 0
  signed _ _ := True
  unforgeable _ _ _ _ := trivial

def key : SigningKey scheme where
  publicKey := ()
  sign _ := List.replicate 64 0
  octets _ := by simp
  accepted _ := by simp [scheme]

def digest : Points := publicKeyId sha scheme ()

theorem digest_formed : isHash digest = true := by decide +kernel

def pending : ApprovalSubject where
  approvalId := Points.ofString "apr_1"
  actionId := Points.ofString "act_1"
  requestId := Points.ofString "req_1"
  authorizationHash := digest
  createdAt := Points.ofString "2026-01-05T09:00:00Z"
  expiresAt := []
  decidedAt := none
  present := by decide

/-- The decision of an operator about the pending approval. -/
def decision (operator : String) : Request :=
  .action pending (Points.ofString decisionPurpose) (Points.ofString "approved") (Points.ofString operator)
    (Points.ofString "reviewed")

def policy (operator : String) : TrustState.OperatorTrustPolicy Unit :=
  ⟨Dict.set ∅ (Points.ofString operator) (Dict.set ∅ digest ())⟩

def signedDecision (operator : String) : List Field := (decision operator).attestation sha key
  (Points.ofString "2026-01-05T09:00:00Z")

theorem decision_in_window (operator : String) (purpose : Points) :
    (decision operator).InWindow clock () purpose () :=
  ⟨⟨(), by decide +kernel, le_rfl⟩, le_rfl, fun _ absent => absurd rfl absent,
    fun _ absent => absurd rfl absent⟩

theorem decision_readable (operator : String) : (decision operator).Readable := by
  refine ⟨?_, digest_formed⟩
  intro s member
  simp only [List.mem_cons, List.not_mem_nil, or_false] at member
  rcases member with rfl | rfl | rfl <;> exact ⟨⟨by decide, by decide⟩, by decide⟩

/-- A decision signed in ASCII is verified. -/
theorem plain_operator_verified :
    Answers clock () scheme (policy "Zoe") (signedDecision "Zoe") (decision "Zoe") (decision "Zoe") := by
  have signed : (decision "Zoe").sign clock () sha scheme "key.pem" (some key) none =
      .ok (signedDecision "Zoe") := by
    rfl
  refine (answers_iff_verifiable (fun _ => digest_formed) signed ?_ fun _ _ _ => decision_in_window _ _).2 ?_
  · rintro _ ⟨⟩
    decide +kernel
  · refine fun _ _ => ⟨fun _ => decision_readable _, fun _ => ?_⟩
    -- the purpose, the outcome, the operator and the note
    exact ⟨by decide +kernel, by decide +kernel, fun _ => ⟨by decide +kernel, by decide +kernel, fun _ =>
      ⟨by decide +kernel, by decide +kernel, fun _ => ⟨by decide +kernel, by decide +kernel, fun _ => trivial⟩⟩⟩⟩

/-- A decision that an operator outside ASCII signs raises in the verifier that is asked about it. -/
theorem accented_operator_raises :
    (decision "Zoë").sign clock () sha scheme "key.pem" (some key) none = .ok (signedDecision "Zoë") ∧
      (policy "Zoë").key? (Points.ofString "Zoë") (publicKeyId sha scheme key.publicKey) = some key.publicKey ∧
      (decision "Zoë").InWindow clock () (Points.ofString decisionPurpose) () ∧
      (decision "Zoë").require clock () scheme (policy "Zoë") (some (signedDecision "Zoë")) =
        .error unsupported :=
  ⟨by rfl, by decide +kernel, decision_in_window _ _, by decide +kernel⟩

end Desk

end OperatorSigning
end DefiantHarness
