import DefiantHarness.JournalPayload
import DefiantHarness.RecordReading

/-! Payloads of the operation journal that have been read back: their validation accepts them again. -/
namespace DefiantHarness

open Foundation

namespace JournalFile

open Durable
open Value (ReadAs EntriesReadAs)

variable {es fs : List Entry} {v w : Value}

theorem boundedText_read (read : ReadAs v w) (name : String) (maximum : Nat) :
    boundedText w name maximum = boundedText v name maximum := by
  rw [boundedText, boundedText, text?_read read]

theorem hashed_read (entries : EntriesReadAs es fs) (error : String → HarnessError) (subject : String) :
    hashed error subject fs = hashed error subject es := by
  funext name
  rw [hashed, hashed, text?_read (field_read entries name readAs_null)]

theorem plainText_read (entries : EntriesReadAs es fs) (name : String) :
    JournalFile.plainText fs name = JournalFile.plainText es name := by
  rw [JournalFile.plainText, JournalFile.plainText, text?_read (field_read entries name readAs_null)]

theorem argumentsOf_read {names : List String} (read : ReadAs v w)
    (made : argumentsOf names v = .ok es) :
    ∃ fs, argumentsOf names w = .ok fs ∧ EntriesReadAs es fs := by
  simp only [argumentsOf, orRefuse_bind_ok_iff, refuseIf_bind_ok_iff, pure_ok_iff, Bool.not_eq_false,
    Bool.and_eq_true] at made ⊢
  obtain ⟨own, shape, ⟨accepted, present⟩, rfl⟩ := made
  obtain ⟨others, shape', entries⟩ := entries?_read read shape
  refine ⟨others, ⟨others, shape', ⟨accepts_read entries accepted, ?_⟩, rfl⟩, entries⟩
  simpa only [isSome_read entries] using present

theorem AuthoritySubject.of_read (entries : EntriesReadAs es fs) :
    AuthoritySubject.of fs = AuthoritySubject.of es := by
  simp only [AuthoritySubject.of, plainText_read entries]

theorem reconciliationSubject_read {literals : Literals} {subject : AuthoritySubject}
    (read : ReadAs v w) (made : reconciliationSubject literals v = .ok subject) :
    reconciliationSubject literals w = .ok subject := by
  simp only [reconciliationSubject, bind_ok_iff] at made ⊢
  obtain ⟨own, h₁, rest⟩ := made
  obtain ⟨others, g₁, entries⟩ := argumentsOf_read read h₁
  refine ⟨others, g₁, ?_⟩
  have null (name : String) := field_read entries name readAs_null
  simp only [boundedText_read (null _), hashed_read entries, AuthoritySubject.of_read entries]
  exact rest

theorem completionSubject_read {subject : AuthoritySubject × Decision} (read : ReadAs v w)
    (made : completionSubject v = .ok subject) : completionSubject w = .ok subject := by
  simp only [completionSubject, bind_ok_iff (x := argumentsOf _ _)] at made ⊢
  obtain ⟨own, h₁, rest⟩ := made
  obtain ⟨others, g₁, entries⟩ := argumentsOf_read read h₁
  refine ⟨others, g₁, ?_⟩
  have null (name : String) := field_read entries name readAs_null
  simp only [visible_read (null _), hashed_read entries, text?_read (null _),
    AuthoritySubject.of_read entries]
  exact rest

section Payloads

variable {sha : TextHash} {chunking : Chunking} {literals : Literals} {supply supply' : Supply literals}
  {kind : Points} {evidence : Durable.EvidenceRecord} {reserved : Decimal}

theorem amountAndEvidence_read (entries : EntriesReadAs es fs)
    (made : amountAndEvidence literals supply kind es = .ok (reserved, evidence)) :
    amountAndEvidence literals supply' kind fs = .ok (reserved, evidence) := by
  have null (name : String) := field_read entries name readAs_null
  simp only [amountAndEvidence, bind_ok_iff, orRefuse_ok_iff, pure_ok_iff, Prod.mk.injEq] at made ⊢
  obtain ⟨_, h₁, raw, shape, record, h₂, rfl, rfl⟩ := made
  obtain ⟨raw', shape', reads⟩ := entries?_read (null _) shape
  -- the evidence is made from its members, and those are read back
  refine ⟨_, ?_, raw', shape', _, EvidenceRecord.make_read reads h₂, rfl, rfl⟩
  rw [moneyOf_read (null _)]
  exact h₁

theorem validateExecutionCompletion_read (entries : EntriesReadAs es fs)
    (valid : validateExecutionCompletion literals es evidence reserved = .ok ()) :
    validateExecutionCompletion literals fs evidence reserved = .ok () := by
  have null (name : String) := field_read entries name readAs_null
  simp only [validateExecutionCompletion, bind_ok_iff (x := Except.mapError _ _), mapError_ok_iff] at valid ⊢
  obtain ⟨⟨authority, decision⟩, h₁, actual, h₂, rest⟩ := valid
  refine ⟨(authority, decision), completionSubject_read (null _) h₁, actual, ?_, ?_⟩
  · rw [moneyOf_read (null _)]
    exact h₂
  · simp only [text?_read (null _), oneOf_read (null _)]
    exact rest

theorem validateReconciliation_read (entries : EntriesReadAs es fs)
    (valid : validateReconciliation literals es evidence = .ok ()) :
    validateReconciliation literals fs evidence = .ok () := by
  have null (name : String) := field_read entries name readAs_null
  simp only [validateReconciliation, bind_ok_iff, mapError_ok_iff, refuseIf_ok_iff, checkAll_ok_iff,
    visible_read (null _), plainText_read entries, isNull_read (null _), isMapping_read (null _),
    Bool.not_eq_false] at valid ⊢
  obtain ⟨authority, h₁, _, named, _, filled, _, outcome, rest⟩ := valid
  -- the outcome is compared as a value, everything else as texts
  exact ⟨authority, reconciliationSubject_read (null _) h₁, (), named, (), filled, (),
    (ReadAs.equals (readAs_str _) (null _) outcome), rest⟩

theorem validateCreation_read (entries : EntriesReadAs es fs)
    (valid : validateCreation sha chunking literals supply es evidence reserved = .ok ()) :
    validateCreation sha chunking literals supply' fs evidence reserved = .ok () := by
  simp only [validateCreation, bind_ok_iff (x := Except.mapError _ _), mapError_ok_iff] at valid ⊢
  obtain ⟨approval, made, rest⟩ := valid
  obtain ⟨again, made', reads⟩ :=
    PendingApproval.fromDict_read supply' (field_read entries _ readAs_null) made
  refine ⟨again, made', ?_⟩
  -- the checks look at the sealed approval and not at its document
  rw [reads.same]
  exact rest

theorem validateClosing_read (entries : EntriesReadAs es fs) :
    validateClosing kind fs evidence = validateClosing kind es evidence := by
  have null (name : String) := field_read entries name readAs_null
  simp only [validateClosing, visible_read (null _), plainText_read entries, text?_read (null _),
    isNull_read (null _), isMapping_read (null _)]

/-- A valid payload is valid when it is read back, whatever fills in what its contracts leave out. -/
theorem validatePayload_read (entries : EntriesReadAs es fs)
    (valid : validatePayload sha chunking literals supply kind es = .ok ()) :
    validatePayload sha chunking literals supply' kind fs = .ok () := by
  have status : expectedStatus kind fs = expectedStatus kind es := by
    rw [expectedStatus, expectedStatus, text?_read (field_read entries _ readAs_null)]
  simp only [validatePayload, bind_ok_iff, refuseIf_ok_iff, mapError_ok_iff, Bool.not_eq_false,
    Bool.and_eq_true, Prod.exists] at valid ⊢
  obtain ⟨_, ⟨accepted, present⟩, reserved, evidence, h₁, _, unsealed, valid⟩ := valid
  refine ⟨(), ⟨accepts_read entries accepted, ?_⟩, reserved, evidence, amountAndEvidence_read entries h₁,
    (), unsealed, ?_⟩
  · simpa only [isSome_read entries] using present
  -- one case for each kind of operation
  · split at valid
    next completes =>
      rw [if_pos completes]
      exact validateExecutionCompletion_read entries valid
    next other =>
      rw [if_neg other]
      obtain ⟨_, matched, valid⟩ := bind_ok_iff.1 valid
      refine bind_ok_iff.2 ⟨(), by rw [status]; exact matched, ?_⟩
      split at valid
      next reconciles =>
        rw [if_pos reconciles]
        exact validateReconciliation_read entries valid
      next other =>
        rw [if_neg other]
        split at valid
        next creates =>
          rw [if_pos creates]
          exact validateCreation_read entries valid
        next other =>
          rw [if_neg other, validateClosing_read entries]
          exact valid

end Payloads
end JournalFile
end DefiantHarness
