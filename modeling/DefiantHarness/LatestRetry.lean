import DefiantHarness.Foundation.Civil
import DefiantHarness.McpRetry

/-! The retry of an external call: which of the approvals of one owner and key the approval store takes
it for. -/
namespace DefiantHarness

open Foundation

/-- `_parse` of a timestamp text: the RFC 3339 texts, and the other texts that the interpreter reads
with a time zone. -/
def parseTimestamp (other : List Char → Option Int) (text : List Char) : Option Int :=
  match readInstant text with
  | some instant => some instant
  | none => other text

/-- A timestamp that the store can hold: its text has been parsed. -/
structure StoredTimestamp (other : List Char → Option Int) where
  text : List Char
  instant : Int
  parsed : parseTimestamp other text = some instant

/-- What finding a retry reads of a stored approval; without `expiresAt` it never expires. -/
structure StoredApproval (other : List Char → Option Int) where
  approvalId : String
  executionOwner : String
  executionKey : String
  status : ApprovalStatus
  createdAt : StoredTimestamp other
  expiresAt : Option (StoredTimestamp other)

namespace StoredApproval

variable {other : List Char → Option Int}

def isExpired (approval : StoredApproval other) (now : Int) : Bool :=
  match approval.expiresAt with
  | none => false
  | some expiresAt => expiresAt.instant ≤ now

/-- The matches that are still active. -/
def activeMatches (approvals : List (StoredApproval other)) (executionOwner executionKey : String)
    (now : Int) : List (StoredApproval other) :=
  let found := approvals.filter fun approval =>
    approval.executionOwner == executionOwner && approval.executionKey == executionKey &&
      [ApprovalStatus.pending, .approved, .rejected, .executing].contains approval.status
  found.filter fun approval => approval.status == .executing || !approval.isExpired now

/-- Find an unconsumed exact-call approval of an external executor. -/
def findExecution (approvals : List (StoredApproval other)) (executionOwner executionKey : String)
    (now : Int) : Option (StoredApproval other) :=
  if executionOwner = "" ∨ executionKey = "" then none
  else
    firstMax (fun a b => a.createdAt.text < b.createdAt.text)
      (activeMatches approvals executionOwner executionKey now)

/-- An approval of that owner and key that is pending, approved or rejected and has not expired, or is
executing. The empty text stands for no owner and no key. -/
structure Retryable (executionOwner executionKey : String) (now : Int)
    (approval : StoredApproval other) : Prop where
  named : executionOwner ≠ "" ∧ executionKey ≠ ""
  owner : approval.executionOwner = executionOwner
  key : approval.executionKey = executionKey
  open' : approval.status = .executing ∨
    (approval.status = .pending ∨ approval.status = .approved ∨ approval.status = .rejected) ∧
      approval.isExpired now = false

/-- The retryable approvals of a store. -/
def retryable (approvals : List (StoredApproval other)) (executionOwner executionKey : String)
    (now : Int) : Set (StoredApproval other) :=
  {approval | approval ∈ approvals ∧ Retryable executionOwner executionKey now approval}

/-- No retryable approval whose text is the greatest is older than another. -/
def TextsInStep (found : Set (StoredApproval other)) : Prop :=
  ∀ a ∈ found, (∀ b ∈ found, b.createdAt.text ≤ a.createdAt.text) →
    ∀ b ∈ found, b.createdAt.instant ≤ a.createdAt.instant

/-- The last second in which one was created holds one of the whole second and one of later in it. -/
def LastSecondMixed (found : Set (StoredApproval other)) (time : StoredApproval other → CivilTime) :
    Prop :=
  ∃ a ∈ found, ∃ b ∈ found, (time a).seconds = (time b).seconds ∧ (time a).microsecond = 0 ∧
    (time b).microsecond ≠ 0 ∧ ∀ c ∈ found, (time c).seconds ≤ (time a).seconds

/-- The answer is none exactly when nothing is retryable, and else is created at the latest instant. -/
def FindsLatest (approvals : List (StoredApproval other)) (executionOwner executionKey : String)
    (now : Int) : Prop :=
  (findExecution approvals executionOwner executionKey now = none ↔
      retryable approvals executionOwner executionKey now = ∅) ∧
    ∀ a, findExecution approvals executionOwner executionKey now = some a →
      a ∈ retryable approvals executionOwner executionKey now ∧
        ∀ b ∈ retryable approvals executionOwner executionKey now,
          b.createdAt.instant ≤ a.createdAt.instant

theorem firstMax_eq_none_iff {α : Type} {less : α → α → Bool} {xs : List α} :
    firstMax less xs = none ↔ xs = [] := by
  cases xs <;> simp [firstMax]

/-- The first of the greatest is one of them, and no key is greater. -/
theorem firstMax_greatest {α κ : Type} [LinearOrder κ] {less : α → α → Bool} {key : α → κ}
    (order : ∀ a b, less a b = true ↔ key a < key b) {xs : List α} {m : α}
    (found : firstMax less xs = some m) : m ∈ xs ∧ ∀ a ∈ xs, key a ≤ key m := by
  cases xs with
  | nil => cases found
  | cons x xs =>
    obtain rfl := Option.some.inj found
    clear found
    -- the best so far is the seed of the fold over the rest
    induction xs generalizing x with
    | nil => simp
    | cons y ys ih =>
      obtain ⟨member, greatest⟩ := ih (if less x y then y else x)
      simp only [List.foldl_cons]
      set m := ys.foldl (fun best z => if less best z then z else best) (if less x y then y else x)
      have best := greatest _ List.mem_cons_self
      have both : key x ≤ key m ∧ key y ≤ key m := by
        split at best
        next lower => exact ⟨((order x y).1 lower).le.trans best, best⟩
        next higher => exact ⟨best, (not_lt.1 (mt (order x y).2 higher)).trans best⟩
      refine ⟨?_, fun a inside => ?_⟩
      · rcases List.mem_cons.1 member with first | later
        · rw [first]
          split <;> simp
        · simp [later]
      · rcases List.mem_cons.1 inside with rfl | inside
        · exact both.1
        rcases List.mem_cons.1 inside with rfl | inside
        · exact both.2
        · exact greatest a (List.mem_cons_of_mem _ inside)

section

variable {approvals : List (StoredApproval other)} {executionOwner executionKey : String} {now : Int}

/-- What is searched is what is retryable. -/
theorem mem_activeMatches (named : executionOwner ≠ "" ∧ executionKey ≠ "")
    (approval : StoredApproval other) :
    approval ∈ activeMatches approvals executionOwner executionKey now ↔
      approval ∈ retryable approvals executionOwner executionKey now := by
  simp only [activeMatches, List.mem_filter, Bool.and_eq_true, beq_iff_eq, List.contains_iff_mem,
    List.mem_cons, List.not_mem_nil, or_false, Bool.or_eq_true, Bool.not_eq_true']
  constructor
  · rintro ⟨⟨member, ⟨owner, key⟩, status⟩, current⟩
    refine ⟨member, named, owner, key, ?_⟩
    rcases current with executing | unexpired
    · exact .inl executing
    · rcases status with pending | approved | rejected | executing
      · exact .inr ⟨.inl pending, unexpired⟩
      · exact .inr ⟨.inr (.inl approved), unexpired⟩
      · exact .inr ⟨.inr (.inr rejected), unexpired⟩
      · exact .inl executing
  · rintro ⟨member, _, owner, key, executing | ⟨waiting, unexpired⟩⟩
    · exact ⟨⟨member, ⟨owner, key⟩, .inr (.inr (.inr executing))⟩, .inl executing⟩
    · refine ⟨⟨member, ⟨owner, key⟩, ?_⟩, .inr unexpired⟩
      rcases waiting with pending | approved | rejected
      · exact .inl pending
      · exact .inr (.inl approved)
      · exact .inr (.inr (.inl rejected))

theorem findExecution_none_iff :
    findExecution approvals executionOwner executionKey now = none ↔
      retryable approvals executionOwner executionKey now = ∅ := by
  rw [Set.eq_empty_iff_forall_notMem, findExecution]
  split
  next missing =>
    simp only [true_iff]
    rintro approval ⟨-, retry⟩
    exact missing.elim retry.named.1 retry.named.2
  next named =>
    have named := not_or.1 named
    simp only [firstMax_eq_none_iff, List.eq_nil_iff_forall_not_mem, mem_activeMatches named]

/-- What is found has the greatest text. -/
theorem findExecution_greatest {a : StoredApproval other}
    (found : findExecution approvals executionOwner executionKey now = some a) :
    a ∈ retryable approvals executionOwner executionKey now ∧
      ∀ b ∈ retryable approvals executionOwner executionKey now,
        b.createdAt.text ≤ a.createdAt.text := by
  rw [findExecution] at found
  split at found
  next => cases found
  next named =>
    have named := not_or.1 named
    obtain ⟨member, greatest⟩ := firstMax_greatest (fun _ _ => decide_eq_true_iff) found
    exact ⟨(mem_activeMatches named a).1 member,
      fun b inside => greatest b ((mem_activeMatches named b).2 inside)⟩

end

private theorem instant_eq_of_text {s t : StoredTimestamp other}
    (same : s.text = t.text) : s.instant = t.instant :=
  Option.some.inj (by rw [← s.parsed, ← t.parsed, same])

/-- The order of the texts of two times is wrong for a whole second and the rest of it, and right
elsewhere. -/
theorem textsInStep_iff {found : Set (StoredApproval other)} {time : StoredApproval other → CivilTime}
    (written : ∀ a ∈ found, (time a).Valid ∧ a.createdAt.text = (time a).utcText) :
    TextsInStep found ↔ ¬ LastSecondMixed found time := by
  have instant {a : StoredApproval other} (member : a ∈ found) :
      a.createdAt.instant = ((time a).seconds * 1000000 + (time a).microsecond : Nat) := by
    obtain ⟨valid, text⟩ := written a member
    have parsed := a.createdAt.parsed
    rw [parseTimestamp, text, CivilTime.readInstant_utcText valid] at parsed
    exact (Option.some.inj parsed).symm
  have less {a b : StoredApproval other} (first : a ∈ found) (second : b ∈ found) :=
    CivilTime.utcText_lt_iff (written a first).1 (written b second).1
  constructor
  · rintro inStep ⟨a, first, b, second, same, whole, part, last⟩
    have greatest : ∀ c ∈ found, c.createdAt.text ≤ a.createdAt.text := by
      intro c third
      rw [(written a first).2, (written c third).2, ← not_lt, less first third]
      rintro (later | ⟨-, part, -⟩)
      · exact absurd (last c third) (not_le.2 later)
      · exact part whole
    have order := inStep a first greatest b second
    rw [instant first, instant second] at order
    omega
  · intro unmixed a first greatest b second
    by_contra later
    rw [not_le, instant first, instant second, Nat.cast_lt] at later
    have behind : ∀ c ∈ found, ¬ (time a).utcText < (time c).utcText := by
      intro c third
      rw [← (written a first).2, ← (written c third).2]
      exact not_lt.2 (greatest c third)
    have order := behind b second
    rw [less first second] at order
    have small := (written a first).1.microsecond
    have below := (written b second).1.microsecond
    -- what is later and not greater is in the same second, which the greatest text writes whole
    refine unmixed ⟨a, first, b, second, by omega, by omega, by omega, fun c third => ?_⟩
    have others := behind c third
    rw [less first third] at others
    omega

/-- A retry is taken for the latest approval exactly when the text order of the creation times agrees;
of times as the clock writes them, it fails to when the last second holds a whole one and a later one. -/
theorem findExecution_latest_iff {other : List Char → Option Int}
    (approvals : List (StoredApproval other)) (executionOwner executionKey : String) (now : Int) :
    (FindsLatest approvals executionOwner executionKey now ↔
        TextsInStep (retryable approvals executionOwner executionKey now)) ∧
      ∀ time : StoredApproval other → CivilTime,
        (∀ a ∈ retryable approvals executionOwner executionKey now,
          (time a).Valid ∧ a.createdAt.text = (time a).utcText) →
          (FindsLatest approvals executionOwner executionKey now ↔
            ¬ LastSecondMixed (retryable approvals executionOwner executionKey now) time) := by
  have main : FindsLatest approvals executionOwner executionKey now ↔
      TextsInStep (retryable approvals executionOwner executionKey now) := by
    constructor
    · rintro ⟨-, latest⟩ a first greatest b second
      cases found : findExecution approvals executionOwner executionKey now with
      | none =>
        rw [findExecution_none_iff.1 found] at first
        exact absurd first (Set.notMem_empty a)
      | some m =>
        obtain ⟨member, most⟩ := findExecution_greatest found
        -- equal greatest texts are texts of one instant
        rw [instant_eq_of_text (le_antisymm (most a first) (greatest m member))]
        exact (latest m found).2 b second
    · intro inStep
      refine ⟨findExecution_none_iff, fun a found => ?_⟩
      obtain ⟨member, greatest⟩ := findExecution_greatest found
      exact ⟨member, inStep a member greatest⟩
  exact ⟨main, fun time written => main.trans (textsInStep_iff written)⟩

/-- An approval created at a time that the clock wrote. -/
def createdAtTime (approvalId : String) (status : ApprovalStatus) (time : CivilTime)
    (valid : time.Valid) : StoredApproval fun _ => none where
  approvalId := approvalId
  executionOwner := "mcp"
  executionKey := "key"
  status := status
  createdAt := ⟨time.utcText, time.microseconds, by
    rw [parseTimestamp, CivilTime.readInstant_utcText valid]⟩
  expiresAt := none

/-- Rejected on the whole second. -/
def refusal : StoredApproval fun _ => none :=
  createdAtTime "apr_1" .rejected ⟨2026, 1, 1, 0, 0, 0, 0⟩ (by decide)

/-- Held half a second later. -/
def renewal : StoredApproval fun _ => none :=
  createdAtTime "apr_2" .pending ⟨2026, 1, 1, 0, 0, 0, 500000⟩ (by decide)

/-- Held a second after the refusal, on the whole second. -/
def nextSecond : StoredApproval fun _ => none :=
  createdAtTime "apr_2" .pending ⟨2026, 1, 1, 0, 0, 1, 0⟩ (by decide)

/-- Of a refusal and an approval a whole second newer, the newer one is found. -/
theorem findExecution_latest_pair :
    findExecution [refusal, nextSecond] "mcp" "key" 0 = some nextSecond ∧
      FindsLatest [refusal, nextSecond] "mcp" "key" 0 := by
  let time (a : StoredApproval fun _ => none) : CivilTime :=
    if a.approvalId = "apr_1" then ⟨2026, 1, 1, 0, 0, 0, 0⟩ else ⟨2026, 1, 1, 0, 0, 1, 0⟩
  have members : ∀ a ∈ retryable [refusal, nextSecond] "mcp" "key" 0, a = refusal ∨ a = nextSecond := by
    rintro a ⟨member, -⟩
    simpa using member
  constructor
  · have order : ¬ nextSecond.createdAt.text ≤ refusal.createdAt.text := by decide +kernel
    simpa [findExecution, activeMatches, firstMax, refusal, nextSecond, createdAtTime, isExpired] using order
  · refine ((findExecution_latest_iff [refusal, nextSecond] "mcp" "key" 0).2 time ?_).2 ?_
    · intro a member
      rcases members a member with rfl | rfl <;> exact ⟨by decide, rfl⟩
    · -- neither of the two has a fraction
      rintro ⟨a, -, b, member, -, -, part, -⟩
      rcases members b member with rfl | rfl <;> exact part rfl

/-- An approval half a second newer is passed by for one that was rejected. -/
theorem findExecution_takes_older :
    findExecution [refusal, renewal] "mcp" "key" 0 = some refusal ∧
      refusal.createdAt.instant < renewal.createdAt.instant ∧
        ¬ FindsLatest [refusal, renewal] "mcp" "key" 0 := by
  have found : findExecution [refusal, renewal] "mcp" "key" 0 = some refusal := by
    have order : renewal.createdAt.text ≤ refusal.createdAt.text := by decide +kernel
    simpa [findExecution, activeMatches, firstMax, refusal, renewal, createdAtTime, isExpired] using order
  have earlier : refusal.createdAt.instant < renewal.createdAt.instant := by decide +kernel
  refine ⟨found, earlier, fun latest => ?_⟩
  have order := (latest.2 refusal found).2 renewal
    ⟨by simp, by decide, rfl, rfl, .inr ⟨.inl rfl, rfl⟩⟩
  exact absurd order (not_le.2 earlier)

end StoredApproval

end DefiantHarness
