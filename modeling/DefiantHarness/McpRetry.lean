import DefiantHarness.ApprovalStore
import DefiantHarness.Foundation.JsonEquality
import DefiantHarness.PayloadBinding
import DefiantHarness.StrictJson

/-! Retried `tools/call` requests: by which comparisons the proxy takes a call for the retry of an
approval, and rejects the duplicates of an executed one. -/
namespace DefiantHarness

open Foundation

/-- What an execution key binds beside the parameters. -/
structure ProxyIdentity where
  server : Points
  runner : Points
  userId : Points
  workspaceId : Points
  proxyFingerprint : Points

/-- An approval as the proxy reads it; `params` are the parameters that its action holds, if it
holds an action. -/
structure HeldApproval where
  approvalId : String
  status : ApprovalStatus
  executionOwner : String
  executionKey : String
  createdAt : Timestamp
  expiresAt : Option Timestamp
  params : Option Data

namespace HeldApproval

def isExpired (approval : HeldApproval) (now : Timestamp) : Bool :=
  match approval.expiresAt with
  | none => false
  | some expiresAt => expiresAt ≤ now

/-- An execution under way does not expire. -/
def current (approval : HeldApproval) (now : Timestamp) : Bool :=
  approval.status == .executing || !approval.isExpired now

end HeldApproval

def metaName : Points := Points.ofString "_meta"
def progressToken : Points := Points.ofString "progressToken"

/-- Remove only non-authority retry correlation metadata. -/
def authorityFields (fields : List Field) : List Field :=
  match fieldAt metaName fields with
  | some (.obj metadata) =>
    let kept := metadata.filter (·.1 ≠ progressToken)
    if kept.isEmpty then fields.filter (·.1 ≠ metaName)
    else fields.map fun f => if f.1 = metaName then (f.1, .obj kept) else f
  | _ => fields

def authorityParams : Data → Data
  | .obj fields => .obj (authorityFields fields)
  | x => x

/-- The first of the greatest. -/
def firstMax {α : Type} (less : α → α → Bool) : List α → Option α
  | [] => none
  | a :: as => some (as.foldl (fun best x => if less best x then x else best) a)

def priority : ApprovalStatus → Nat
  | .executing => 3
  | .approved => 2
  | .pending => 1
  | _ => 0

/-- The parameters that the approval holds are the same for the proxy. -/
def HeldApproval.holds (approval : HeldApproval) (authority : Data) : Bool :=
  match approval.params with
  | some held => (authorityParams held).equals authority
  | none => false

section

variable (sha : TextHash) (chunking : Chunking) (identity : ProxyIdentity) (owner : String)

def keyFields (params : Data) : List (String × Value) := [
  ("server", .str identity.server), ("runner", .str identity.runner),
  ("user_id", .str identity.userId), ("workspace_id", .str identity.workspaceId),
  ("proxy_fingerprint", .str identity.proxyFingerprint), ("params", .ofData params)]

def executionKey (params : Data) : Except HashFault String :=
  actionSha256Of sha chunking (.dict (Durable.record (keyFields identity params)))

/-- Find an unconsumed approval of the exact call. -/
def findExecution (approvals : List HeldApproval) (executionKey : String) (now : Timestamp) :
    Option HeldApproval :=
  if owner = "" ∨ executionKey = "" then none
  else
    let matching := approvals.filter fun a => a.executionOwner == owner &&
      a.executionKey == executionKey &&
      [ApprovalStatus.pending, .approved, .rejected, .executing].contains a.status
    firstMax (fun a b => textOrder a.createdAt < textOrder b.createdAt) (matching.filter (·.current now))

def listActionable (approvals : List HeldApproval) (now : Timestamp) : List HeldApproval :=
  (approvals.filter fun a => a.status.active && a.current now).mergeSort
    fun a b => textOrder a.createdAt ≤ textOrder b.createdAt

def listPending (approvals : List HeldApproval) (now : Timestamp) : List HeldApproval :=
  (approvals.filter fun a => a.status == .pending && !a.isExpired now).mergeSort
    fun a b => textOrder a.createdAt ≤ textOrder b.createdAt

/-- Recognize approvals created before progress tokens were normalized. -/
def findLegacyProgressExecution (approvals : List HeldApproval) (authority : Data)
    (now : Timestamp) : Option HeldApproval :=
  firstMax (fun a b => priority a.status < priority b.status ||
      (priority a.status == priority b.status && textOrder a.createdAt < textOrder b.createdAt))
    ((listActionable approvals now).filter fun a => a.executionOwner == owner && a.holds authority)

/-- The approval that a call is taken for a retry of. -/
def existingApproval (approvals : List HeldApproval) (params : Data) (now later : Timestamp) :
    Except HashFault (Option HeldApproval) := do
  let authority := authorityParams params
  let key ← executionKey sha chunking identity authority
  match findExecution owner approvals key now with
  | some approval => pure (some approval)
  | none => pure (findLegacyProgressExecution owner approvals authority later)

/-- The approvals that are rejected once the retry of another one is executed. -/
def duplicatePending (approvals : List HeldApproval) (authority : Data) (consumedApprovalId : String)
    (now : Timestamp) : List HeldApproval :=
  (listPending approvals now).filter fun a => a.approvalId != consumedApprovalId &&
    a.executionOwner == owner && a.holds authority

end

/-- A document as the strict reader decodes it. -/
structure Decoded (x : Data) : Prop where
  distinct : x.Distinct
  unpaired : ∀ s ∈ x.strings, s.unpaired = true

/-- One text, once the progress token is removed. -/
def SameText (p q : Data) : Prop := (authorityParams p).canonical = (authorityParams q).canonical

/-- The key of an approval was computed by some proxy over the parameters that it holds, with or
without their progress token. -/
def Minted (sha : TextHash) (chunking : Chunking) (approval : HeldApproval) : Prop :=
  ∀ p, approval.params = some p → Decoded p ∧ ∃ identity r, (r = p ∨ r = authorityParams p) ∧
    executionKey sha chunking identity r = .ok approval.executionKey

/-- In every store, an approval that holds `p` is taken for the retry `q`, or rejected as its
duplicate, only if the two have one text. -/
def OnlyExact (sha : TextHash) (chunking : Chunking) (identity : ProxyIdentity) (owner : String)
    (p q : Data) : Prop :=
  ∀ approvals : List HeldApproval, (∀ a ∈ approvals, Minted sha chunking a) →
    ∀ a ∈ approvals, a.params = some p →
      (∀ now later, existingApproval sha chunking identity owner approvals q now later =
        .ok (some a) → SameText p q) ∧
      ∀ consumed now, a ∈ duplicatePending owner approvals (authorityParams q) consumed now →
        SameText p q

/-- In every store, a retry with the same text is recognised while an approval that holds `p` is
live. -/
def AlwaysRecognised (sha : TextHash) (chunking : Chunking) (identity : ProxyIdentity)
    (owner : String) (p q : Data) : Prop :=
  SameText p q → ∀ approvals : List HeldApproval, ∀ a ∈ approvals, a.params = some p →
    a.executionOwner = owner → a.status.active = true → ∀ now later, a.current later = true →
      ∃ b, existingApproval sha chunking identity owner approvals q now later = .ok (some b)

/-! ### Removing the progress token -/

/-- What is left of the metadata. -/
private def authorityMeta : Option Data → Option Data
  | some (.obj metadata) =>
    let kept := metadata.filter (·.1 ≠ progressToken)
    if kept.isEmpty then none else some (.obj kept)
  | other => other

private theorem fieldAt_filter {k name : Points} {fields : List Field} :
    fieldAt k (fields.filter (·.1 ≠ name)) = if k = name then none else fieldAt k fields := by
  unfold fieldAt
  rw [List.find?_filter]
  split
  next same =>
    subst same
    simp
  next other =>
    congr 2
    funext f
    by_cases here : f.1 = k
    · simp [here, other]
    · simp [here]

private theorem fieldAt_authorityFields {k : Points} {fields : List Field} :
    fieldAt k (authorityFields fields) =
      if k = metaName then authorityMeta (fieldAt metaName fields) else fieldAt k fields := by
  unfold authorityFields
  split
  next metadata found =>
    rw [found]
    dsimp only [authorityMeta]
    split
    -- metadata that held a progress token only is left out altogether
    next none => rw [fieldAt_filter]
    next some =>
      unfold fieldAt
      rw [List.find?_map]
      have same : ((fun f : Field => f.1 == k) ∘ fun f =>
          if f.1 = metaName then (f.1, Data.obj (metadata.filter (·.1 ≠ progressToken))) else f) =
            fun f => f.1 == k := by
        funext f
        by_cases own : f.1 = metaName <;> simp [own]
      rw [same]
      split
      next here =>
        subst here
        obtain ⟨f, first, -⟩ := Option.map_eq_some_iff.1 found
        have name : f.1 = metaName := by simpa using List.find?_some first
        rw [first]
        simp [name]
      next other =>
        cases first : fields.find? (·.1 == k) with
        | none => rfl
        | some f =>
          have name : f.1 = k := by simpa using List.find?_some first
          simp [name, other]
  next other =>
    split
    next here =>
      subst here
      cases found : fieldAt metaName fields with
      | none => rfl
      | some x =>
        cases x with
        | obj metadata => exact absurd found (other metadata)
        | _ => rfl
    next => rfl

private theorem decoded_obj_iff {fields : List Field} :
    Decoded (.obj fields) ↔
      (fields.map (·.1)).Nodup ∧ ∀ f ∈ fields, f.1.unpaired = true ∧ Decoded f.2 := by
  constructor
  · rintro ⟨⟨names, values⟩, unpaired⟩
    rw [Data.distinctFields_iff] at values
    refine ⟨names, ?_⟩
    intro f member
    refine ⟨?_, values f member, ?_⟩
    · exact unpaired f.1 (Data.mem_stringsFields.2 ⟨f, member, .inl rfl⟩)
    · intro s inside
      exact unpaired s (Data.mem_stringsFields.2 ⟨f, member, .inr inside⟩)
  · rintro ⟨names, each⟩
    constructor
    · rw [Data.Distinct, Data.distinctFields_iff]
      exact ⟨names, fun f member => (each f member).2.distinct⟩
    · intro s member
      obtain ⟨f, own, rfl | inside⟩ := Data.mem_stringsFields.1 member
      · exact (each f own).1
      · exact (each f own).2.unpaired s inside

private theorem Decoded.filter {fields : List Field} (decoded : Decoded (.obj fields))
    (keep : Field → Bool) : Decoded (.obj (fields.filter keep)) := by
  rw [decoded_obj_iff] at decoded ⊢
  constructor
  · exact decoded.1.sublist (List.filter_sublist.map _)
  · intro f member
    exact decoded.2 f (List.mem_of_mem_filter member)

theorem Decoded.authorityParams {x : Data} (decoded : Decoded x) : Decoded (authorityParams x) := by
  cases x with
  | obj fields =>
    rw [DefiantHarness.authorityParams, authorityFields]
    split
    next metadata found =>
      dsimp only
      split
      next => exact decoded.filter _
      next =>
        have fieldsDecoded := decoded_obj_iff.1 decoded
        have member := (fieldAt_eq_some_iff fieldsDecoded.1).1 found
        have kept := (fieldsDecoded.2 _ member).2.filter (·.1 ≠ progressToken)
        rw [decoded_obj_iff, List.map_map]
        constructor
        -- the field keeps its name, so the names stay distinct
        · have names : (Prod.fst ∘ fun f : Field => if f.1 = metaName then
              (f.1, Data.obj (metadata.filter (·.1 ≠ progressToken))) else f) = Prod.fst := by
            funext f
            rw [Function.comp_apply]
            split <;> rfl
          rw [names]
          exact fieldsDecoded.1
        · intro f listed
          obtain ⟨g, own, rfl⟩ := List.mem_map.1 listed
          split
          next => exact ⟨(fieldsDecoded.2 g own).1, kept⟩
          next => exact fieldsDecoded.2 g own
    next => exact decoded
  | _ => exact decoded

private theorem eq_nil_iff_fieldAt {fields : List Field} : fields = [] ↔ ∀ k, fieldAt k fields = none := by
  constructor
  · rintro rfl k
    rfl
  · intro absent
    rw [List.eq_nil_iff_forall_not_mem]
    intro f member
    exact fieldAt_eq_none_iff.1 (absent f.1) (List.mem_map_of_mem member)

private theorem authorityMeta_congr {x y : Option Data} (decoded : ∀ z ∈ x, Decoded z)
    (decoded' : ∀ z ∈ y, Decoded z) (same : x.map Data.sorted = y.map Data.sorted) :
    (authorityMeta x).map Data.sorted = (authorityMeta y).map Data.sorted := by
  cases x with
  | none =>
    rw [Option.map_none, eq_comm, Option.map_eq_none_iff] at same
    rw [same]
  | some x =>
    obtain ⟨y, rfl, sorted⟩ := Option.map_eq_some_iff.1 same.symm
    have alike : x.Same y := sorted.symm
    cases x with
    | obj metadata =>
      cases y with
      | obj others =>
        have left := decoded _ rfl
        have right := decoded' _ rfl
        -- what is kept has the same fields, so that either both or none of it is empty
        have each := (Data.same_obj_iff (decoded_obj_iff.1 left).1 (decoded_obj_iff.1 right).1).1 alike
        have kept : ∀ k, (fieldAt k (metadata.filter (·.1 ≠ progressToken))).map Data.sorted =
            (fieldAt k (others.filter (·.1 ≠ progressToken))).map Data.sorted := by
          intro k
          rw [fieldAt_filter, fieldAt_filter]
          split
          next => rfl
          next => exact each k
        have empty : metadata.filter (·.1 ≠ progressToken) = [] ↔
            others.filter (·.1 ≠ progressToken) = [] := by
          rw [eq_nil_iff_fieldAt, eq_nil_iff_fieldAt]
          apply forall_congr'
          intro k
          rw [← Option.map_eq_none_iff, kept, Option.map_eq_none_iff]
        simp only [authorityMeta, List.isEmpty_iff]
        by_cases none : metadata.filter (·.1 ≠ progressToken) = []
        · rw [if_pos none, if_pos (empty.1 none)]
        · rw [if_neg none, if_neg (none ∘ empty.2)]
          refine congrArg some ((Data.same_obj_iff ?_ ?_).2 kept)
          · exact (decoded_obj_iff.1 (left.filter _)).1
          · exact (decoded_obj_iff.1 (right.filter _)).1
      | _ => simp [Data.Same, Data.sorted] at alike
    | _ => cases y <;> first | exact congrArg some alike | simp [Data.Same, Data.sorted] at alike

private theorem authorityMeta_idem (x : Option Data) : authorityMeta (authorityMeta x) = authorityMeta x := by
  rcases x with - | x
  · rfl
  · cases x with
    | obj metadata =>
      by_cases none : (metadata.filter (·.1 ≠ progressToken)).isEmpty = true
      · simp only [authorityMeta, if_pos none]
      · simp only [authorityMeta, if_neg none, List.filter_filter, Bool.and_self]
    | _ => rfl

private theorem names_of_decoded {x : Data} {fields : List Field} (decoded : Decoded x)
    (own : x = .obj fields) : (fields.map (·.1)).Nodup := by
  subst own
  exact (decoded_obj_iff.1 decoded).1

theorem authorityParams_congr {x y : Data} (decoded : Decoded x) (decoded' : Decoded y)
    (same : x.Same y) : (authorityParams x).Same (authorityParams y) := by
  cases x with
  | obj fields =>
    cases y with
    | obj others =>
      have left := decoded_obj_iff.1 decoded
      have right := decoded_obj_iff.1 decoded'
      have each := (Data.same_obj_iff left.1 right.1).1 same
      rw [authorityParams, authorityParams, Data.same_obj_iff
        (names_of_decoded decoded.authorityParams rfl) (names_of_decoded decoded'.authorityParams rfl)]
      intro k
      rw [fieldAt_authorityFields, fieldAt_authorityFields]
      split
      next =>
        apply authorityMeta_congr
        · intro z found
          exact (left.2 _ ((fieldAt_eq_some_iff left.1).1 found)).2
        · intro z found
          exact (right.2 _ ((fieldAt_eq_some_iff right.1).1 found)).2
        · exact each metaName
      next => exact each k
    | _ => simp [Data.Same, Data.sorted] at same
  | _ => cases y <;> first | exact same | simp [Data.Same, Data.sorted] at same

/-- Removing the token twice is removing it once. -/
theorem authorityParams_idem {x : Data} (decoded : Decoded x) :
    (authorityParams (authorityParams x)).Same (authorityParams x) := by
  cases x with
  | obj fields =>
    have twice := decoded.authorityParams.authorityParams
    rw [authorityParams, authorityParams, Data.same_obj_iff (names_of_decoded twice rfl)
      (names_of_decoded decoded.authorityParams rfl)]
    intro k
    rw [fieldAt_authorityFields, fieldAt_authorityFields, fieldAt_authorityFields]
    split
    next => rw [if_pos rfl, authorityMeta_idem]
    next => rfl
  | _ => rfl

/-! ### The three comparisons -/

section

variable {sha : TextHash} {chunking : Chunking} {identity : ProxyIdentity} {owner : String}
  {p q : Data}

/-- Parameters with one canonical text are the same. -/
private theorem Decoded.same {x y : Data} (decoded : Decoded x) (decoded' : Decoded y)
    (text : x.canonical = y.canonical) : x.Same y := by
  apply Data.same_of_canonical text
  intro s left t right units
  rw [← join_units_iff.2 (decoded.unpaired s left), units, join_units_iff.2 (decoded'.unpaired t right)]

/-- Calls with one execution key have the same parameters. -/
private theorem same_of_keys (collisionFree : Function.Injective sha) {other : ProxyIdentity}
    {x y : Data} {key : String} (decoded : Decoded x) (decoded' : Decoded y)
    (held : executionKey sha chunking other x = .ok key)
    (called : executionKey sha chunking identity y = .ok key) : x.Same y := by
  have digest := (actionSha256Of_digest held).symm.trans (actionSha256Of_digest called)
  have text := collisionFree ((String.append_right_inj _).1 digest)
  have record := (Data.render_eq_iff Layout.compact).1 text
  have params := Durable.record_field record "params"
    (v := .ofData x) (w := .ofData y) (by simp [keyFields]) (by simp [keyFields])
    (by simp [keyFields])
  rw [Value.written_ofData, Value.written_ofData] at params
  exact decoded.same decoded' (Data.canonical_eq_iff.2 params)

private theorem firstMax_mem {α : Type} {less : α → α → Bool} {xs : List α} {a : α}
    (first : firstMax less xs = some a) : a ∈ xs := by
  cases xs with
  | nil => cases first
  | cons b bs =>
    obtain rfl := Option.some.inj first
    clear first
    induction bs generalizing b with
    | nil => simp
    | cons c cs ih =>
      rw [List.foldl_cons]
      rcases List.mem_cons.1 (ih (if less b c then c else b)) with best | later
      · rw [best]
        split <;> simp
      · simp [later]

private theorem findExecution_key {approvals : List HeldApproval} {key : String} {now : Timestamp}
    {a : HeldApproval} (found : findExecution owner approvals key now = some a) :
    a.executionKey = key := by
  unfold findExecution at found
  split at found
  next => cases found
  next =>
    have matching := List.mem_of_mem_filter (firstMax_mem found)
    simp only [List.mem_filter, Bool.and_eq_true, beq_iff_eq] at matching
    exact matching.2.1.2

private theorem legacy_holds {approvals : List HeldApproval} {authority : Data} {now : Timestamp}
    {a : HeldApproval} (found : findLegacyProgressExecution owner approvals authority now = some a) :
    a.holds authority = true := by
  have member := firstMax_mem found
  simp only [List.mem_filter, Bool.and_eq_true] at member
  exact member.2.2

private theorem legacy_isSome {approvals : List HeldApproval} {authority : Data} {now : Timestamp}
    {a : HeldApproval} (listed : a ∈ approvals) (own : a.executionOwner = owner)
    (active : a.status.active = true) (current : a.current now = true)
    (holds : a.holds authority = true) :
    ∃ b, findLegacyProgressExecution owner approvals authority now = some b := by
  have compatible : a ∈ (listActionable approvals now).filter fun a =>
      a.executionOwner == owner && a.holds authority := by
    simp [listActionable, listed, own, active, current, holds]
  unfold findLegacyProgressExecution
  generalize (listActionable approvals now).filter _ = held at compatible
  cases held with
  | nil => cases compatible
  | cons b bs => exact ⟨_, rfl⟩

/-- Two comparisons go by the text; the other one goes by equality of values. -/
private theorem sameText_of_equals (decoded : Decoded p) (decoded' : Decoded q)
    (unmixed : ¬ ((authorityParams p).equals (authorityParams q) = true ∧
      Data.Mixed (authorityParams p) (authorityParams q)))
    (equal : (authorityParams p).equals (authorityParams q) = true) : SameText p q := by
  have same := Data.same_of_equals decoded.authorityParams.distinct decoded'.authorityParams.distinct
    equal (unmixed ⟨equal, ·⟩)
  rw [SameText, Data.canonical, Data.canonical, show _ = _ from same]

private theorem sameText_of_key (collisionFree : Function.Injective sha) (decoded : Decoded p)
    (decoded' : Decoded q) {a : HeldApproval} (minted : Minted sha chunking a)
    (held : a.params = some p)
    (called : executionKey sha chunking identity (authorityParams q) = .ok a.executionKey) :
    SameText p q := by
  obtain ⟨-, other, r, removed, key⟩ := minted p held
  have same : (authorityParams p).Same (authorityParams q) := by
    rcases removed with rfl | rfl
    · -- the key of an earlier release, over parameters with their token
      have whole := same_of_keys collisionFree decoded decoded'.authorityParams key called
      exact (authorityParams_congr decoded decoded'.authorityParams whole).trans
        (authorityParams_idem decoded')
    · exact same_of_keys collisionFree decoded.authorityParams decoded'.authorityParams key called
  rw [SameText, Data.canonical, Data.canonical, show _ = _ from same]

theorem alwaysRecognised (decoded : Decoded p) (decoded' : Decoded q)
    (keyed : ∃ key, executionKey sha chunking identity (authorityParams q) = .ok key) :
    AlwaysRecognised sha chunking identity owner p q := by
  intro text approvals a listed held own active now later current
  obtain ⟨key, keyed⟩ := keyed
  have same := decoded.authorityParams.same decoded'.authorityParams text
  have holds : a.holds (authorityParams q) = true := by
    rw [HeldApproval.holds, held]
    exact Data.equals_of_same decoded.authorityParams.distinct decoded'.authorityParams.distinct same
  obtain ⟨b, legacy⟩ := legacy_isSome listed own active current holds
  simp only [existingApproval, keyed, ok_bind]
  cases findExecution owner approvals key now with
  | some c => exact ⟨c, rfl⟩
  | none => exact ⟨b, congrArg Except.ok legacy⟩

/-- A call is taken for the retry of an approval, and rejects it as its duplicate, only with the
same text, unless a number stands where the other call has an equal number of another kind. -/
theorem exact_retry_iff (collisionFree : Function.Injective sha) (decoded : Decoded p)
    (decoded' : Decoded q)
    (keyed : ∃ key, executionKey sha chunking identity (authorityParams p) = .ok key)
    (keyed' : ∃ key, executionKey sha chunking identity (authorityParams q) = .ok key) :
    (OnlyExact sha chunking identity owner p q ∧ AlwaysRecognised sha chunking identity owner p q) ↔
      ¬ ((authorityParams p).equals (authorityParams q) = true ∧
        Data.Mixed (authorityParams p) (authorityParams q)) := by
  constructor
  · rintro ⟨exact, -⟩ ⟨equal, mixed⟩
    obtain ⟨key, keyed⟩ := keyed
    -- one approval that holds the first call is rejected as a duplicate of the second one
    let held : HeldApproval := ⟨"apr_", .pending, owner, key, 0, none, some p⟩
    have minted : ∀ a ∈ [held], Minted sha chunking a := by
      intro a member
      obtain rfl := List.mem_singleton.1 member
      intro r own
      obtain rfl := Option.some.inj own
      exact ⟨decoded, identity, _, .inr rfl, keyed⟩
    have duplicate : held ∈ duplicatePending owner [held] (authorityParams q) "" 0 := by
      simp [duplicatePending, listPending, held, HeldApproval.isExpired, HeldApproval.holds, equal]
    have text := (exact [held] minted held List.mem_cons_self rfl).2 "" 0 duplicate
    exact mixed.not_same decoded.authorityParams.distinct decoded'.authorityParams.distinct
      (decoded.authorityParams.same decoded'.authorityParams text)
  · intro unmixed
    refine ⟨?_, alwaysRecognised decoded decoded' keyed'⟩
    intro approvals minted a listed held
    have text (holds : a.holds (authorityParams q) = true) : SameText p q := by
      rw [HeldApproval.holds, held] at holds
      exact sameText_of_equals decoded decoded' unmixed holds
    constructor
    · intro now later existing
      simp only [existingApproval, bind_ok_iff] at existing
      obtain ⟨key, called, existing⟩ := existing
      cases found : findExecution owner approvals key now with
      | some b =>
        rw [found] at existing
        obtain rfl := Option.some.inj (Except.ok.inj existing)
        rw [← findExecution_key found] at called
        exact sameText_of_key collisionFree decoded decoded' (minted _ listed) held called
      | none =>
        rw [found] at existing
        exact text (legacy_holds (Except.ok.inj existing))
    · intro consumed now duplicate
      simp only [duplicatePending, List.mem_filter, Bool.and_eq_true] at duplicate
      exact text duplicate.2.2

end

namespace Demo

def proxyIdentity : ProxyIdentity where
  server := Points.ofString "ledger"
  runner := Points.ofString "stdio"
  userId := Points.ofString "ana"
  workspaceId := Points.ofString "ws"
  proxyFingerprint := Points.ofString "fp"

/-- The parameters `{"arguments": {"n": n}}`. -/
def callWith (n : Data) : Data :=
  .obj [(Points.ofString "arguments", .obj [(Points.ofString "n", n)])]

/-- The same call with a progress token. -/
def tokenCall : Data :=
  .obj [(Points.ofString "arguments", .obj [(Points.ofString "n", .int 1)]),
    (metaName, .obj [(progressToken, .str (Points.ofString "t"))])]

/-- The pending approval of the call with the number 1. -/
def numberHeld : HeldApproval where
  approvalId := "apr_1"
  status := .pending
  executionOwner := "mcp_stdio"
  executionKey := (executionKey String.ofList Chunking.single proxyIdentity (callWith (.int 1))).toOption.getD ""
  createdAt := 0
  expiresAt := none
  params := some (callWith (.int 1))

theorem decoded_callWith {n : Data} (decoded : Decoded n) : Decoded (callWith n) := by
  have name (s : String) : (Points.ofString s).unpaired = true := join_units_iff.1 (join_ofString s)
  have arguments : Decoded (.obj [(Points.ofString "n", n)]) := by
    rw [decoded_obj_iff]
    simpa using ⟨name "n", decoded⟩
  rw [callWith, decoded_obj_iff]
  simpa using ⟨name "arguments", arguments⟩

end Demo

private theorem ofList_injective : Function.Injective String.ofList := by
  intro text other same
  simpa using congrArg String.toList same

private theorem keyed_of_isSome {p : Data} (computed : (executionKey String.ofList Chunking.single
    Demo.proxyIdentity p).toOption.isSome = true) :
    ∃ key, executionKey String.ofList Chunking.single Demo.proxyIdentity p = .ok key := by
  generalize executionKey String.ofList Chunking.single Demo.proxyIdentity p = result at computed ⊢
  cases result with
  | ok key => exact ⟨key, rfl⟩
  | error e => cases computed

/-- The retry with a progress token of the call without one. -/
theorem exact_retry_token :
    OnlyExact String.ofList Chunking.single Demo.proxyIdentity "mcp_stdio" (Demo.callWith (.int 1))
        Demo.tokenCall ∧
      AlwaysRecognised String.ofList Chunking.single Demo.proxyIdentity "mcp_stdio"
        (Demo.callWith (.int 1)) Demo.tokenCall := by
  have name (s : String) : (Points.ofString s).unpaired = true := join_units_iff.1 (join_ofString s)
  have call : Decoded (Demo.callWith (.int 1)) := Demo.decoded_callWith ⟨trivial, by simp [Data.strings]⟩
  have retry : Decoded Demo.tokenCall := by
    have token : Decoded (.obj [(progressToken, .str (Points.ofString "t"))]) := by
      rw [decoded_obj_iff]
      refine ⟨by decide, ?_⟩
      intro f member
      obtain rfl := List.mem_singleton.1 member
      exact ⟨name "progressToken", trivial, by simpa [Data.strings] using name "t"⟩
    rw [Demo.tokenCall, decoded_obj_iff]
    refine ⟨by decide, ?_⟩
    intro f member
    rcases List.mem_cons.1 member with rfl | member
    · exact (decoded_obj_iff.1 call).2 _ List.mem_cons_self
    · obtain rfl := List.mem_singleton.1 member
      exact ⟨name "_meta", token⟩
  -- the retry differs in its progress token only, which the authority leaves out
  have same : authorityParams Demo.tokenCall = authorityParams (Demo.callWith (.int 1)) := by rfl
  have keyed := keyed_of_isSome (p := authorityParams (Demo.callWith (.int 1)))
    (by decide +kernel)
  have keyed' := keyed
  rw [← same] at keyed'
  apply (exact_retry_iff ofList_injective call retry keyed keyed').2
  rintro ⟨-, mixed⟩
  rw [same] at mixed
  exact mixed.not_same call.authorityParams.distinct call.authorityParams.distinct rfl

/-- The call with `true` is taken for the retry of the approval of the call with 1. -/
theorem truth_taken_for_number :
    Function.Injective String.ofList ∧ Decoded (Demo.callWith (.int 1)) ∧
      Decoded (Demo.callWith (.bool true)) ∧ Minted String.ofList Chunking.single Demo.numberHeld ∧
      existingApproval String.ofList Chunking.single Demo.proxyIdentity "mcp_stdio" [Demo.numberHeld]
        (Demo.callWith (.bool true)) 0 0 = .ok (some Demo.numberHeld) ∧
      ¬ SameText (Demo.callWith (.int 1)) (Demo.callWith (.bool true)) := by
  have held := Demo.decoded_callWith (n := .int 1) ⟨trivial, by simp [Data.strings]⟩
  have called := Demo.decoded_callWith (n := .bool true) ⟨trivial, by simp [Data.strings]⟩
  obtain ⟨key, keyed⟩ := keyed_of_isSome (p := Demo.callWith (.int 1)) (by decide +kernel)
  obtain ⟨key', keyed'⟩ := keyed_of_isSome (p := Demo.callWith (.bool true)) (by decide +kernel)
  have own : Demo.numberHeld.executionKey = key := by
    simp only [Demo.numberHeld, keyed]
    rfl
  have mixed : Data.Mixed (Demo.callWith (.int 1)) (Demo.callWith (.bool true)) := by
    apply Data.Mixed.field _ List.mem_cons_self List.mem_cons_self
    apply Data.Mixed.field _ List.mem_cons_self List.mem_cons_self
    exact .number 1 rfl rfl (by simp)
  have other := mixed.not_same held.distinct called.distinct
  have text : ¬ SameText (Demo.callWith (.int 1)) (Demo.callWith (.bool true)) := by
    intro same
    exact other (held.authorityParams.same called.authorityParams same)
  refine ⟨ofList_injective, held, called, ?_, ?_, text⟩
  · intro p params
    obtain rfl := Option.some.inj params
    exact ⟨held, Demo.proxyIdentity, _, .inl rfl, by rw [keyed, own]⟩
  · have apart : key ≠ key' := by
      rintro rfl
      exact other (same_of_keys ofList_injective held called keyed keyed')
    have authority : authorityParams (Demo.callWith (.bool true)) = Demo.callWith (.bool true) := by rfl
    have equal : Demo.numberHeld.holds (Demo.callWith (.bool true)) = true := by decide +kernel
    simp only [existingApproval, authority, keyed', ok_bind]
    -- the keys differ, so the retry is not found by its key
    have missed : findExecution "mcp_stdio" [Demo.numberHeld] key' 0 = none := by
      unfold findExecution
      split
      next => rfl
      next => simp [own, apart, firstMax]
    have listed : listActionable [Demo.numberHeld] 0 = [Demo.numberHeld] := by
      unfold listActionable
      rw [List.filter_cons_of_pos (by rfl)]
      exact List.mergeSort_singleton _
    -- the older search compares parameters as Python does, for which `True` is 1
    have compatible : ([Demo.numberHeld].filter fun a => a.executionOwner == "mcp_stdio" &&
        a.holds (Demo.callWith (.bool true))) = [Demo.numberHeld] := by
      rw [List.filter_cons_of_pos, List.filter_nil]
      rw [equal]
      rfl
    rw [missed]
    dsimp only
    rw [findLegacyProgressExecution, listed, compatible]
    rfl

end DefiantHarness
