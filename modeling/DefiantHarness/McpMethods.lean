import DefiantHarness.Foundation.JsonEquality
import DefiantHarness.OperatorTrustState

/-! The reviewed client methods of one upstream: exact names, each with a disposition for requests and
one for notifications. -/
namespace DefiantHarness

open Foundation

def mcpProtocolVersion : Points := .ofString "2025-06-18"
def maxMethodNameCharacters : Nat := 128
def maxMcpConfigCollectionItems : Nat := 4096

def toolsCall : Points := .ofString "tools/call"
def initializeMethod : Points := .ofString "initialize"

/-! ### Method names -/

def isAsciiLetter (c : CodePoint) : Bool :=
  (0x41 ≤ c.val && c.val ≤ 0x5A) || (0x61 ≤ c.val && c.val ≤ 0x7A)

def isNamePart (c : CodePoint) : Bool :=
  isAsciiLetter c || (0x30 ≤ c.val && c.val ≤ 0x39) ||
    (Points.ofString "_.-").contains c

/-- `[A-Za-z][A-Za-z0-9_.-]*` -/
def isNameSegment : Points → Bool
  | [] => false
  | c :: cs => isAsciiLetter c && cs.all isNamePart

/-- The segments between slashes all match. -/
def matchesMethodName (value : Points) : Bool :=
  (value.splitOn (CodePoint.ofChar '/')).all isNameSegment

def validName (value : Points) : Bool :=
  0 < value.length && value.length ≤ maxMethodNameCharacters && matchesMethodName value &&
    !(Points.ofString "rpc.").isPrefixOf value

def validMethodName : Data → Bool
  | .str value => validName value
  | _ => false

/-! ### Dispositions -/

inductive MessageForm where
  | requests | notifications
deriving DecidableEq

def MessageForm.text : MessageForm → String
  | .requests => "requests"
  | .notifications => "notifications"

inductive MethodDisposition where
  | allow | deny | governed
deriving DecidableEq

/-- A method with its declared disposition. -/
abbrev MethodEntry := Points × MethodDisposition

/-- The methods that are never notifications. -/
def requestOnly : List Points :=
  [initializeMethod, .ofString "tools/list", .ofString "ping"]

def checkEntry (form : MessageForm) (seen : List Points) (entry : MethodEntry) :
    Except String Unit := do
  refuseIf (validName entry.1 = false) "invalid exact method name"
  refuseIf (entry.1 ∈ seen) "duplicate or conflicting method declaration"
  -- an allowed notification may not name a request, nor the other way round
  refuseIf (entry.2 = .allow ∧ (form = .notifications ∧ entry.1 ∈ requestOnly ∨
      form = .requests ∧ (Points.ofString "notifications/").isPrefixOf entry.1 = true))
    "method allow declaration has the wrong message form"
  refuseIf (entry.2 = .governed ∧ (entry.1 ≠ toolsCall ∨ form ≠ .requests))
    "only tools/call requests may be governed"
  -- these three keep `tools/call` behind the harness in every form
  refuseIf (entry.1 = toolsCall ∧ entry.2 = .allow) "tools/call cannot bypass governance"
  refuseIf (form = .notifications ∧ entry.1 = toolsCall ∧ entry.2 ≠ .deny)
    "tools/call notifications must be denied"

/-- The loop over one form's entries, with the names seen so far. -/
def checkEntries (form : MessageForm) : List Points → List MethodEntry → Except String Unit
  | _, [] => pure ()
  | seen, entry :: rest => do
    checkEntry form seen entry
    checkEntries form (entry.1 :: seen) rest

def boundedCollectionCount (count : Nat) (label : String) : Except String Unit :=
  refuseIf (maxMcpConfigCollectionItems < count)
    (label ++ " item count exceeds maximum of " ++ toString maxMcpConfigCollectionItems)

def checkCommands : List (List Points) → List (List Points) → Except String Unit
  | _, [] => pure ()
  | seen, command :: rest => do
    refuseIf (command = []) "each reviewed command must be a non-empty tuple"
    boundedCollectionCount command.length "reviewed command"
    refuseIf ([] ∈ command) "reviewed commands require exact non-empty strings"
    refuseIf (seen.contains command = true) "duplicate reviewed command"
    checkCommands (command :: seen) rest

/-- One review of exact client methods, as it is declared. -/
structure MethodReview where
  protocolVersion : Points
  serverName : Points
  commands : List (List Points)
  url : Points
  requests : List MethodEntry
  notifications : List MethodEntry

namespace MethodReview

def entries (review : MethodReview) : MessageForm → List MethodEntry
  | .requests => review.requests
  | .notifications => review.notifications

def checkForm (review : MethodReview) (form : MessageForm) : Except String Unit := do
  boundedCollectionCount (review.entries form).length ("method " ++ form.text)
  checkEntries form [] (review.entries form)

/-- `validateUrl` is the check that the transport makes of an upstream's address. -/
def checkUrl (validateUrl : Points → Except String Unit) (review : MethodReview) :
    Except String Unit :=
  if review.url = [] then pure () else validateUrl review.url

def validate (validateUrl : Points → Except String Unit) (review : MethodReview) :
    Except String Unit := do
  refuseIf (review.protocolVersion ≠ mcpProtocolVersion)
    "method dispositions require protocol 2025-06-18"
  refuseIf (TrustState.strip review.serverName = []) "reviewed server name must be non-empty"
  -- exactly one of the two ways to reach the server
  refuseIf ((review.commands = []) ↔ (review.url = []))
    "reviewed server requires exactly commands or url"
  boundedCollectionCount review.commands.length "reviewed commands"
  checkCommands [] review.commands
  review.checkUrl validateUrl
  review.checkForm .requests
  review.checkForm .notifications

end MethodReview

/-- A review that passed its validation. -/
structure McpMethodDispositions (validateUrl : Points → Except String Unit) extends MethodReview where
  valid : toMethodReview.validate validateUrl = .ok ()

namespace McpMethodDispositions

variable {validateUrl : Points → Except String Unit}

def formOf (notification : Bool) : MessageForm := if notification then .notifications else .requests

/-- The declared disposition of a method in one message form. -/
def disposition (policy : McpMethodDispositions validateUrl) (method : Points) (notification : Bool) :
    Option MethodDisposition :=
  ((policy.entries (formOf notification)).find? (·.1 == method)).map (·.2)

def requireBinding (policy : McpMethodDispositions validateUrl) (name : Points)
    (command : List Points) (url : Points) : Except String Unit :=
  refuseIf (name ≠ policy.serverName ∨ url ≠ policy.url ∨
      (command ≠ [] ∧ policy.commands.contains command = false))
    "method disposition reviewed server binding mismatch"

end McpMethodDispositions

/-! ### What a review says -/

/-- What an accepted entry has passed. -/
structure EntryChecked (form : MessageForm) (entry : MethodEntry) : Prop where
  name : validName entry.1 = true
  allowed : entry.2 = .allow → entry.1 ≠ toolsCall ∧
    (form = .notifications → entry.1 ∉ requestOnly) ∧
    (form = .requests → (Points.ofString "notifications/").isPrefixOf entry.1 = false)
  judged : entry.2 = .governed → entry.1 = toolsCall ∧ form = .requests

theorem checkEntry_ok {form : MessageForm} {seen : List Points} {entry : MethodEntry}
    (ok : checkEntry form seen entry = .ok ()) : EntryChecked form entry ∧ entry.1 ∉ seen := by
  simp only [checkEntry, refuseIf_bind_ok_iff, refuseIf_ok_iff] at ok
  obtain ⟨name, unseen, form', judged, bypass, -⟩ := ok
  refine ⟨⟨by simpa using name, ?_, ?_⟩, unseen⟩
  · intro allowed
    refine ⟨fun own => bypass ⟨own, allowed⟩, ?_, ?_⟩
    · intro notification listed
      exact form' ⟨allowed, .inl ⟨notification, listed⟩⟩
    · intro request
      rw [Bool.eq_false_iff]
      exact fun within => form' ⟨allowed, .inr ⟨request, within⟩⟩
  · intro chosen
    by_contra other
    rw [not_and_or] at other
    exact judged ⟨chosen, other⟩

theorem checkEntries_ok {form : MessageForm} {seen : List Points} {entries : List MethodEntry}
    (ok : checkEntries form seen entries = .ok ()) :
    (∀ entry ∈ entries, EntryChecked form entry) ∧ (entries.map (·.1)).Nodup ∧
      ∀ entry ∈ entries, entry.1 ∉ seen := by
  induction entries generalizing seen with
  | nil => simp
  | cons entry rest ih =>
    rw [checkEntries, unit_bind_ok_iff] at ok
    obtain ⟨checked, unseen⟩ := checkEntry_ok ok.1
    obtain ⟨each, distinct, apart⟩ := ih ok.2
    refine ⟨List.forall_mem_cons.2 ⟨checked, each⟩, ?_, List.forall_mem_cons.2 ⟨unseen, ?_⟩⟩
    · rw [List.map_cons, List.nodup_cons]
      refine ⟨?_, distinct⟩
      intro repeated
      obtain ⟨other, listed, same⟩ := List.mem_map.1 repeated
      exact apart other listed (same ▸ List.mem_cons_self)
    · intro other listed within
      exact apart other listed (List.mem_cons_of_mem _ within)

namespace McpMethodDispositions

variable {validateUrl : Points → Except String Unit}

theorem checked (policy : McpMethodDispositions validateUrl) (form : MessageForm) :
    ∀ entry ∈ policy.entries form, EntryChecked form entry := by
  have valid := policy.valid
  simp only [MethodReview.validate, unit_bind_ok_iff, MethodReview.checkForm] at valid
  obtain ⟨-, -, -, -, -, -, ⟨-, requests⟩, -, notifications⟩ := valid
  cases form with
  | requests => exact (checkEntries_ok requests).1
  | notifications => exact (checkEntries_ok notifications).1

theorem mem_of_disposition (policy : McpMethodDispositions validateUrl) {method : Points}
    {value : MethodDisposition} {notification : Bool}
    (declared : policy.disposition method notification = some value) :
    (method, value) ∈ policy.entries (formOf notification) := by
  obtain ⟨entry, found, rfl⟩ := Option.map_eq_some_iff.1 declared
  obtain rfl : entry.1 = method := by simpa using List.find?_some found
  exact List.mem_of_find?_eq_some found

/-- Nothing that is allowed is a `tools/call`, and only its requests are governed. -/
theorem disposition_checked (policy : McpMethodDispositions validateUrl) {method : Points}
    {value : MethodDisposition} {notification : Bool}
    (declared : policy.disposition method notification = some value) :
    EntryChecked (formOf notification) (method, value) :=
  policy.checked _ _ (policy.mem_of_disposition declared)

end McpMethodDispositions
end DefiantHarness
