import DefiantHarness.Foundation.EventStream
import DefiantHarness.McpSession
import DefiantHarness.PayloadBinding
import DefiantHarness.ToolRegistry

/-! The HTTP upstream session: what is read out of a reply, and how a tool call routes it. -/
namespace DefiantHarness

open Foundation

namespace HttpUpstream

def maxHttpBodyBytes : Nat := 10 * 1024 * 1024
def maxToolResultSummaryCharacters : Nat := 64 * 1024

/-- A decoded JSON-RPC message. -/
abbrev Message := List Field

/-! ### Reading a reply -/

/-- `_json_object` -/
def jsonObject (value : List Char) : Except String Message := do
  let parsed ← (loadsStrictJson "upstream HTTP JSON" value).mapError
    ("upstream emitted invalid JSON: " ++ ·)
  match parsed with
  | .obj fields => pure fields
  | _ => throw "upstream HTTP body must be one JSON-RPC object"

/-- `str.partition(":")` -/
def partitionColon (line : List Char) : List Char × Bool × List Char :=
  match line.dropWhile (· ≠ ':') with
  | [] => (line, false, [])
  | _ :: value => (line.takeWhile (· ≠ ':'), true, value)

/-- The locals of `_read_sse`. -/
structure SseState where
  messages : List Message := []
  dataLines : List (List Char) := []
  total : Nat := 0

/-- The message of the data lines held so far, if there are any. -/
def SseState.flush (s : SseState) : Except String (List Message) :=
  if s.dataLines = [] then pure s.messages
  else do
    let message ← jsonObject (['\n'].intercalate s.dataLines)
    pure (s.messages ++ [message])

/-- The body of the loop over the response. -/
def SseState.readLine (s : SseState) (rawLine : List UInt8) : Except String SseState := do
  let total := s.total + rawLine.length
  refuseIf (maxHttpBodyBytes < total) "upstream SSE response exceeded size limit"
  -- `_post` turns a `UnicodeError` into this error, followed by the codec's text
  match decodeUtf8 rawLine with
  | none => throw "upstream HTTP response could not be read: "
  | some text =>
    match stripLineEnd text with
    | [] => do
      let messages ← s.flush
      pure ⟨messages, [], total⟩
    | ':' :: _ => pure { s with total }
    | line =>
      let (field, separator, value) := partitionColon line
      if field = ['d', 'a', 't', 'a'] then
        pure { s with
          dataLines := s.dataLines ++
            [if separator && value.head? == some ' ' then value.tail else value]
          total }
      else pure { s with total }

/-- `_read_sse`; iterating the response cuts its body after each line feed. -/
def readSse (body : List UInt8) : Except String (List Message) := do
  let s ← (rows 10 body).foldlM SseState.readLine {}
  let messages ← s.flush
  refuseIf (messages = []) "upstream SSE response contained no JSON-RPC message"
  pure messages

/-! ### Routing a reply -/

structure ToolResult where
  status : ToolStatus
  summary : Points
  output : Data

/-- What a tool call comes to: a result, or an exception that leaves `call_tool`. -/
inductive CallOutcome where
  | returned (result : ToolResult)
  | raised (message : String)

/-- The site of a session: how `str` writes JSON data, the hash of a result's output, and whether
the client's stream takes a message after those already written. -/
structure Site where
  text : Data → Points
  sha : TextHash
  chunking : Chunking
  accepts : List Message → Message → Bool

def mcpResult : Points := .ofString "_defiant_mcp_result"
def mcpError : Points := .ofString "_defiant_mcp_error"

variable (site : Site)

/-- The constructor of a tool result checks its contract. -/
def toolResultOf (status : ToolStatus) (summary : Points) (output : Data) : CallOutcome :=
  if maxToolResultSummaryCharacters < summary.length then
    .raised "tool result summary exceeds maximum of 65536 characters"
  else
    match actionSha256Of site.sha site.chunking (.ofData output) with
    | .ok _ => .returned ⟨status, summary, output⟩
    | .error ⟨some _, _⟩ => .raised "tool result output exceeds a fixed canonical-value ceiling"
    | .error ⟨none, _⟩ => .raised "tool result output is not canonical JSON data"

/-- `_failed_result` -/
def failedResult (message : String) : CallOutcome :=
  toolResultOf site .failed (.ofString message)
    (.obj [(mcpError, .obj [(.ofString "code", .int (-32000)),
      (.ofString "message", .str (.ofString message))])])

/-- `str.strip` -/
def stripPoints (s : Points) : Points :=
  ((s.dropWhile blankPoint).reverse.dropWhile blankPoint).reverse

/-- The text of a content item that is one. -/
def itemText (item : Data) : Option Points :=
  match item.field "type", item.field "text" with
  | some (.str kind), some (.str text) => if kind = .ofString "text" then some text else none
  | _, _ => none

/-- `_result_summary` -/
def resultSummary (content : List Data) (failed : Bool) : Points :=
  let texts := ((content.filterMap itemText).map stripPoints).filter (· ≠ [])
  let summary := (Points.ofString " ").intercalate texts
  if summary ≠ [] then summary.take 500
  else .ofString (if failed then "upstream tool reported an error" else "upstream tool succeeded")

/-- `_tool_result` -/
def toolResult (response : Message) : CallOutcome :=
  match (Data.obj response).field "error" with
  | some error =>
    let summary := match error with
      | .obj fields =>
        match (Data.obj fields).field "message" with
        | some (.str text) => text
        -- a message that is no text is shown as Python prints it
        | some other => site.text other
        | none => .ofString "upstream JSON-RPC error"
      | _ => .ofString "upstream JSON-RPC error"
    toolResultOf site .failed summary (.obj [(mcpError, error)])
  | none =>
    match (Data.obj response).field "result" with
    | some (.obj result) =>
      match (Data.obj result).field "content", (Data.obj result).field "isError" with
      -- `isError` is optional, and absent it means success
      | some (.arr content), none =>
        toolResultOf site .succeeded (resultSummary content false) (.obj [(mcpResult, .obj result)])
      | some (.arr content), some (.bool failed) =>
        toolResultOf site (if failed then .failed else .succeeded) (resultSummary content failed)
          (.obj [(mcpResult, .obj result)])
      | _, _ => failedResult site "upstream tools/call returned an invalid CallToolResult"
    | _ => failedResult site "upstream tools/call returned a non-object result"

/-- The message has a field of this name. -/
def Message.has (m : Message) (name : String) : Bool := ((Data.obj m).field name).isSome

/-- The message carries the identifier. -/
def Message.carries (m : Message) (id : Points) : Bool :=
  UpstreamSession.replyId (.obj m) = some id

/-- The loop of `call_tool` over the decoded messages, with the reply found so far and what is
written to the client. -/
def route (internalId : Points) (response : Option Message) (written : List Message) :
    List Message → CallOutcome × List Message
  | [] =>
    match response with
    | none => (failedResult site "upstream HTTP response omitted the tools/call reply", written)
    | some response => (toolResult site response, written)
  | message :: messages =>
    if message.carries internalId then
      match response with
      | some _ => (failedResult site "upstream HTTP response repeated the tools/call reply", written)
      | none => route internalId (some message) written messages
    else if message.has "method" && message.has "id" then
      (failedResult site ("upstream issued a request during a synchronous HTTP tool call; " ++
        "bidirectional request handling is not enabled"), written)
    else if message.has "id" then
      (failedResult site "upstream HTTP response used an unexpected JSON-RPC id", written)
    else if !message.has "method" then
      (failedResult site "upstream HTTP response included an invalid JSON-RPC message", written)
    else if site.accepts written message then
      route internalId response (written ++ [message]) messages
    else (.raised "the client's stream failed", written)

/-- `call_tool`, by what `_post` returned or raised: the outcome, and what is written to the
client. -/
def callTool (internalId : Points) (posted : Except String (List Message)) :
    CallOutcome × List Message :=
  match posted with
  | .error message => (failedResult site message, [])
  | .ok messages => route site internalId none [] messages

end HttpUpstream
end DefiantHarness
