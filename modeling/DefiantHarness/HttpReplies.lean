import DefiantHarness.HttpSession

/-!
# HTTP replies

The line loop of the reader collects exactly the events of the stream, and the routing loop of a
tool call succeeds only on one well-formed reply among notifications.
-/
namespace DefiantHarness

open Foundation

namespace HttpUpstream

/-! ### Reading -/

/-- The data of an event is a strict JSON object, read as this message. -/
def Reads (data : List Char) (message : Message) : Prop :=
  loadsStrictJson "upstream HTTP JSON" data = .ok (.obj message)

private theorem jsonObject_ok_iff {data : List Char} {message : Message} :
    jsonObject data = .ok message ↔ Reads data message := by
  unfold jsonObject Reads
  cases loadsStrictJson "upstream HTTP JSON" data with
  | error e => simp [Except.mapError, bind, Except.bind]
  | ok parsed => cases parsed <;> simp [Except.mapError, bind, Except.bind, pure, Except.pure, throw,
      throwThe, MonadExceptOf.throw]

private theorem flush_ok_iff {s : SseState} {messages : List Message} :
    s.flush = .ok messages ↔
      ∃ read, List.Forall₂ Reads (joinedLines s.dataLines).toList read ∧
        messages = s.messages ++ read := by
  unfold SseState.flush joinedLines
  split
  · simp [pure, Except.pure, eq_comm]
  · rw [bind_ok_iff]
    constructor
    · rintro ⟨message, read, same⟩
      exact ⟨[message], .cons (jsonObject_ok_iff.mp read) .nil, by simpa [pure_ok_iff] using same.symm⟩
    · rintro ⟨read, all, rfl⟩
      cases all with
      | cons first rest =>
        cases rest
        exact ⟨_, jsonObject_ok_iff.mpr first, rfl⟩

/-- What the loop body holds of a line is the value of its `data` field. -/
private theorem partition_eq_dataField (line : List Char) :
    (if (partitionColon line).1 = ['d', 'a', 't', 'a'] then
      some (if (partitionColon line).2.1 && (partitionColon line).2.2.head? == some ' ' then
        (partitionColon line).2.2.tail else (partitionColon line).2.2)
      else none) = dataField line := by
  unfold partitionColon dataField
  cases found : line.dropWhile (· ≠ ':') with
  | nil =>
    have whole := List.takeWhile_append_dropWhile (p := (· ≠ ':')) (l := line)
    rw [found, List.append_nil] at whole
    rw [whole]
    rfl
  | cons colon value =>
    rcases value with _ | ⟨c, value⟩
    · simp
    · by_cases space : c = ' '
      · subst space
        simp
      · simp [space]

private theorem readLine_ok_iff {s s' : SseState} {rawLine : List UInt8} :
    s.readLine rawLine = .ok s' ↔
      s.total + rawLine.length ≤ maxHttpBodyBytes ∧ ∃ text, decodeUtf8 rawLine = some text ∧
        if stripLineEnd text = [] then
          ∃ messages, s.flush = .ok messages ∧ s' = ⟨messages, [], s.total + rawLine.length⟩
        else
          s' = ⟨s.messages, s.dataLines ++ (dataField (stripLineEnd text)).toList,
            s.total + rawLine.length⟩ := by
  unfold SseState.readLine
  rw [refuseIf_bind_ok_iff, Nat.not_lt]
  refine and_congr_right fun _ => ?_
  cases decodeUtf8 rawLine with
  | none => simp [throw, throwThe, MonadExceptOf.throw]
  | some text =>
    simp only [Option.some.injEq, exists_eq_left']
    split
    next blank =>
      rw [if_pos blank, bind_ok_iff]
      simp [pure, Except.pure, eq_comm]
    -- a line that starts with a colon is skipped, and carries no data either way
    next rest comment =>
      have none : dataField (stripLineEnd text) = none := by simp [comment, dataField]
      rw [none]
      simp [comment, pure, Except.pure, eq_comm]
    next line blank _ =>
      rw [if_neg blank, ← partition_eq_dataField]
      split
      next => exact pure_ok_iff
      next =>
        rw [Option.toList_none, List.append_nil]
        exact pure_ok_iff

private theorem forall₂_append_left_iff {α β : Type} {R : α → β → Prop} {as bs : List α}
    {cs : List β} : List.Forall₂ R (as ++ bs) cs ↔
      ∃ first second, List.Forall₂ R as first ∧ List.Forall₂ R bs second ∧ cs = first ++ second := by
  induction as generalizing cs with
  | nil => simp
  | cons a as ih =>
    simp only [List.cons_append, List.forall₂_cons_left_iff, ih]
    constructor
    · rintro ⟨c, _, related, ⟨first, second, left, right, rfl⟩, rfl⟩
      exact ⟨_, second, ⟨c, first, related, left, rfl⟩, right, rfl⟩
    · rintro ⟨_, second, ⟨c, first, related, left, rfl⟩, right, rfl⟩
      exact ⟨c, _, related, ⟨first, second, left, right, rfl⟩, rfl⟩

/-- The loop over the rows: it reads what the lines collect, within the size limit. -/
private theorem readLines_ok_iff {rows : List (List UInt8)} {s s' : SseState}
    (within : s.total ≤ maxHttpBodyBytes) :
    rows.foldlM SseState.readLine s = .ok s' ↔
      s.total + rows.flatten.length ≤ maxHttpBodyBytes ∧
        ∃ texts, List.Forall₂ (fun row text => decodeUtf8 row = some text) rows texts ∧
          ∃ read, List.Forall₂ Reads (collect s.dataLines (texts.map stripLineEnd)).1 read ∧
            s' = ⟨s.messages ++ read, (collect s.dataLines (texts.map stripLineEnd)).2,
              s.total + rows.flatten.length⟩ := by
  -- the state carries the data lines of the event that is still open
  induction rows generalizing s with
  | nil =>
    simp only [List.foldlM_nil, List.flatten_nil, List.length_nil, Nat.add_zero,
      List.forall₂_nil_left_iff, exists_eq_left, List.map_nil, collect, List.append_nil]
    constructor
    · intro done
      exact ⟨within, (Except.ok.inj done).symm⟩
    · rintro ⟨-, rfl⟩
      rfl
  | cons row rows ih =>
    rw [List.foldlM_cons, bind_ok_iff]
    simp only [List.flatten_cons, List.length_append, List.forall₂_cons_left_iff]
    constructor
    · rintro ⟨middle, first, later⟩
      obtain ⟨fits, text, decoded, first⟩ := readLine_ok_iff.mp first
      split at first
      next blank =>
        obtain ⟨messages, flushed, rfl⟩ := first
        obtain ⟨read₁, all₁, rfl⟩ := flush_ok_iff.mp flushed
        obtain ⟨fits, texts, decodes, read₂, all₂, rfl⟩ := (ih fits).mp later
        dsimp only at fits
        refine ⟨by omega, _, ⟨text, texts, decoded, decodes, rfl⟩, read₁ ++ read₂, ?_, ?_⟩
        · rw [List.map_cons, collect, if_pos blank]
          exact List.rel_append all₁ all₂
        · simp [collect, blank, Nat.add_assoc]
      next visible =>
        subst first
        obtain ⟨fits, texts, decodes, read, all, rfl⟩ := (ih fits).mp later
        dsimp only at fits
        refine ⟨by omega, _, ⟨text, texts, decoded, decodes, rfl⟩, read, ?_, ?_⟩
        · rwa [List.map_cons, collect, if_neg visible]
        · simp [collect, visible, Nat.add_assoc]
    · rintro ⟨fits, _, ⟨text, texts, decoded, decodes, rfl⟩, read, all, rfl⟩
      have first : s.total + row.length ≤ maxHttpBodyBytes := by omega
      rw [List.map_cons, collect] at all
      split at all
      next blank =>
        obtain ⟨read₁, read₂, all₁, all₂, rfl⟩ := forall₂_append_left_iff.mp all
        refine ⟨⟨s.messages ++ read₁, [], s.total + row.length⟩, readLine_ok_iff.mpr
          ⟨first, text, decoded, ?_⟩, (ih first).mpr ⟨by dsimp only; omega, texts, decodes, read₂, all₂, ?_⟩⟩
        · rw [if_pos blank]
          exact ⟨_, flush_ok_iff.mpr ⟨read₁, all₁, rfl⟩, rfl⟩
        · simp [collect, blank, Nat.add_assoc]
      next visible =>
        refine ⟨_, readLine_ok_iff.mpr ⟨first, text, decoded, (if_neg visible).mpr rfl⟩,
          (ih first).mpr ⟨by dsimp only; omega, texts, decodes, read, all, ?_⟩⟩
        simp [collect, visible, Nat.add_assoc]

/-- What the reader returns, for any bytes: lines end at line feeds, and the ends of the lines are
stripped. -/
theorem readSse_ok_iff {body : List UInt8} {messages : List Message} :
    readSse body = .ok messages ↔
      body.length ≤ maxHttpBodyBytes ∧ messages ≠ [] ∧ ∃ s, decodeUtf8 body = some s ∧
        List.Forall₂ Reads ((collect [] ((rows '\n' s).map stripLineEnd)).1 ++
          (joinedLines (collect [] ((rows '\n' s).map stripLineEnd)).2).toList) messages := by
  rw [readSse, bind_ok_iff]
  constructor
  · rintro ⟨s, loop, rest⟩
    obtain ⟨fits, texts, decodes, read₁, all₁, rfl⟩ := (readLines_ok_iff (Nat.zero_le _)).mp loop
    obtain ⟨text, decoded, rfl⟩ := decode_rows_iff.mp decodes
    obtain ⟨found, flushed, rest⟩ := bind_ok_iff.mp rest
    obtain ⟨read₂, all₂, rfl⟩ := flush_ok_iff.mp flushed
    obtain ⟨nonempty, same⟩ := refuseIf_bind_ok_iff.mp rest
    obtain rfl := pure_ok_iff.mp same
    rw [flatten_rows] at fits
    exact ⟨by simpa using fits, nonempty, text, decoded, List.rel_append all₁ all₂⟩
  · rintro ⟨fits, nonempty, text, decoded, all⟩
    obtain ⟨read₁, read₂, all₁, all₂, rfl⟩ := forall₂_append_left_iff.mp all
    refine ⟨_, (readLines_ok_iff (Nat.zero_le _)).mpr ⟨by simpa [flatten_rows] using fits, _,
      decode_rows_iff.mpr ⟨text, decoded, rfl⟩, read₁, all₁, rfl⟩, ?_⟩
    refine bind_ok_iff.mpr ⟨read₁ ++ read₂, flush_ok_iff.mpr ⟨read₂, all₂, rfl⟩, ?_⟩
    exact refuseIf_bind_ok_iff.mpr ⟨nonempty, rfl⟩

/-- Every carriage return of the body belongs to a CRLF, and no byte order mark opens it. -/
structure Plain (body : List UInt8) : Prop where
  paired : Precedes 13 10 body
  unmarked : ¬ [0xEF, 0xBB, 0xBF] <+: body

/-- The reader returns exactly the strict JSON objects that the events of the stream carry, with
the event that the end of the stream cuts off, in order. -/
theorem readSse_events {body : List UInt8} (plain : Plain body) {messages : List Message} :
    readSse body = .ok messages ↔
      body.length ≤ maxHttpBodyBytes ∧ messages ≠ [] ∧ ∃ s, decodeUtf8 body = some s ∧
        List.Forall₂ Reads (dispatched s ++ (unfinished s).toList) messages := by
  rw [readSse_ok_iff]
  refine and_congr_right fun _ => and_congr_right fun _ => exists_congr fun s =>
    and_congr_right fun decoded => ?_
  obtain rfl := decodeUtf8_iff.mp decoded
  -- the reader strips no byte order mark, and a plain body starts with none
  have unmarked : s.head? ≠ some '\uFEFF' := by
    intro marked
    cases s with
    | nil => cases marked
    | cons c s =>
      obtain rfl := Option.some.inj marked
      exact plain.unmarked ⟨encodeUtf8 s, rfl⟩
  obtain ⟨lines, last⟩ := streamLines_of_precedes (precedes_of_encodeUtf8 plain.paired) unmarked
  have same : (rows '\n' s).map stripLineEnd =
      (streamLines s).1 ++ if (streamLines s).2 = [] then [] else [(streamLines s).2] := by
    rw [lines, rows, List.map_append, List.map_map]
    dsimp only
    split
    · rfl
    · rw [List.map_singleton, last]
      rfl
  rw [same, collect_streamLines]

/-! ### Routing -/

/-- A JSON-RPC notification has a method and no identifier. -/
def Notification (message : Message) : Prop := message.has "method" ∧ message.has "id" = false

/-- The reply is a well-formed `CallToolResult` that reports no error. -/
structure ReportsSuccess (response : Message) : Prop where
  noError : (Data.obj response).field "error" = none
  result : ∃ result content, (Data.obj response).field "result" = some (.obj result) ∧
    (Data.obj result).field "content" = some (.arr content) ∧
      ((Data.obj result).field "isError" = none ∨
        (Data.obj result).field "isError" = some (.bool false))

section Routing

variable {site : Site} {internalId : Points}

theorem Notification.not_carries {message : Message} (notification : Notification message) :
    message.carries internalId = false := by
  have none : (Data.obj message).field "id" = none := by
    simpa [Message.has] using notification.2
  simp [Message.carries, UpstreamSession.replyId, none]

private theorem toolResultOf_status {status : ToolStatus} {summary : Points} {output : Data}
    {result : ToolResult} (returned : toolResultOf site status summary output = .returned result) :
    result.status = status := by
  unfold toolResultOf at returned
  split at returned
  · cases returned
  · split at returned <;> cases returned
    rfl

private theorem failedResult_status {message : String} {result : ToolResult}
    (returned : failedResult site message = .returned result) : result.status ≠ .succeeded := by
  rw [toolResultOf_status returned]
  nofun

private theorem toolResult_succeeded {response : Message} {result : ToolResult}
    (returned : toolResult site response = .returned result) (succeeded : result.status = .succeeded) :
    ReportsSuccess response := by
  unfold toolResult at returned
  split at returned
  · have failed := toolResultOf_status returned
    rw [succeeded] at failed
    cases failed
  next noError =>
    refine ⟨noError, ?_⟩
    split at returned
    next object found =>
      split at returned
      next content hasContent noFlag => exact ⟨object, content, found, hasContent, .inl noFlag⟩
      next content failed hasContent flag =>
        cases failed with
        | false => exact ⟨object, content, found, hasContent, .inr flag⟩
        | true =>
          have failed := toolResultOf_status returned
          rw [succeeded] at failed
          cases failed
      next => exact absurd succeeded (failedResult_status returned)
    next => exact absurd succeeded (failedResult_status returned)

/-- The messages without the private id. -/
def others (internalId : Points) (messages : List Message) : List Message :=
  messages.filter fun m => !m.carries internalId

/-- Behind `earlier` the message ends the loop: it is a second reply, or it is neither the reply nor a
notification that the client's stream takes. -/
def EndsLoop (site : Site) (internalId : Points) (earlier : List Message) (message : Message) : Prop :=
  (message.carries internalId ∧ ∃ reply ∈ earlier, reply.carries internalId) ∨
    (message.carries internalId = false ∧
      (¬ Notification message ∨ site.accepts (others internalId earlier) message = false))

/-- One round of the loop: it ends there, the message is the reply, or it is a notification that is
written. -/
private theorem route_cons (response : Option Message) (written messages : List Message)
    (message : Message) :
    (∃ outcome, (∀ result, outcome = .returned result → result.status ≠ .succeeded) ∧
      ((message.carries internalId ∧ response.isSome) ∨ (message.carries internalId = false ∧
        (¬ Notification message ∨ site.accepts written message = false))) ∧
      route site internalId response written (message :: messages) = (outcome, written)) ∨
    (message.carries internalId ∧ response = none ∧
      route site internalId response written (message :: messages) =
        route site internalId (some message) written messages) ∨
    (Notification message ∧ site.accepts written message ∧
      route site internalId response written (message :: messages) =
        route site internalId response (written ++ [message]) messages) := by
  generalize round : route site internalId response written (message :: messages) = next
  unfold route at round
  split at round
  -- a second response to the call is a failure; the first is kept and the loop goes on
  next mine =>
    split at round
    · exact .inl ⟨_, fun _ => failedResult_status, .inl ⟨mine, rfl⟩, round.symm⟩
    · exact .inr (.inl ⟨mine, rfl, round.symm⟩)
  next other =>
  have other : message.carries internalId = false := by simpa using other
  split at round
  next request =>
    refine .inl ⟨_, fun _ => failedResult_status, .inr ⟨other, .inl fun note => ?_⟩, round.symm⟩
    simp [note.2] at request
  split at round
  next named =>
    refine .inl ⟨_, fun _ => failedResult_status, .inr ⟨other, .inl fun note => ?_⟩, round.symm⟩
    simp [note.2] at named
  next noId =>
  split at round
  next silent =>
    refine .inl ⟨_, fun _ => failedResult_status, .inr ⟨other, .inl fun note => ?_⟩, round.symm⟩
    simp [note.1] at silent
  next method =>
  have note : Notification message := ⟨by simpa using method, by simpa using noId⟩
  split at round
  next taken => exact .inr (.inr ⟨note, taken, round.symm⟩)
  next refused =>
    exact .inl ⟨.raised "the client's stream failed", nofun,
      .inr ⟨other, .inr (by simpa using refused)⟩, round.symm⟩

/-- The loop runs up to the first message that ends it, and has then written the notifications before
that message. -/
theorem route_written {response : Option Message} {earlier : List Message}
    (replied : response.isSome ↔ ∃ reply ∈ earlier, reply.carries internalId)
    (messages : List Message) :
    ∃ checked rest, messages = checked ++ rest ∧
      (∀ m ∈ rest.head?, EndsLoop site internalId (earlier ++ checked) m) ∧
      (∀ before m after, checked = before ++ m :: after →
        ¬ EndsLoop site internalId (earlier ++ before) m) ∧
      (route site internalId response (others internalId earlier) messages).2 =
        others internalId (earlier ++ checked) := by
  induction messages generalizing response earlier with
  | nil =>
    refine ⟨[], [], rfl, by simp, by simp, ?_⟩
    cases response <;> simp [route]
  | cons message messages ih =>
    -- whatever goes on does so behind `message`, and the rest is checked from there
    have onward {next : Option Message} (here : ¬ EndsLoop site internalId earlier message)
        (replied : next.isSome ↔ ∃ reply ∈ earlier ++ [message], reply.carries internalId)
        (goes : route site internalId response (others internalId earlier) (message :: messages) =
          route site internalId next (others internalId (earlier ++ [message])) messages) :
        ∃ checked rest, message :: messages = checked ++ rest ∧
          (∀ m ∈ rest.head?, EndsLoop site internalId (earlier ++ checked) m) ∧
          (∀ before m after, checked = before ++ m :: after →
            ¬ EndsLoop site internalId (earlier ++ before) m) ∧
          (route site internalId response (others internalId earlier) (message :: messages)).2 =
            others internalId (earlier ++ checked) := by
      obtain ⟨checked, rest, rfl, ends, goOn, final⟩ := ih replied
      rw [List.append_assoc, List.singleton_append] at ends final
      refine ⟨message :: checked, rest, rfl, ends, ?_, by rw [goes, final]⟩
      intro before m after cut
      cases before with
      | nil =>
        obtain ⟨rfl, -⟩ := List.cons.inj cut
        rwa [List.append_nil]
      | cons first before =>
        obtain ⟨rfl, tail⟩ := List.cons.inj cut
        have later := goOn before m after tail
        rwa [List.append_assoc, List.singleton_append] at later
    rcases @route_cons site internalId response (others internalId earlier) messages message with
        ⟨outcome, -, why, ends⟩ | ⟨mine, rfl, goes⟩ | ⟨note, taken, goes⟩
    · refine ⟨[], message :: messages, rfl, ?_, by simp, by simp [ends]⟩
      rintro m ⟨⟩
      rw [List.append_nil]
      exact why.imp_left fun mine => ⟨mine.1, replied.1 mine.2⟩
    · have first : ¬ ∃ reply ∈ earlier, reply.carries internalId := by simpa using replied
      refine onward ?_ ⟨fun _ => ⟨message, by simp, mine⟩, fun _ => rfl⟩ (by simpa [others, mine] using goes)
      rintro (⟨-, again⟩ | ⟨other, -⟩)
      · exact first again
      · simp [mine] at other
    · have other : message.carries internalId = false := note.not_carries
      refine onward ?_ (by rw [replied]; simp [other]) (by simpa [others, other] using goes)
      rintro (⟨mine, -⟩ | ⟨-, stranger | refused⟩)
      · simp [mine] at other
      · exact stranger note
      · simp [refused] at taken

/-- After the reply the loop succeeds only if nothing but notifications follows. -/
private theorem route_some_succeeded {response : Message} {written messages : List Message}
    {result : ToolResult}
    (returned : (route site internalId (some response) written messages).1 = .returned result)
    (succeeded : result.status = .succeeded) :
    ReportsSuccess response ∧ (∀ m ∈ messages, Notification m) ∧
      (route site internalId (some response) written messages).2 = written ++ messages := by
  induction messages generalizing written with
  | nil =>
    rw [route] at returned
    exact ⟨toolResult_succeeded returned succeeded, by simp, by simp [route]⟩
  | cons message messages ih =>
    rcases @route_cons site internalId (some response) written messages message with
        ⟨outcome, fails, -, ends⟩ | ⟨_, absent, _⟩ | ⟨notification, -, goes⟩
    · rw [ends] at returned
      exact absurd succeeded (fails result returned)
    · cases absent
    · rw [goes] at returned ⊢
      obtain ⟨reports, others, final⟩ := ih returned
      exact ⟨reports, by simpa [notification] using others, by simp [final]⟩

/-- The loop succeeds only on one reply among notifications. -/
theorem route_succeeded {written messages : List Message} {result : ToolResult}
    (returned : (route site internalId none written messages).1 = .returned result)
    (succeeded : result.status = .succeeded) :
    ∃ before response after, messages = before ++ response :: after ∧
      response.carries internalId ∧ ReportsSuccess response ∧
        (∀ m ∈ before ++ after, Notification m) ∧
          (route site internalId none written messages).2 = written ++ (before ++ after) := by
  induction messages generalizing written with
  | nil =>
    simp only [route] at returned
    exact absurd succeeded (failedResult_status returned)
  | cons message messages ih =>
    rcases @route_cons site internalId none written messages message with
        ⟨outcome, fails, -, ends⟩ | ⟨mine, _, goes⟩ | ⟨notification, -, goes⟩
    · rw [ends] at returned
      exact absurd succeeded (fails result returned)
    · rw [goes] at returned ⊢
      obtain ⟨reports, others, final⟩ := route_some_succeeded returned succeeded
      exact ⟨[], message, messages, rfl, mine, reports, others, final⟩
    · rw [goes] at returned ⊢
      obtain ⟨before, response, after, rfl, mine, reports, others, final⟩ := ih returned
      exact ⟨message :: before, response, after, rfl, mine, reports,
        by simpa [notification] using others, by simp [final]⟩

/-- What the reader returns for the bytes of a reply, and what a tool call makes of any list of
messages: it reports success only on exactly one well-formed reply among notifications, and what it
writes are the notifications before the first message that ends its loop, or all of them when none
does. -/
theorem http_replies_exact {body : List UInt8} (plain : Plain body) (messages : List Message)
    (posted : Except String (List Message)) :
    (readSse body = .ok messages ↔
      body.length ≤ maxHttpBodyBytes ∧ messages ≠ [] ∧ ∃ s, decodeUtf8 body = some s ∧
        List.Forall₂ Reads (dispatched s ++ (unfinished s).toList) messages) ∧
    (∀ result, (callTool site internalId posted).1 = .returned result →
      result.status = .succeeded →
        ∃ before response after, posted = .ok (before ++ response :: after) ∧
          response.carries internalId ∧ ReportsSuccess response ∧
            (∀ m ∈ before ++ after, Notification m) ∧
              (callTool site internalId posted).2 = before ++ after) ∧
    (∃ checked rest, posted.toOption.getD [] = checked ++ rest ∧
      (∀ m ∈ rest.head?, EndsLoop site internalId checked m) ∧
      (∀ before m after, checked = before ++ m :: after → ¬ EndsLoop site internalId before m) ∧
      (∀ m ∈ checked, m.carries internalId ∨ Notification m) ∧
        (callTool site internalId posted).2 = others internalId checked) ∧
    ∀ m ∈ (callTool site internalId posted).2,
      Notification m ∧ m.carries internalId = false := by
  have written : ∃ checked rest, posted.toOption.getD [] = checked ++ rest ∧
      (∀ m ∈ rest.head?, EndsLoop site internalId checked m) ∧
      (∀ before m after, checked = before ++ m :: after → ¬ EndsLoop site internalId before m) ∧
      (∀ m ∈ checked, m.carries internalId ∨ Notification m) ∧
        (callTool site internalId posted).2 = others internalId checked := by
    cases posted with
    | error message => exact ⟨[], [], rfl, by simp, by simp, by simp, rfl⟩
    | ok messages =>
      -- every checked message is the response or a notification, or it would have ended the loop
      obtain ⟨checked, rest, same, ends, goOn, final⟩ :=
        @route_written site internalId none [] (by simp) messages
      refine ⟨checked, rest, same, ends, goOn, fun m member => ?_, final⟩
      obtain ⟨before, after, cut⟩ := List.append_of_mem member
      by_contra neither
      rw [not_or, Bool.not_eq_true] at neither
      exact goOn before m after cut (.inr ⟨neither.1, .inl neither.2⟩)
  refine ⟨readSse_events plain, fun result returned succeeded => ?_, written, fun m member => ?_⟩
  · cases posted with
    | error message => exact absurd succeeded (failedResult_status returned)
    | ok messages =>
      obtain ⟨before, response, after, rfl, mine, reports, others, final⟩ :=
        route_succeeded returned succeeded
      exact ⟨before, response, after, rfl, mine, reports, others, by rw [callTool, final]; rfl⟩
  · obtain ⟨checked, rest, -, -, -, each, final⟩ := written
    rw [final, others, List.mem_filter] at member
    obtain ⟨inside, other⟩ := member
    have other : m.carries internalId = false := by simpa using other
    exact ⟨(each m inside).resolve_left (by simp [other]), other⟩

end Routing

/-! ### Replies on which the reader and the router go their own way -/

namespace Exchange

def site : Site where
  text _ := []
  sha text := .ofList text
  chunking := .single
  accepts _ _ := true

def internalId : Points := .ofString "defiant:1"

def progress : Message := [(.ofString "method", .str (.ofString "notifications/message"))]

def stranger : Message := [(.ofString "id", .str (.ofString "other"))]

theorem reads_empty : Reads ['{', '}'] [] := by
  have joined : (Data.obj []).joined = .obj [] := rfl
  have text : ['{', '}'] = (Data.obj []).render .compact 0 := rfl
  rw [Reads, text, loadsStrictJson_render, joined]
  exact ⟨⟨by decide, by decide, by decide +kernel, by decide +kernel⟩, ⟨by decide +kernel, trivial⟩, rfl⟩

/-- A body whose events are read as one message. -/
theorem readSse_one {s : List Char} (small : (encodeUtf8 s).length ≤ maxHttpBodyBytes)
    (events : (collect [] ((rows '\n' s).map stripLineEnd)).1 ++
      (joinedLines (collect [] ((rows '\n' s).map stripLineEnd)).2).toList = [['{', '}']]) :
    readSse (encodeUtf8 s) = .ok [[]] :=
  readSse_ok_iff.mpr ⟨small, by simp, s, decodeUtf8_iff.mpr rfl,
    by rw [events]; exact .cons reads_empty .nil⟩

end Exchange

open Exchange in
/-- An event that no blank line dispatches is returned, and a notification is written although the
reply fails; carriage returns by themselves and a byte order mark hide events. -/
theorem http_replies_inexact :
    (dispatched "data: {}".toList = [] ∧ readSse (encodeUtf8 "data: {}".toList) = .ok [[]]) ∧
    (∃ outcome, callTool site internalId (.ok [progress, stranger]) = (outcome, [progress]) ∧
      ∀ result, outcome = .returned result → result.status ≠ .succeeded) ∧
    (dispatched ":\rdata: {}\n\ndata: {}\n\n".toList = [['{', '}'], ['{', '}']] ∧
      readSse (encodeUtf8 ":\rdata: {}\n\ndata: {}\n\n".toList) = .ok [[]]) ∧
    (dispatched "\uFEFFdata: {}\n\ndata: {}\n\n".toList = [['{', '}'], ['{', '}']] ∧
      readSse (encodeUtf8 "\uFEFFdata: {}\n\ndata: {}\n\n".toList) = .ok [[]]) := by
  refine ⟨⟨by decide +kernel, readSse_one (by decide +kernel) (by decide +kernel)⟩, ⟨_, rfl, ?_⟩,
    ⟨by decide +kernel, readSse_one (by decide +kernel) (by decide +kernel)⟩,
    by decide +kernel, readSse_one (by decide +kernel) (by decide +kernel)⟩
  exact fun _ => failedResult_status

open Exchange in
/-- Two events, the second one cut off. -/
theorem http_replies_exact_two :
    readSse (encodeUtf8 "data: {}\r\n\r\n: note\r\ndata: {}".toList) = .ok [[], []] := by
  have paired : Precedes 13 10 (encodeUtf8 "data: {}\r\n\r\n: note\r\ndata: {}".toList) :=
    precedes_of_isChain (by decide +kernel) (by decide +kernel)
  have unmarked : ¬ [0xEF, 0xBB, 0xBF] <+:
      encodeUtf8 "data: {}\r\n\r\n: note\r\ndata: {}".toList := by decide +kernel
  refine (@http_replies_exact site internalId _ ⟨paired, unmarked⟩ [[], []] (.ok [])).1.mpr
    ⟨by decide +kernel, by simp, _, decodeUtf8_iff.mpr rfl, ?_⟩
  have events : dispatched "data: {}\r\n\r\n: note\r\ndata: {}".toList ++
      (unfinished "data: {}\r\n\r\n: note\r\ndata: {}".toList).toList =
        [['{', '}'], ['{', '}']] := by decide +kernel
  rw [events]
  exact .cons reads_empty (.cons reads_empty .nil)

end HttpUpstream
end DefiantHarness
