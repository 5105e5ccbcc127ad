import Mathlib.Data.List.Chain
import Mathlib.Data.List.DropRight
import Mathlib.Data.List.Forall2

/-! Event streams: strict UTF-8, lines, and the events that blank lines close. -/
namespace Foundation

/-! ### Terminated pieces -/

section Terminated

variable {α β : Type} [DecidableEq α] [DecidableEq β]

/-- The pieces of a list that a separator ends, and what stands after the last separator. -/
def terminated (sep : α) : List α → List (List α) × List α
  | [] => ([], [])
  | x :: xs =>
    if x = sep then ([] :: (terminated sep xs).1, (terminated sep xs).2)
    else match terminated sep xs with
      | ([], rest) => ([], x :: rest)
      | (piece :: pieces, rest) => ((x :: piece) :: pieces, rest)

/-- The pieces with their separators, and the last piece if it is not empty. -/
def rows (sep : α) (xs : List α) : List (List α) :=
  (terminated sep xs).1.map (· ++ [sep]) ++
    if (terminated sep xs).2 = [] then [] else [(terminated sep xs).2]

variable {sep : α}

@[simp] theorem terminated_nil : terminated sep [] = ([], []) := rfl

@[simp] theorem terminated_sep (xs : List α) :
    terminated sep (sep :: xs) = ([] :: (terminated sep xs).1, (terminated sep xs).2) :=
  if_pos rfl

theorem terminated_cons {x : α} {xs rest : List α} (inside : x ≠ sep)
    (only : terminated sep xs = ([], rest)) : terminated sep (x :: xs) = ([], x :: rest) := by
  rw [terminated, if_neg inside, only]

theorem terminated_extend {x : α} {xs piece rest : List α} {pieces : List (List α)}
    (inside : x ≠ sep) (more : terminated sep xs = (piece :: pieces, rest)) :
    terminated sep (x :: xs) = ((x :: piece) :: pieces, rest) := by
  rw [terminated, if_neg inside, more]

theorem terminated_append {xs : List α} (inside : sep ∉ xs) (ys : List α) :
    terminated sep (xs ++ ys) =
      match terminated sep ys with
      | ([], rest) => ([], xs ++ rest)
      | (piece :: pieces, rest) => ((xs ++ piece) :: pieces, rest) := by
  induction xs with
  | nil =>
    rw [List.nil_append]
    rcases terminated sep ys with ⟨_ | _, _⟩ <;> rfl
  | cons x xs ih =>
    obtain ⟨first, others⟩ := not_or.mp (mt List.mem_cons.mpr inside)
    have ih := ih others
    rcases split : terminated sep ys with ⟨_ | ⟨piece, pieces⟩, rest⟩ <;> rw [split] at ih
    · exact terminated_cons (Ne.symm first) ih
    · exact terminated_extend (Ne.symm first) ih

variable (sep) in
theorem sep_not_mem_terminated (xs : List α) :
    (∀ piece ∈ (terminated sep xs).1, sep ∉ piece) ∧ sep ∉ (terminated sep xs).2 := by
  induction xs with
  | nil => simp
  | cons x xs ih =>
    by_cases ends : x = sep
    · subst ends
      simpa using ih
    · rcases split : terminated sep xs with ⟨_ | ⟨piece, pieces⟩, rest⟩ <;> rw [split] at ih
      · rw [terminated_cons ends split]
        simpa [Ne.symm ends] using ih.2
      · rw [terminated_extend ends split]
        simpa [Ne.symm ends] using ih

variable (sep) in
theorem flatten_terminated (xs : List α) :
    ((terminated sep xs).1.map (· ++ [sep])).flatten ++ (terminated sep xs).2 = xs := by
  induction xs with
  | nil => rfl
  | cons x xs ih =>
    by_cases ends : x = sep
    · subst ends
      simpa using ih
    · rcases split : terminated sep xs with ⟨_ | ⟨piece, pieces⟩, rest⟩ <;> rw [split] at ih
      · rw [terminated_cons ends split]
        simpa using ih
      · rw [terminated_extend ends split]
        simpa using ih

theorem terminated_append_rest (xs : List α) {ys : List α} (inside : sep ∉ ys) :
    terminated sep (xs ++ ys) = ((terminated sep xs).1, (terminated sep xs).2 ++ ys) := by
  induction xs with
  | nil => simpa using terminated_append inside []
  | cons x xs ih =>
    rw [List.cons_append]
    by_cases ends : x = sep
    · subst ends
      simp [ih]
    · rcases split : terminated sep xs with ⟨_ | ⟨piece, pieces⟩, rest⟩ <;> rw [split] at ih
      · rw [terminated_cons ends split, terminated_cons ends ih, List.cons_append]
      · rw [terminated_extend ends split, terminated_extend ends ih]

variable (sep) in
/-- Where a piece and the rest stand in the list. -/
theorem terminated_within (xs : List α) :
    (∀ piece ∈ (terminated sep xs).1, ∃ before after, xs = before ++ piece ++ sep :: after) ∧
      ∃ before, xs = before ++ (terminated sep xs).2 := by
  induction xs with
  | nil => simp
  | cons x xs ih =>
    obtain ⟨pieces_ih, before, rest_ih⟩ := ih
    have later : ∀ piece ∈ (terminated sep xs).1,
        ∃ before after, x :: xs = before ++ piece ++ sep :: after := by
      intro piece member
      obtain ⟨before, after, same⟩ := pieces_ih piece member
      exact ⟨x :: before, after, congrArg (x :: ·) same⟩
    -- a separator starts a new piece; any other symbol joins the first piece, if there is one
    by_cases ends : x = sep
    · subst ends
      rw [terminated_sep]
      refine ⟨fun piece member => ?_, x :: before, congrArg (x :: ·) rest_ih⟩
      rcases List.mem_cons.mp member with rfl | member
      · exact ⟨[], xs, rfl⟩
      · exact later piece member
    · rcases split : terminated sep xs with ⟨_ | ⟨piece, pieces⟩, rest⟩
      · rw [split] at rest_ih
        rw [terminated_cons ends split]
        have alone : xs = rest := by
          have whole := flatten_terminated sep xs
          simpa [split] using whole.symm
        exact ⟨by simp, [], by rw [alone]; rfl⟩
      · rw [split] at later rest_ih pieces_ih
        rw [terminated_extend ends split]
        refine ⟨fun other member => ?_, x :: before, congrArg (x :: ·) rest_ih⟩
        rcases List.mem_cons.mp member with rfl | member
        · have whole := flatten_terminated sep xs
          rw [split] at whole
          exact ⟨[], _, by simp [← whole]; rfl⟩
        · exact later other (by simp [member])

theorem flatten_rows (xs : List α) : (rows sep xs).flatten = xs := by
  rw [rows, List.flatten_append]
  split
  next none => simpa [none] using flatten_terminated sep xs
  next => simpa using flatten_terminated sep xs

variable (sep) in
/-- Coding each element by a nonempty list, with the separator for itself and in no other code,
codes the pieces. -/
theorem terminated_flatMap {sep' : β} {code : α → List β} (own : code sep = [sep'])
    (other : ∀ x, x ≠ sep → sep' ∉ code x) (xs : List α) :
    terminated sep' (xs.flatMap code) =
      ((terminated sep xs).1.map (·.flatMap code), (terminated sep xs).2.flatMap code) := by
  induction xs with
  | nil => rfl
  | cons x xs ih =>
    rw [List.flatMap_cons]
    by_cases ends : x = sep
    · subst ends
      simp [own, ih]
    · rw [terminated_append (other x ends), ih]
      rcases split : terminated sep xs with ⟨_ | ⟨piece, pieces⟩, rest⟩
      · simp [terminated_cons ends split]
      · simp [terminated_extend ends split]

theorem rows_flatMap {sep' : β} {code : α → List β} (own : code sep = [sep'])
    (other : ∀ x, x ≠ sep → sep' ∉ code x) (full : ∀ x, code x ≠ []) (xs : List α) :
    rows sep' (xs.flatMap code) = (rows sep xs).map (·.flatMap code) := by
  have empty : ∀ ys : List α, ys.flatMap code = [] ↔ ys = [] := by
    intro ys
    cases ys <;> simp [full]
  rw [rows, rows, terminated_flatMap sep own other, List.map_append]
  congr 1
  · simp [own, Function.comp_def]
  · simp only [empty]
    split <;> simp

end Terminated

/-- Each `x` is followed by `y`. -/
def Precedes {α : Type} (x y : α) (xs : List α) : Prop :=
  ∀ before after, xs = before ++ x :: after → after.head? = some y

theorem precedes_of_isChain {α : Type} {x y : α} {xs : List α}
    (chain : xs.IsChain fun a b => a = x → b = y) (last : xs.getLast? ≠ some x) :
    Precedes x y xs := by
  rintro before after rfl
  cases after with
  | nil => exact absurd (by simp) last
  | cons c after => exact congrArg some ((List.isChain_append_cons_cons.mp chain).2.1 rfl)

/-! ### Strict UTF-8 -/

/-- `bytes.decode("utf-8", errors="strict")` -/
def decodeUtf8 (bytes : List UInt8) : Option (List Char) :=
  bytes.toByteArray.utf8Decode?.map Array.toList

def encodeUtf8 (s : List Char) : List UInt8 := s.flatMap String.utf8EncodeChar

theorem decodeUtf8_iff {bytes : List UInt8} {s : List Char} :
    decodeUtf8 bytes = some s ↔ bytes = encodeUtf8 s := by
  have coded : ∀ s : List Char, s.utf8Encode = (encodeUtf8 s).toByteArray := fun _ => rfl
  have injective : ∀ {a b : List UInt8}, a.toByteArray = b.toByteArray → a = b := by
    intro a b same
    simpa using congrArg (·.data.toList) same
  constructor
  · intro decoded
    obtain ⟨array, found, rfl⟩ := Option.map_eq_some_iff.mp decoded
    apply injective
    rw [← coded]
    have back := ByteArray.utf8Encode_get_utf8Decode? (b := bytes.toByteArray) (h := by simp [found])
    simpa [found] using back.symm
  · rintro rfl
    rw [decodeUtf8, ← coded, List.utf8Decode?_utf8Encode]
    rfl

theorem encodeUtf8_append (s t : List Char) : encodeUtf8 (s ++ t) = encodeUtf8 s ++ encodeUtf8 t :=
  List.flatMap_append

/-- An ASCII byte stands only in the code of its own character. -/
theorem eq_of_mem_utf8EncodeChar {n : Nat} {c : Char} (ascii : n < 128)
    (member : UInt8.ofNat n ∈ String.utf8EncodeChar c) : c.val.toNat = n := by
  have bytes : ∀ m, UInt8.ofNat n = UInt8.ofNat m → n = m % 256 := by
    intro m same
    have := congrArg UInt8.toNat same
    simp only [UInt8.toNat_ofNat'] at this
    omega
  unfold String.utf8EncodeChar at member
  extract_lets v at member
  split at member
  · have := bytes _ (List.mem_singleton.mp member)
    omega
  · -- every byte of a longer code is at least 128
    split at member
    · rcases List.mem_pair.mp member with same | same <;> have := bytes _ same <;> omega
    · split at member <;> simp only [List.mem_cons, List.not_mem_nil, or_false] at member
      · rcases member with same | same | same <;> have := bytes _ same <;> omega
      · rcases member with same | same | same | same <;> have := bytes _ same <;> omega

theorem utf8EncodeChar_lineFeed (c : Char) (other : c ≠ '\n') : 10 ∉ String.utf8EncodeChar c :=
  fun member => other (Char.ext (UInt32.toNat_inj.mp (eq_of_mem_utf8EncodeChar (n := 10) (by omega) member)))

theorem rows_encodeUtf8 (s : List Char) : rows 10 (encodeUtf8 s) = (rows '\n' s).map encodeUtf8 :=
  rows_flatMap (by decide) utf8EncodeChar_lineFeed (fun _ => String.utf8EncodeChar_ne_nil) s

theorem encodeUtf8_flatten (ts : List (List Char)) :
    encodeUtf8 ts.flatten = (ts.map encodeUtf8).flatten := by
  induction ts with
  | nil => rfl
  | cons t ts ih => rw [List.flatten_cons, encodeUtf8_append, ih, List.map_cons, List.flatten_cons]

theorem encodeUtf8_injective : Function.Injective encodeUtf8 := by
  intro s t same
  have first := decodeUtf8_iff.mpr (rfl : encodeUtf8 s = encodeUtf8 s)
  rw [same, decodeUtf8_iff.mpr rfl] at first
  exact (Option.some.inj first).symm

/-- Decoding row by row is decoding the whole. -/
theorem decode_rows_iff {bytes : List UInt8} {ts : List (List Char)} :
    List.Forall₂ (fun row t => decodeUtf8 row = some t) (rows 10 bytes) ts ↔
      ∃ s, decodeUtf8 bytes = some s ∧ ts = rows '\n' s := by
  simp only [decodeUtf8_iff]
  rw [← List.forall₂_map_right_iff, List.forall₂_eq_eq_eq]
  constructor
  · intro coded
    have whole : bytes = encodeUtf8 ts.flatten := by
      calc bytes = (rows 10 bytes).flatten := (flatten_rows bytes).symm
        _ = (ts.map encodeUtf8).flatten := by rw [coded]
        _ = encodeUtf8 ts.flatten := (encodeUtf8_flatten ts).symm
    refine ⟨ts.flatten, whole, ?_⟩
    rw [whole, rows_encodeUtf8] at coded
    exact (List.map_injective_iff.mpr encodeUtf8_injective coded).symm
  · rintro ⟨s, rfl, rfl⟩
    exact rows_encodeUtf8 s

/-- A byte pairing is a character pairing. -/
theorem precedes_of_encodeUtf8 {s : List Char} (paired : Precedes 13 10 (encodeUtf8 s)) :
    Precedes '\r' '\n' s := by
  rintro before after rfl
  have next := paired (encodeUtf8 before) (encodeUtf8 after) (by rw [encodeUtf8_append]; rfl)
  cases after with
  | nil => cases next
  | cons c after =>
    by_contra other
    have plain := utf8EncodeChar_lineFeed c (by simpa using other)
    refine plain (List.mem_of_mem_head? ?_)
    rw [encodeUtf8, List.flatMap_cons] at next
    cases code : String.utf8EncodeChar c with
    | nil => exact absurd code String.utf8EncodeChar_ne_nil
    | cons b rest => simpa [code] using next

/-! ### Lines and events -/

/-- CRLF, CR and LF each end a line. -/
def lineFeeds : List Char → List Char
  | [] => []
  | '\r' :: '\n' :: s => '\n' :: lineFeeds s
  | '\r' :: s => '\n' :: lineFeeds s
  | c :: s => c :: lineFeeds s

/-- A stream may begin with a byte order mark. -/
def withoutMark : List Char → List Char
  | '\uFEFF' :: s => s
  | s => s

/-- The lines of a stream, and what stands after the last line end. -/
def streamLines (s : List Char) : List (List Char) × List Char :=
  terminated '\n' (lineFeeds (withoutMark s))

/-- The value of a `data` field; one space after the colon is no part of it. -/
def dataField (line : List Char) : Option (List Char) :=
  if line.takeWhile (· ≠ ':') = ['d', 'a', 't', 'a'] then
    some (match line.dropWhile (· ≠ ':') with
      | [] => []
      | _ :: ' ' :: value => value
      | _ :: value => value)
  else none

def joinedLines (values : List (List Char)) : Option (List Char) :=
  if values = [] then none else some (['\n'].intercalate values)

/-- The data of an event; a block without a `data` field is none. -/
def blockData (block : List (List Char)) : Option (List Char) :=
  joinedLines (block.filterMap dataField)

/-- The data of the events that a blank line dispatches, in order. -/
def dispatched (s : List Char) : List (List Char) :=
  (terminated [] (streamLines s).1).1.filterMap blockData

/-- The data of the event that the end of the stream cuts off. -/
def unfinished (s : List Char) : Option (List Char) :=
  blockData ((terminated [] (streamLines s).1).2 ++
    if (streamLines s).2 = [] then [] else [(streamLines s).2])

/-- The events of a list of lines, with the values held from earlier lines, and the values that no
blank line follows. -/
def collect (held : List (List Char)) : List (List Char) → List (List Char) × List (List Char)
  | [] => ([], held)
  | line :: lines =>
    if line = [] then ((joinedLines held).toList ++ (collect [] lines).1, (collect [] lines).2)
    else collect (held ++ (dataField line).toList) lines

theorem collect_eq (held lines : List (List Char)) :
    collect held lines =
      match terminated [] lines with
      | ([], rest) => ([], held ++ rest.filterMap dataField)
      | (block :: blocks, rest) =>
        ((joinedLines (held ++ block.filterMap dataField)).toList ++ blocks.filterMap blockData,
          rest.filterMap dataField) := by
  induction lines generalizing held with
  | nil => simp [collect]
  | cons line lines ih =>
    by_cases blank : line = []
    · subst blank
      rw [collect, if_pos rfl, ih, terminated_sep]
      rcases terminated [] lines with ⟨_ | ⟨block, blocks⟩, rest⟩
      · simp
      · cases data : blockData block <;> simp_all [blockData]
    · rw [collect, if_neg blank, ih]
      rcases split : terminated [] lines with ⟨_ | ⟨block, blocks⟩, rest⟩
      · rw [terminated_cons blank split]
        cases value : dataField line <;> simp_all
      · rw [terminated_extend blank split]
        cases value : dataField line <;> simp_all

/-- The events of all lines, with the last one even if it is cut off. -/
theorem collect_streamLines (s : List Char) :
    (collect [] ((streamLines s).1 ++
        if (streamLines s).2 = [] then [] else [(streamLines s).2])).1 ++
      (joinedLines (collect [] ((streamLines s).1 ++
        if (streamLines s).2 = [] then [] else [(streamLines s).2])).2).toList =
      dispatched s ++ (unfinished s).toList := by
  have visible : ([] : List Char) ∉
      (if (streamLines s).2 = [] then [] else [(streamLines s).2] : List (List Char)) := by
    split
    · simp
    next full => simpa using Ne.symm full
  rw [collect_eq, terminated_append_rest _ visible]
  simp only [dispatched, unfinished, blockData]
  rcases terminated [] (streamLines s).1 with ⟨_ | ⟨block, blocks⟩, rest⟩
  · simp
  · cases data : joinedLines (block.filterMap dataField) <;> simp_all [blockData]

/-! ### Streams whose carriage returns all belong to a CRLF -/

theorem lineFeeds_of_precedes {s : List Char} (paired : Precedes '\r' '\n' s) :
    lineFeeds s = s.filter (· ≠ '\r') := by
  have tail : ∀ {c s}, Precedes '\r' '\n' (c :: s) → Precedes '\r' '\n' s :=
    fun paired before after same => paired (_ :: before) after (congrArg _ same)
  induction s using lineFeeds.induct with
  | case1 => rfl
  | case2 s ih =>
    rw [lineFeeds, ih (tail (tail paired))]
    rfl
  | case3 s other ih =>
    have next := paired [] s rfl
    cases s with
    | nil => cases next
    | cons c s =>
      obtain rfl := Option.some.inj next
      exact absurd rfl (other s)
  | case4 c s first second ih =>
    have plain : c ≠ '\r' := fun same => second same
    rw [lineFeeds, ih (tail paired)]
    · simp [plain]
    · exact first
    · exact second

/-- `str.rstrip("\r\n")` -/
def stripLineEnd (s : List Char) : List Char := s.rdropWhile (fun c => c = '\r' || c = '\n')

/-- Stripping the line ends is dropping the carriage returns. -/
theorem streamLines_of_precedes {s : List Char} (paired : Precedes '\r' '\n' s)
    (unmarked : s.head? ≠ some '\uFEFF') :
    streamLines s =
      ((terminated '\n' s).1.map fun line => stripLineEnd (line ++ ['\n']), (terminated '\n' s).2) ∧
      stripLineEnd (terminated '\n' s).2 = (terminated '\n' s).2 := by
  have plain : ∀ {line : List Char}, '\r' ∉ line → '\n' ∉ line → stripLineEnd line = line := by
    intro line first second
    refine List.rdropWhile_eq_self_iff.mpr fun full ends => ?_
    simp only [Bool.or_eq_true, decide_eq_true_eq] at ends
    have member := List.getLast_mem full
    rcases ends with ends | ends <;> rw [ends] at member
    · exact first member
    · exact second member
  have kept : ∀ {line : List Char}, '\r' ∉ line → line.filter (· ≠ '\r') = line := by
    intro line none
    refine List.filter_eq_self.mpr fun c member => ?_
    simpa using fun same : c = '\r' => none (same ▸ member)
  obtain ⟨piece_clear, rest_clear⟩ := sep_not_mem_terminated '\n' s
  obtain ⟨piece_at, before, rest_at⟩ := terminated_within '\n' s
  have rest_plain : '\r' ∉ (terminated '\n' s).2 := by
    intro member
    obtain ⟨front, after, same⟩ := List.append_of_mem member
    have next := paired (before ++ front) after (by rw [rest_at.trans (by rw [same])]; simp)
    cases after with
    | nil => cases next
    | cons c after =>
      obtain rfl := Option.some.inj next
      exact rest_clear (by rw [same]; simp)
  refine ⟨?_, plain rest_plain rest_clear⟩
  have unmark : withoutMark s = s := by
    unfold withoutMark
    split
    · exact absurd rfl unmarked
    · rfl
  have dropped : ∀ line : List Char,
      line.flatMap (fun c => if c = '\r' then [] else [c]) = line.filter (· ≠ '\r') := by
    intro line
    induction line with
    | nil => rfl
    | cons c line ih =>
      by_cases back : c = '\r'
      · simp [back, ih]
      · simp [back, ih]
  rw [streamLines, unmark, lineFeeds_of_precedes paired, ← dropped,
    terminated_flatMap '\n' (by decide)
      (fun c other => by split <;> simp [Ne.symm other])]
  simp only [dropped]
  rw [kept rest_plain]
  refine Prod.ext (List.map_congr_left fun line member => ?_) rfl
  have clear := piece_clear line member
  by_cases back : '\r' ∈ line
  · obtain ⟨front, after, rfl, first⟩ := List.eq_append_cons_of_mem back
    obtain ⟨before, rest, same⟩ := piece_at _ member
    -- the carriage return of a line is its last character
    have next := paired (before ++ front) (after ++ '\n' :: rest) (by rw [same]; simp)
    have last : after = [] := by
      cases after with
      | nil => rfl
      | cons c after =>
        obtain rfl : c = '\n' := by simpa using next
        exact absurd (by simp) clear
    subst last
    have inner : '\n' ∉ front := fun member => clear (by simp [member])
    rw [stripLineEnd, List.rdropWhile_concat_pos _ _ _ (by decide),
      List.rdropWhile_concat_pos _ _ _ (by decide), List.filter_append, kept first]
    simpa [stripLineEnd] using (plain first inner).symm
  · rw [stripLineEnd, List.rdropWhile_concat_pos _ _ _ (by decide), kept back]
    exact (plain back clear).symm

end Foundation
