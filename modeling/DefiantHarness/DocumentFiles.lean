import DefiantHarness.PublicationSeals

/-! State files of one document each: what has been written is read back, and a record of a few short
texts and numbers always fits. -/
namespace DefiantHarness

open Foundation

namespace DocumentFile

open AuthorityPublication (Unpaired record_nodup)
open TrustState (record)

/-- `read_json`: the object in a file. -/
def read (name : String) (maximum : Nat) (text : List Char) : Except HarnessError Data := do
  refuseIf (maximum < utf8Length text)
    (persistenceError ("state file exceeds " ++ toString maximum ++ " bytes: " ++ name))
  let data ← (loadsStrictJson "state JSON" text).mapError fun message =>
    persistenceError ("cannot read valid JSON state from " ++ name ++ ": " ++ message)
  match data with
  | .obj fields => pure (.obj fields)
  | _ => throw (persistenceError ("state file must contain a JSON object: " ++ name))

section Written

variable {name : String} {maximum : Nat} {fields : List Field} {text : List Char}

/-- A small hashed document is within the ceilings of the strict reader. -/
private theorem lexical_sorted {x : Data} (small : maximum ≤ 1024 * 1024)
    (hashable : Hashable maximum (.ofData x)) (shallow : x.depth ≤ maxJsonNestingDepth) :
    Lexical x.sorted := by
  have bytes := hashable.bytes
  rw [Value.written_ofData] at bytes
  refine ⟨?_, ?_, ?_, ?_⟩
  · rw [Data.depth_sorted]
    exact shallow
  · -- the reader counts the tokens of the sorted text; sorting keeps both its length and its tokens
    have few := Data.tokens_le_text x
    rw [text_sorted_length] at bytes
    rw [Data.tokens_sorted]
    simp only [maxJsonLexicalTokens]
    omega
  · intro s member
    have within := (Data.escaped_length_le Layout.compact 0 member).trans bytes
    simp only [maxJsonStringTokenCharacters]
    omega
  · intro n member
    rw [Data.mem_numbers_sorted] at member
    exact numbers_of_bounded hashable.admissible.bounded n member

theorem atomicWriteJson_ok_iff (hashable : Hashable maximum (.ofData (.obj fields))) :
    atomicWriteJson name maximum (.ofData (.obj fields)) = .ok text ↔
      text = (Data.obj fields).sorted.render (Layout.indented 2) 0 ∧ utf8Length text ≤ maximum := by
  have dumped := hashable.admissible.bounded.dumps_snapshot
  rw [Value.snapshot_ofData, Value.written_ofData] at dumped
  simp only [atomicWriteJson, dumped, Except.mapError, bind_ok_iff, refuseIf_ok_iff, not_lt,
    pure_ok_iff, Except.ok.injEq]
  constructor
  · rintro ⟨_, rfl, _, fits, rfl⟩
    exact ⟨rfl, fits⟩
  · rintro ⟨rfl, fits⟩
    exact ⟨_, rfl, (), fits, rfl⟩

/-- What has been written is read back with its fields in order. -/
theorem read_written (small : maximum ≤ 1024 * 1024)
    (hashable : Hashable maximum (.ofData (.obj fields)))
    (shallow : (Data.obj fields).depth ≤ maxJsonNestingDepth) (unpaired : Unpaired (.obj fields))
    (written : atomicWriteJson name maximum (.ofData (.obj fields)) = .ok text) :
    read name maximum text = .ok (Data.obj fields).sorted := by
  obtain ⟨rfl, fits⟩ := (atomicWriteJson_ok_iff hashable).1 written
  obtain ⟨joined, distinct⟩ := reread_plain hashable.admissible.bounded (Value.snapshot_ofData _) unpaired
  rw [Value.written_ofData] at joined
  simp only [read, bind_ok_iff, refuseIf_ok_iff, not_lt, mapError_ok_iff, loadsStrictJson_render]
  exact ⟨(), fits, (Data.obj fields).sorted,
    ⟨lexical_sorted small hashable shallow, by rw [joined]; exact distinct, joined.symm⟩, rfl⟩

end Written

/-! ### Flat records -/

/-- A short text, or a number of bounded length. -/
def Short : Data → Prop
  | .str s => s.length ≤ 128
  | .int i => (Numeral.ofInt i).chars.length ≤ maxActionHashNumberCharacters
  | _ => False

/-- A few short entries under short, distinct names. -/
structure Flat (entries : List (String × Data)) : Prop where
  few : entries.length ≤ 16
  names : ∀ e ∈ entries, e.1.length ≤ 32
  distinct : (entries.map (·.1)).Nodup
  short : ∀ e ∈ entries, Short e.2

theorem escaped_length_le_units (s : Points) : (escaped s).length ≤ 12 * s.length := by
  induction s with
  | nil => exact Nat.le_refl _
  | cons c s ih =>
    -- outside the basic plane a character has two escapes of six
    have unit (u : CodeUnit) : u.escape.length ≤ 6 := by
      rw [CodeUnit.escape_length]
      split
      · decide
      · split <;> decide
    have character : (c.units.flatMap CodeUnit.escape).length ≤ 12 := by
      unfold CodePoint.units
      split
      · rw [List.flatMap_singleton]
        exact (unit _).trans (by decide)
      · simp only [List.flatMap_cons, List.flatMap_nil, List.append_nil, List.length_append]
        exact Nat.add_le_add (unit _) (unit _)
    rw [escaped_cons, List.length_append, List.length_cons]
    omega

private theorem quoted_le {s : Points} {n : Nat} (short : s.length ≤ n) :
    (quoted s).length ≤ 2 + 12 * n := by
  have width := escaped_length_le_units s
  rw [quoted_length]
  omega

private theorem Short.rendered {x : Data} (short : Short x) (l : Layout) (d : Nat) :
    (x.render l d).length ≤ 1538 := by
  cases x with
  | str s => exact quoted_le (n := 128) short
  | int i => exact Nat.le_trans short (by decide)
  | _ => exact short.elim

private theorem Short.sorted {x : Data} (short : Short x) : x.sorted = x := by
  cases x with
  | str s => rfl
  | int i => rfl
  | _ => exact short.elim

private theorem Short.bounded {x : Data} (short : Short x) : (Value.ofData x).Bounded := by
  cases x with
  | str s => exact Nat.le_trans short (by decide)
  | int i => exact short
  | _ => exact short.elim

private theorem Short.depth {x : Data} (short : Short x) : x.depth = 0 := by
  cases x with
  | str s => rfl
  | int i => rfl
  | _ => exact short.elim

private theorem sum_le {α : Type} {f : α → Nat} {items : List α} {bound : Nat}
    (each : ∀ x ∈ items, f x ≤ bound) : (items.map f).sum ≤ items.length * bound := by
  induction items with
  | nil => exact Nat.zero_le _
  | cons x xs ih =>
    have rest := ih fun y member => each y (List.mem_cons_of_mem x member)
    have first := each x List.mem_cons_self
    rw [List.map_cons, List.sum_cons, List.length_cons, Nat.succ_mul]
    omega

section Flat

variable {entries : List (String × Data)}

private theorem Flat.field (flat : Flat entries) {f : Field} (member : f ∈ record entries) :
    (quoted f.1).length ≤ 386 ∧ Short f.2 := by
  obtain ⟨e, own, rfl⟩ := List.mem_map.1 member
  refine ⟨quoted_le (n := 32) ?_, flat.short e own⟩
  dsimp only
  rw [Points.ofString_eq, List.length_map, String.length_toList]
  exact flat.names e own

private theorem Flat.length (flat : Flat entries) : (record entries).length ≤ 16 := by
  rw [record, List.length_map]
  exact flat.few

theorem Flat.depth (flat : Flat entries) : (Data.obj (record entries)).depth ≤ 1 := by
  rw [Data.depth]
  apply Nat.succ_le_succ
  rw [Data.depthFields_le]
  intro f member
  rw [(flat.field member).2.depth]

private theorem Flat.text (flat : Flat entries) :
    (Data.obj (record entries)).text.length ≤ 64 * 1024 := by
  have each := @sum_le Field (fun f => (quoted f.1).length + f.2.text.length + 1) (record entries) 1925
    fun f member => by
      obtain ⟨name, short⟩ := flat.field member
      have value := short.rendered Layout.compact 0
      rw [Data.render_compact] at value
      omega
  have few := flat.length
  rw [Data.text_obj_length]
  omega

/-- A flat record is hashed under a ceiling of 64 KiB. -/
theorem Flat.hashable (flat : Flat entries) :
    Hashable (64 * 1024) (.ofData (.obj (record entries))) := by
  have text := flat.text
  have bounded : (Value.ofData (.obj (record entries))).Bounded := by
    rw [Value.ofData, Value.Bounded, Value.boundedEntries_iff, Value.ofFields_eq, List.map_map,
      List.length_map]
    refine ⟨flat.length.trans (by decide), ?_, ?_⟩
    -- the keys are distinct and each is no wider than the text it is written in
    · have names : (record entries).map (Prod.fst ∘ fun f : Field => (Value.str f.1, Value.ofData f.2)) =
          ((record entries).map (·.1)).map Value.str := by
        rw [List.map_map]
        rfl
      rw [names, Value.keyed_names_iff]
      refine ⟨?_, record_nodup flat.distinct⟩
      rw [List.forall_mem_map]
      intro f member
      have name := (flat.field member).1
      have width := length_le_escaped f.1
      rw [quoted_length] at name
      simp only [maxActionHashScalarCharacters]
      omega
    · rw [List.forall_mem_map]
      exact fun f member => (flat.field member).2.bounded
  refine ⟨⟨bounded, ?_, ?_, ?_⟩, ?_⟩
  · exact (Value.height_ofData _).trans (flat.depth.trans (by decide))
  · have few := Data.tokens_le_text (.obj (record entries))
    rw [Value.nodes_ofData]
    simp only [maxActionHashNodes]
    omega
  · have work := Value.sortWork_ofData bounded
    simp only [maxActionHashMappingSortWorkUnits]
    omega
  · rw [Value.written_ofData, text_sorted_length]
    exact text

private theorem Flat.render (flat : Flat entries) (some : entries ≠ []) :
    utf8Length ((Data.obj (record entries)).sorted.render (Layout.indented 2) 0) ≤ 64 * 1024 := by
  have order := List.perm_insertionSort Data.byName (Data.sortedFields (record entries))
  -- the values have no fields of their own to sort
  have own : Data.sortedFields (record entries) = record entries := by
    rw [Data.sortedFields_eq]
    refine List.map_congr_left (fun f member => ?_) |>.trans (List.map_id _)
    rw [(flat.field member).2.sorted]
    rfl
  have length : (Data.arranged (record entries)).length = (record entries).length := by
    rw [Data.arranged, order.length_eq, own]
  have present : Data.arranged (record entries) ≠ [] := by
    intro empty
    rw [empty, List.length_nil, record, List.length_map] at length
    exact some (List.length_eq_zero_iff.1 length.symm)
  have few := flat.length
  have each := @sum_le Field (fun f => 2 + ((Layout.indented 2).entry (0 + 1)).length +
      (Layout.indented 2).colon.length + (quoted f.1).length +
        (f.2.render (Layout.indented 2) (0 + 1)).length) (Data.arranged (record entries)) 1932
    fun f member => by
      rw [Data.arranged, order.mem_iff, own] at member
      obtain ⟨name, short⟩ := flat.field member
      have value := short.rendered (Layout.indented 2) (0 + 1)
      have line : ((Layout.indented 2).entry (0 + 1)).length = 3 := by decide
      have colon : (Layout.indented 2).colon.length = 1 := by decide
      omega
  have line : ((Layout.indented 2).entry 0).length = 1 := by decide
  rw [utf8Length_ascii (Data.ascii_render _ _ 0), Data.sorted_obj, Data.render_obj_length _ _ present]
  omega

/-- A flat record can be written and is read back. -/
theorem Flat.written (flat : Flat entries) (some : entries ≠ [])
    (unpaired : ∀ e ∈ entries, Unpaired e.2) (name : String) :
    ∃ text, atomicWriteJson name (64 * 1024) (.ofData (.obj (record entries))) = .ok text ∧
      read name (64 * 1024) text = .ok (Data.obj (record entries)).sorted := by
  have written : atomicWriteJson name (64 * 1024) (.ofData (.obj (record entries))) =
      .ok ((Data.obj (record entries)).sorted.render (Layout.indented 2) 0) :=
    (atomicWriteJson_ok_iff flat.hashable).2 ⟨rfl, flat.render some⟩
  exact ⟨_, written, read_written (by decide) flat.hashable (flat.depth.trans (by decide))
    (AuthorityPublication.unpaired_record unpaired) written⟩

end Flat
end DocumentFile
end DefiantHarness
