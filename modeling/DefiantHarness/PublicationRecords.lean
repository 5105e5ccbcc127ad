import DefiantHarness.AuthorityPublication
import DefiantHarness.SameContent
import DefiantHarness.TrustRuns

/-! What the publication state accepts is what its serializer writes, and its seals bind every field. -/
namespace DefiantHarness

open Foundation

namespace AuthorityPublication

open TrustState (record textData textAt namesExactly isHash fieldAt_record)

/-! ### Documents that are records -/

theorem record_names (entries : List (String × Data)) :
    (record entries).map (·.1) = (entries.map (·.1)).map Points.ofString := by
  rw [record, List.map_map, List.map_map]
  rfl

theorem record_nodup {entries : List (String × Data)} (distinct : (entries.map (·.1)).Nodup) :
    ((record entries).map (·.1)).Nodup := by
  rw [record_names]
  exact distinct.map fun _ _ => ofString_injective

theorem fieldAt_entry {entries : List (String × Data)} (distinct : (entries.map (·.1)).Nodup)
    {e : String × Data} (member : e ∈ entries) :
    fieldAt (Points.ofString e.1) (record entries) = some e.2 :=
  (fieldAt_eq_some_iff (record_nodup distinct)).2 (List.mem_map.2 ⟨e, member, rfl⟩)

theorem namesExactly_iff {names : List String} {fields : List Field} :
    namesExactly names fields = true ↔ (fields.map (·.1)).Perm (names.map Points.ofString) := by
  rw [namesExactly, List.isPerm_iff]

/-- A document is a record when it has its names, and under each of them its content. -/
theorem same_record_iff {fields : List Field} {entries : List (String × Data)}
    (distinct : (fields.map (·.1)).Nodup) (distinct' : (entries.map (·.1)).Nodup) :
    (Data.obj fields).Same (.obj (record entries)) ↔
      namesExactly (entries.map (·.1)) fields = true ∧
        ∀ e ∈ entries, (fieldAt (Points.ofString e.1) fields).map Data.sorted = some e.2.sorted := by
  rw [Data.same_obj_iff distinct (record_nodup distinct'), namesExactly_iff]
  constructor
  · intro same
    constructor
    · rw [← record_names, List.perm_ext_iff_of_nodup distinct (record_nodup distinct')]
      intro k
      rw [← not_iff_not, ← fieldAt_eq_none_iff, ← fieldAt_eq_none_iff, ← Option.map_eq_none_iff,
        same k, Option.map_eq_none_iff]
    · intro e member
      rw [same, fieldAt_entry distinct' member]
      rfl
  · rintro ⟨names, each⟩ k
    -- a name that no entry has is no field's either
    rcases found : fieldAt k (record entries) with _ | x
    · have absent : fieldAt k fields = none := by
        rw [fieldAt_eq_none_iff, names.mem_iff, ← record_names, ← fieldAt_eq_none_iff]
        exact found
      rw [absent]
    · obtain ⟨e, member, same⟩ := List.mem_map.1
        ((fieldAt_eq_some_iff (record_nodup distinct')).1 found)
      obtain ⟨rfl, rfl⟩ := Prod.mk.inj same
      exact each e member

theorem object_of_same {x : Data} {others : List Field} (same : x.Same (.obj others)) :
    ∃ fields, x = .obj fields := by
  cases x with
  | obj fields => exact ⟨fields, rfl⟩
  | _ => simp [Data.Same, Data.sorted] at same

/-- Records with the same names in the same order that are the same hold the same in each place. -/
theorem contents_of_same {entries others : List (String × Data)}
    (distinct : (entries.map (·.1)).Nodup) (order : entries.map (·.1) = others.map (·.1))
    (same : (Data.obj (record entries)).Same (.obj (record others))) :
    List.Forall₂ (fun e f => e.1 = f.1 ∧ e.2.Same f.2) entries others := by
  have aligned : List.Forall₂ (fun e f => e.1 = f.1) entries others := by
    rw [← List.forall₂_eq_eq_eq, List.forall₂_map_left_iff, List.forall₂_map_right_iff] at order
    exact order
  have each := ((same_record_iff (record_nodup distinct) (order ▸ distinct)).1 same).2
  rw [List.forall₂_iff_zip] at aligned ⊢
  refine ⟨aligned.1, fun {e f} member => ⟨aligned.2 member, ?_⟩⟩
  obtain ⟨left, right⟩ := List.of_mem_zip member
  have found := each f right
  rw [← aligned.2 member, fieldAt_entry distinct left] at found
  exact Option.some.inj found

/-! ### Reading fields -/

theorem sorted_eq_str {x : Data} {s : Points} : x.sorted = .str s ↔ x = .str s := by
  cases x <;> simp [Data.sorted]

theorem sorted_eq_int {x : Data} {i : Int} : x.sorted = .int i ↔ x = .int i := by
  cases x <;> simp [Data.sorted]

theorem sorted_eq_null {x : Data} : x.sorted = .null ↔ x = .null := by
  cases x <;> simp [Data.sorted]

theorem map_sorted_str {value : Option Data} {s : Points} :
    value.map Data.sorted = some (.str s) ↔ value = some (.str s) := by
  simp [Option.map_eq_some_iff, sorted_eq_str]

theorem map_sorted_int {value : Option Data} {i : Int} :
    value.map Data.sorted = some (.int i) ↔ value = some (.int i) := by
  simp [Option.map_eq_some_iff, sorted_eq_int]

theorem hash_ok_iff {value : Option Data} {field : String} {s : Points} :
    hash value field = .ok s ↔ value.map Data.sorted = some (.str s) ∧ isHash s = true := by
  rw [map_sorted_str]
  unfold hash
  split
  next t =>
    simp only [refuseIf_bind_ok_iff, pure_ok_iff, Bool.not_eq_false, Option.some.injEq, Data.str.injEq]
    constructor
    · rintro ⟨formed, rfl⟩
      exact ⟨rfl, formed⟩
    · rintro ⟨rfl, formed⟩
      exact ⟨formed, rfl⟩
  next other =>
    constructor
    · intro read
      cases read
    · rintro ⟨rfl, _⟩
      exact absurd rfl (other s)

/-- A link to a checkpoint is its hash, or says that there is none before. -/
def IsLink (s : Points) : Prop := s = genesis ∨ isHash s = true

theorem checkpointLink_ok_iff {value : Option Data} {s : Points} :
    checkpointLink value = .ok s ↔ value.map Data.sorted = some (.str s) ∧ IsLink s := by
  unfold checkpointLink
  split
  next t =>
    split
    next first =>
      subst first
      rw [pure_ok_iff, map_sorted_str, Option.some.injEq, Data.str.injEq]
      constructor
      · rintro rfl
        exact ⟨rfl, .inl rfl⟩
      · rintro ⟨rfl, _⟩
        rfl
    next other =>
      rw [hash_ok_iff, map_sorted_str, Option.some.injEq, Data.str.injEq]
      refine and_congr_right fun same => ?_
      subst same
      simp [IsLink, other]
  next other =>
    rw [hash_ok_iff]
    refine and_congr_right fun same => ?_
    rw [map_sorted_str] at same
    exact absurd same (other s)

theorem atLeast_ok_iff {low i : Int} {message : String} {value : Option Data} :
    atLeast low message value = .ok i ↔ value.map Data.sorted = some (.int i) ∧ low ≤ i := by
  rw [map_sorted_int]
  unfold atLeast
  split
  next j =>
    simp only [refuseIf_bind_ok_iff, pure_ok_iff, not_lt, Option.some.injEq, Data.int.injEq]
    constructor
    · rintro ⟨positive, rfl⟩
      exact ⟨rfl, positive⟩
    · rintro ⟨rfl, positive⟩
      exact ⟨positive, rfl⟩
  next other =>
    constructor
    · intro read
      cases read
    · rintro ⟨rfl, _⟩
      exact absurd rfl (other i)

theorem whenMember_ok_iff {α : Type} {condition : Bool} {read : Except HarnessError α} {result : Option α} :
    whenMember condition read = .ok result ↔
      result.isSome = condition ∧ ∀ a ∈ result, read = .ok a := by
  unfold whenMember
  cases condition with
  | false =>
    rw [if_neg Bool.false_ne_true, pure_ok_iff, Option.isSome_eq_false_iff, Option.isNone_iff_eq_none]
    constructor
    · rintro rfl
      exact ⟨rfl, by simp⟩
    · exact And.left
  | true =>
    rw [if_pos rfl, map_ok_iff, Option.isSome_iff_exists]
    constructor
    · rintro ⟨a, read, rfl⟩
      refine ⟨⟨a, rfl⟩, ?_⟩
      rintro _ ⟨⟩
      exact read
    · rintro ⟨⟨a, rfl⟩, each⟩
      exact ⟨a, each a rfl, rfl⟩

/-- What reads the content of a member reads the member, which may be null. -/
theorem optional_ok_iff {α : Type} {read : Option Data → Except HarnessError α} {write : α → Data}
    {Formed : α → Prop} {value : Option Data} {result : Option α} (present : value ≠ none)
    (reads : ∀ a, read value = .ok a ↔ value.map Data.sorted = some (write a).sorted ∧ Formed a)
    (written : ∀ a, (write a).sorted ≠ .null) :
    optional read value = .ok result ↔
      value.map Data.sorted = some (orNull (result.map write)).sorted ∧ ∀ a ∈ result, Formed a := by
  obtain ⟨x, rfl⟩ := Option.ne_none_iff_exists'.1 present
  by_cases null : x = .null
  · subst null
    rw [show optional read (some .null) = .ok none from rfl, Except.ok.injEq]
    cases result with
    | none => simp [orNull]
    | some a => simpa [orNull, Data.sorted] using fun same => absurd same.symm (written a)
  · have shape : optional read (some x) = (read (some x)).map some := by
      cases x with
      | null => exact absurd rfl null
      | _ => rfl
    rw [shape, map_ok_iff]
    cases result with
    | none => simpa [orNull, Data.sorted] using fun same => null (sorted_eq_null.1 same)
    | some a => simp [reads, orNull]

theorem optionalMember_ok_iff {α : Type} {condition : Bool}
    {read : Option Data → Except HarnessError α} {write : α → Data} {Formed : α → Prop}
    {value : Option Data} {result : Option α} (present : condition = true → value ≠ none)
    (reads : ∀ a, read value = .ok a ↔ value.map Data.sorted = some (write a).sorted ∧ Formed a)
    (written : ∀ a, (write a).sorted ≠ .null) :
    optionalMember condition read value = .ok result ↔
      (condition = true → value.map Data.sorted = some (orNull (result.map write)).sorted) ∧
        (condition = false → result = none) ∧ ∀ a ∈ result, Formed a := by
  unfold optionalMember
  cases condition with
  | false =>
    rw [if_neg Bool.false_ne_true, pure_ok_iff]
    constructor
    · rintro rfl
      simp
    · exact fun ⟨_, absent, _⟩ => absent rfl
  | true =>
    rw [if_pos rfl, optional_ok_iff (present rfl) reads written]
    simp

section Clock

variable {Instant : Type} [LinearOrder Instant] {clock : WallClock Instant}

variable (clock) in
/-- A text that names an instant. -/
def IsTimestamp (s : Points) : Prop := s ≠ [] ∧ ∃ t, clock.parse s = some (some t)

theorem timestamp_ok_iff {value : Option Data} {field : String} {s : Points} :
    timestamp clock value field = .ok s ↔
      value.map Data.sorted = some (.str s) ∧ IsTimestamp clock s := by
  rw [map_sorted_str]
  unfold timestamp
  split
  next t =>
    simp only [orRefuse_bind_ok_iff, refuseIf_bind_ok_iff, pure_ok_iff, not_or, Option.some.injEq,
      Data.str.injEq]
    constructor
    · rintro ⟨parsed, found, ⟨some, zoned⟩, rfl⟩
      obtain ⟨time, rfl⟩ := Option.ne_none_iff_exists'.1 zoned
      exact ⟨rfl, some, time, found⟩
    · rintro ⟨rfl, some, time, found⟩
      exact ⟨_, found, ⟨some, Option.some_ne_none time⟩, rfl⟩
  next other =>
    constructor
    · intro read
      cases read
    · rintro ⟨rfl, _⟩
      exact absurd rfl (other s)

end Clock

section Records

variable {sha : TextHash} {chunking : Chunking}

theorem snapshot_ok_iff {raw : Data} {field : String} {fields : List Field} :
    snapshot sha chunking raw field = .ok fields ↔
      raw = .obj fields ∧ Hashable maxStateBytes (.ofData raw) := by
  simp only [snapshot, bind_ok_iff, mapError_ok_iff, Prod.exists,
    authoritySnapshot_ok_iff (n := maxStateBytes) (by decide) (by decide)]
  constructor
  · rintro ⟨_, _, ⟨hashable, _, _⟩, object⟩
    split at object
    · exact ⟨by rw [pure_ok_iff.1 object], hashable⟩
    · cases object
  · rintro ⟨rfl, hashable⟩
    exact ⟨_, _, ⟨hashable, rfl, rfl⟩, rfl⟩

theorem names_nodup {fields : List Field} (hashable : Hashable maxStateBytes (.ofData (.obj fields))) :
    (fields.map (·.1)).Nodup := by
  have distinct := Value.distinct_of_bounded hashable.admissible.bounded
  rw [Data.Distinct] at distinct
  exact distinct.1

/-! ### Store hashes -/

/-- One store has its hash, or none and needs none. -/
def HashFormed (e : String × Option Points) : Prop :=
  (e.2 = none → e.1 ∈ optionalStores) ∧ ∀ h ∈ e.2, isHash h = true

/-- Hashes of every store in order, which only the optional stores may lack. -/
def StoreHashes.Formed (s : StoreHashes) : Prop :=
  s.map (·.1) = storeNames ∧ ∀ e ∈ s, HashFormed e

theorem storeHash_ok_iff {fields : List Field} {name : String} {e : String × Option Points}
    (present : fieldAt (Points.ofString name) fields ≠ none) :
    storeHash fields name = .ok e ↔ e.1 = name ∧
      (fieldAt (Points.ofString e.1) fields).map Data.sorted =
        some (orNull (e.2.map .str)).sorted ∧ HashFormed e := by
  obtain ⟨given, result⟩ := e
  unfold storeHash
  split
  next absent => exact absurd absent present
  -- `null` stands for no digest, and only an optional store may have none
  next null =>
    simp only [refuseIf_bind_ok_iff, pure_ok_iff, not_not, Prod.mk.injEq, HashFormed]
    constructor
    · rintro ⟨optional, rfl, rfl⟩
      simp [null, optional, orNull, Data.sorted]
    · rintro ⟨rfl, same, optional, _⟩
      cases result with
      | none => exact ⟨optional rfl, rfl, rfl⟩
      | some h => simp [null, orNull, Data.sorted] at same
  next x other found =>
    simp only [bind_ok_iff, pure_ok_iff, Prod.mk.injEq, hash_ok_iff, HashFormed]
    constructor
    · rintro ⟨h, ⟨same, formed⟩, rfl, rfl⟩
      simp [found, orNull, same, formed, Data.sorted] at same ⊢
    · rintro ⟨rfl, same, _, formed⟩
      rw [found] at same
      cases result with
      | none => exact absurd (sorted_eq_null.1 (Option.some.inj same)) other
      | some h => exact ⟨h, ⟨same, formed h rfl⟩, rfl, rfl⟩

private theorem forall₂_own_iff {β : Type} {P : String × β → Prop} {names : List String}
    {results : List (String × β)} :
    List.Forall₂ (fun name e => e.1 = name ∧ P e) names results ↔
      results.map (·.1) = names ∧ ∀ e ∈ results, P e := by
  induction results generalizing names with
  | nil => simp [eq_comm]
  | cons e es ih =>
    rw [List.forall₂_cons_right_iff, List.map_cons, List.forall_mem_cons]
    constructor
    · rintro ⟨_, names, ⟨rfl, holds⟩, rest, rfl⟩
      obtain ⟨rfl, each⟩ := ih.1 rest
      exact ⟨rfl, holds, each⟩
    · rintro ⟨rfl, holds, each⟩
      exact ⟨_, _, ⟨rfl, holds⟩, ih.2 ⟨rfl, each⟩, rfl⟩

theorem StoreHashes.entries_names (s : StoreHashes) : s.entries.map (·.1) = s.map (·.1) := by
  rw [entries, List.map_map]
  rfl

theorem storeNames_nodup : storeNames.Nodup := by decide

/-- Store hashes are read from what they are written as. -/
theorem storeHashes_ok_iff {x : Data} {s : StoreHashes} (hashable : Hashable maxStateBytes (.ofData x)) :
    storeHashes sha chunking (some x) = .ok s ↔ x.Same s.toDict ∧ s.Formed := by
  simp only [storeHashes, orNull, Option.getD_some, bind_ok_iff, snapshot_ok_iff, refuseIf_ok_iff,
    Bool.not_eq_false, mapM_ok_iff]
  -- the six digests are read in the order of their names, whatever the file's order
  have step {fields : List Field} (names : namesExactly storeNames fields = true) :
      List.Forall₂ (fun name e => storeHash fields name = .ok e) storeNames s ↔
        List.Forall₂ (fun name e => e.1 = name ∧
          (fieldAt (Points.ofString e.1) fields).map Data.sorted =
            some (orNull (e.2.map .str)).sorted ∧ HashFormed e) storeNames s := by
    have present (name : String) (member : name ∈ storeNames) :
        fieldAt (Points.ofString name) fields ≠ none := by
      rw [Ne, fieldAt_eq_none_iff, not_not, (namesExactly_iff.1 names).mem_iff]
      exact List.mem_map_of_mem member
    rw [List.forall₂_iff_zip, List.forall₂_iff_zip]
    refine and_congr_right fun _ => forall₂_congr fun name e => forall_congr' fun member => ?_
    exact storeHash_ok_iff (present name (List.of_mem_zip member).1)
  constructor
  · rintro ⟨fields, ⟨rfl, _⟩, _, names, read⟩
    obtain ⟨order, each⟩ := forall₂_own_iff.1 ((step names).1 read)
    refine ⟨(same_record_iff (names_nodup hashable) ?_).2 ⟨?_, ?_⟩, order, fun e member => (each e member).2⟩
    · rw [s.entries_names, order]
      exact storeNames_nodup
    · rw [s.entries_names, order]
      exact names
    · rw [StoreHashes.entries, List.forall_mem_map]
      exact fun e member => (each e member).1
  · rintro ⟨same, order, formed⟩
    obtain ⟨fields, rfl⟩ := object_of_same same
    obtain ⟨names, each⟩ := (same_record_iff (names_nodup hashable) (by
      rw [s.entries_names, order]
      exact storeNames_nodup)).1 same
    rw [s.entries_names, order] at names
    rw [StoreHashes.entries, List.forall_mem_map] at each
    exact ⟨fields, ⟨rfl, hashable⟩, (), names, (step names).2
      (forall₂_own_iff.2 ⟨order, fun e member => ⟨each e member, formed e member⟩⟩)⟩

/-- The store hashes under a name of an accepted document. -/
theorem storesAt_ok_iff {fields : List Field} {name : Points} {s : StoreHashes}
    (hashable : Hashable maxStateBytes (.ofData (.obj fields))) :
    storeHashes sha chunking (fieldAt name fields) = .ok s ↔
      (fieldAt name fields).map Data.sorted = some s.toDict.sorted ∧ s.Formed := by
  rcases found : fieldAt name fields with _ | x
  · simp [storeHashes, orNull, bind_ok_iff, snapshot_ok_iff]
  · rw [storeHashes_ok_iff (hashable.field ((fieldAt_eq_some_iff (names_nodup hashable)).1 found)),
      Option.map_some, Option.some.injEq]
    exact Iff.rfl

variable {Instant : Type} [LinearOrder Instant] {clock : WallClock Instant}

/-! ### Intents -/

variable (sha clock) in
/-- An intent with exactly the members of a version, each of them well formed, and its own hash. -/
structure Intent.Formed (i : Intent) (v : Version) : Prop where
  profileHash : isHash i.profileHash = true
  generation : 1 ≤ i.generation
  manifestHash : isHash i.manifestHash = true
  preparedAt : IsTimestamp clock i.preparedAt
  commits : i.storeHashes.isSome = v.commitsIntent
  storeHashes : ∀ s ∈ i.storeHashes, s.Formed
  linked : i.priorCheckpointHash.isSome = v.links
  priorCheckpointHash : ∀ s ∈ i.priorCheckpointHash, IsLink s
  sealed : i.recordHash.isSome = v.seals
  recordHash : ∀ h ∈ i.recordHash, isHash h = true ∧ h = i.expectedRecordHash sha v

theorem Intent.entries_names {i : Intent} {v : Version} (commits : i.storeHashes.isSome = v.commitsIntent)
    (sealed : i.recordHash.isSome = v.seals) : (i.entries v).map (·.1) = intentFields v := by
  have shape : (i.entries v).map (·.1) = ["profile_hash", "generation", "manifest_hash", "prepared_at"] ++
      members i.storeHashes.isSome ["store_hashes"] ++ members v.links ["prior_checkpoint_hash"] ++
      members i.recordHash.isSome ["record_hash"] := by
    rw [entries]
    cases i.storeHashes <;> cases i.recordHash <;> cases v.links <;> rfl
  rw [shape, commits, sealed, intentFields]

theorem intentFields_nodup (v : Version) : (intentFields v).Nodup := by
  cases v <;> decide

theorem Intent.forall_entries {i : Intent} {v : Version} {P : String × Data → Prop} :
    (∀ e ∈ i.entries v, P e) ↔ P ("profile_hash", .str i.profileHash) ∧
      P ("generation", .int i.generation) ∧ P ("manifest_hash", .str i.manifestHash) ∧
      P ("prepared_at", .str i.preparedAt) ∧ (∀ s ∈ i.storeHashes, P ("store_hashes", s.toDict)) ∧
      (v.links = true → P ("prior_checkpoint_hash", orNull (i.priorCheckpointHash.map .str))) ∧
      ∀ h ∈ i.recordHash, P ("record_hash", .str h) := by
  rw [entries]
  cases i.storeHashes <;> cases i.recordHash <;> cases v.links <;> simp [members]

/-- Intents are read from what they are written as. -/
theorem Intent.fromDict_ok_iff {v : Version} {raw : Data} {i : Intent} :
    Intent.fromDict sha chunking clock v raw = .ok i ↔
      Hashable maxStateBytes (.ofData raw) ∧ raw.Same (i.toDict v) ∧ i.Formed sha clock v := by
  -- each field read says what the field holds; which fields there are depends on the version
  simp only [Intent.fromDict, bind_ok_iff, snapshot_ok_iff, refuseIf_ok_iff, Bool.not_eq_false,
    hash_ok_iff, AuthorityPublication.generation, atLeast_ok_iff, timestamp_ok_iff, whenMember_ok_iff,
    checkpointLink_ok_iff, pure_ok_iff]
  constructor
  · rintro ⟨fields, ⟨rfl, hashable⟩, _, names, profileHash, ⟨profileAt, profileFormed⟩, generation,
      ⟨generationAt, positive⟩, manifestHash, ⟨manifestAt, manifestFormed⟩, preparedAt,
      ⟨preparedAtAt, stamp⟩, stores, ⟨commits, storesRead⟩, prior, ⟨linked, priorRead⟩, record,
      ⟨sealed, recordRead⟩, _, own, rfl⟩
    have stored (s : StoreHashes) (given : s ∈ stores) := (storesAt_ok_iff hashable).1 (storesRead s given)
    refine ⟨hashable, (same_record_iff (names_nodup hashable) ?_).2 ⟨?_, ?_⟩, ?_⟩
    · rw [Intent.entries_names commits sealed]
      exact intentFields_nodup v
    · rw [Intent.entries_names commits sealed]
      exact names
    · rw [Intent.forall_entries]
      refine ⟨profileAt, generationAt, manifestAt, preparedAtAt, fun s given => (stored s given).1, ?_,
        fun h given => (recordRead h given).1⟩
      intro links
      rw [links, Option.isSome_iff_exists] at linked
      obtain ⟨s, rfl⟩ := linked
      exact (priorRead s rfl).1
    · refine ⟨profileFormed, positive, manifestFormed, stamp, commits, fun s given => (stored s given).2,
        linked, fun s given => (priorRead s given).2, sealed, fun h given => ⟨(recordRead h given).2, ?_⟩⟩
      cases given
      simpa using own
  · rintro ⟨hashable, same, formed⟩
    obtain ⟨fields, rfl⟩ := object_of_same same
    have entryNames := Intent.entries_names formed.commits formed.sealed
    obtain ⟨names, each⟩ := (same_record_iff (names_nodup hashable)
      (entryNames ▸ intentFields_nodup v)).1 same
    rw [Intent.forall_entries] at each
    obtain ⟨profileAt, generationAt, manifestAt, preparedAtAt, storesAt, priorAt, recordAt⟩ := each
    refine ⟨fields, ⟨rfl, hashable⟩, (), entryNames ▸ names, _, ⟨profileAt, formed.profileHash⟩, _,
      ⟨generationAt, formed.generation⟩, _, ⟨manifestAt, formed.manifestHash⟩, _,
      ⟨preparedAtAt, formed.preparedAt⟩, i.storeHashes, ⟨formed.commits, ?_⟩, i.priorCheckpointHash,
      ⟨formed.linked, ?_⟩, i.recordHash, ⟨formed.sealed, ?_⟩, (), ?_, rfl⟩
    · exact fun s given => (storesAt_ok_iff hashable).2 ⟨storesAt s given, formed.storeHashes s given⟩
    · intro s given
      have links : v.links = true := by
        rw [← formed.linked, given]
        rfl
      have found := priorAt links
      rw [given] at found
      exact ⟨found, formed.priorCheckpointHash s given⟩
    · exact fun h given => ⟨recordAt h given, (formed.recordHash h given).1⟩
    · rintro ⟨some, apart⟩
      obtain ⟨h, given⟩ := Option.ne_none_iff_exists'.1 some
      rw [given, (formed.recordHash h given).2] at apart
      exact apart rfl

/-! ### Checkpoints -/

variable (sha clock) in
/-- A checkpoint with exactly the members of a version, its own hash, and the hash of the intent that
it links to. -/
structure Checkpoint.Formed (c : Checkpoint) (v : Version) : Prop where
  profileHash : isHash c.profileHash = true
  generation : 1 ≤ c.generation
  manifestHash : isHash c.manifestHash = true
  completedAt : IsTimestamp clock c.completedAt
  commits : v.commitsCheckpoint = false → c.storeHashes = none
  storeHashes : ∀ s ∈ c.storeHashes, s.Formed
  links : v.links = false → c.preparedAt = none ∧ c.priorCheckpointHash = none ∧ c.intentRecordHash = none
  preparedAt : ∀ s ∈ c.preparedAt, IsTimestamp clock s
  priorCheckpointHash : ∀ s ∈ c.priorCheckpointHash, IsLink s
  intentRecordHash : ∀ h ∈ c.intentRecordHash, isHash h = true ∧ c.expectedIntentRecordHash sha = .ok h
  linked : c.preparedAt.isSome = c.intentRecordHash.isSome ∧
    c.priorCheckpointHash.isSome = c.intentRecordHash.isSome
  sealed : c.recordHash.isSome = v.seals
  recordHash : ∀ h ∈ c.recordHash, isHash h = true ∧ h = c.expectedRecordHash sha v

theorem Checkpoint.entries_names (c : Checkpoint) (v : Version) :
    (c.entries v).map (·.1) = checkpointFields v := by
  rw [entries, checkpointFields]
  cases v.commitsCheckpoint <;> cases v.links <;> cases v.seals <;> rfl

theorem checkpointFields_nodup (v : Version) : (checkpointFields v).Nodup := by
  cases v <;> decide

theorem Checkpoint.forall_entries {c : Checkpoint} {v : Version} {P : String × Data → Prop} :
    (∀ e ∈ c.entries v, P e) ↔ P ("profile_hash", .str c.profileHash) ∧
      P ("generation", .int c.generation) ∧ P ("manifest_hash", .str c.manifestHash) ∧
      P ("completed_at", .str c.completedAt) ∧ (v.commitsCheckpoint = true → P c.storeEntry) ∧
      (v.links = true → P ("prepared_at", orNull (c.preparedAt.map .str)) ∧
        P ("prior_checkpoint_hash", orNull (c.priorCheckpointHash.map .str)) ∧
        P ("intent_record_hash", orNull (c.intentRecordHash.map .str))) ∧
      (v.seals = true → P ("record_hash", orNull (c.recordHash.map .str))) := by
  rw [entries]
  cases v.commitsCheckpoint <;> cases v.links <;> cases v.seals <;> simp [members, linkEntries, and_assoc]

private theorem linked_iff {a b c : Option Points} :
    ¬ ([a, b, c].any (·.isNone) = true ∧ [a, b, c].any (·.isSome) = true) ↔
      a.isSome = c.isSome ∧ b.isSome = c.isSome := by
  cases a <;> cases b <;> cases c <;> simp

theorem Checkpoint.requireIntentLink_ok_iff {c : Checkpoint} {u : Unit} :
    c.requireIntentLink sha = .ok u ↔
      ∀ h ∈ c.intentRecordHash, c.expectedIntentRecordHash sha = .ok h := by
  unfold requireIntentLink
  split
  next absent => simp [absent]
  next h found =>
    simp only [bind_ok_iff, refuseIf_ok_iff, not_not, found, Option.mem_some_iff, forall_eq']
    constructor
    · rintro ⟨expected, read, rfl⟩
      exact read
    · exact fun read => ⟨h, read, rfl⟩

theorem StoreHashes.toDict_sorted_ne (s : StoreHashes) : s.toDict.sorted ≠ .null := by
  simp [toDict, Data.sorted]

private theorem present_of_names {names : List String} {fields : List Field}
    (exactly : namesExactly names fields = true) {name : String} (member : name ∈ names) :
    fieldAt (Points.ofString name) fields ≠ none := by
  rw [Ne, fieldAt_eq_none_iff, not_not, (namesExactly_iff.1 exactly).mem_iff]
  exact List.mem_map_of_mem member

theorem store_hashes_member {v : Version} (commits : v.commitsCheckpoint = true) :
    "store_hashes" ∈ checkpointFields v := by
  simp [checkpointFields, members, commits]

theorem link_member {v : Version} (links : v.links = true) : "prepared_at" ∈ checkpointFields v ∧
    "prior_checkpoint_hash" ∈ checkpointFields v ∧ "intent_record_hash" ∈ checkpointFields v := by
  simp [checkpointFields, members, links]

private theorem optionalText_ok_iff {condition : Bool} {read : Option Data → Except HarnessError Points}
    {Formed : Points → Prop} {value : Option Data} {result : Option Points}
    (reads : ∀ s, read value = .ok s ↔ value.map Data.sorted = some (.str s) ∧ Formed s)
    (present : condition = true → value ≠ none) :
    optionalMember condition read value = .ok result ↔
      (condition = true → value.map Data.sorted = some (orNull (result.map .str)).sorted) ∧
        (condition = false → result = none) ∧ ∀ a ∈ result, Formed a :=
  optionalMember_ok_iff present reads fun _ => by simp [Data.sorted]

private theorem optionalStores_ok_iff {condition : Bool} {fields : List Field} {name : Points}
    {result : Option StoreHashes} (hashable : Hashable maxStateBytes (.ofData (.obj fields)))
    (present : condition = true → fieldAt name fields ≠ none) :
    optionalMember condition (storeHashes sha chunking) (fieldAt name fields) = .ok result ↔
      (condition = true →
        (fieldAt name fields).map Data.sorted = some (orNull (result.map StoreHashes.toDict)).sorted) ∧
        (condition = false → result = none) ∧ ∀ s ∈ result, s.Formed :=
  optionalMember_ok_iff present (fun _ => storesAt_ok_iff hashable) StoreHashes.toDict_sorted_ne

/-- Checkpoints are read from what they are written as. -/
theorem Checkpoint.fromDict_ok_iff {v : Version} {raw : Data} {c : Checkpoint} :
    Checkpoint.fromDict sha chunking clock v raw = .ok c ↔
      Hashable maxStateBytes (.ofData raw) ∧ raw.Same (c.toDict v) ∧ c.Formed sha clock v := by
  simp only [Checkpoint.fromDict, bind_ok_iff, snapshot_ok_iff, refuseIf_ok_iff, Bool.not_eq_false,
    hash_ok_iff, AuthorityPublication.generation, atLeast_ok_iff, timestamp_ok_iff, whenMember_ok_iff,
    linked_iff, Checkpoint.requireIntentLink_ok_iff, pure_ok_iff]
  constructor
  · rintro ⟨fields, ⟨rfl, hashable⟩, _, names, profileHash, ⟨profileAt, profileFormed⟩, generation,
      ⟨generationAt, positive⟩, manifestHash, ⟨manifestAt, manifestFormed⟩, completedAt,
      ⟨completedAtAt, stamp⟩, stores, storesRead, prepared, preparedRead, prior, priorRead, intent,
      intentRead, record, ⟨sealed, recordRead⟩, _, linked, _, own, _, linkHash, rfl⟩
    -- a version that lacks a field has nothing in its place
    obtain ⟨storesAt, noStores, storesFormed⟩ := (optionalStores_ok_iff hashable
      fun commits => present_of_names names (store_hashes_member commits)).1 storesRead
    obtain ⟨preparedAt, notPrepared, preparedFormed⟩ := (optionalText_ok_iff (fun _ => timestamp_ok_iff)
      fun links => present_of_names names (link_member links).1).1 preparedRead
    obtain ⟨priorAt, noPrior, priorFormed⟩ := (optionalText_ok_iff (fun _ => checkpointLink_ok_iff)
      fun links => present_of_names names (link_member links).2.1).1 priorRead
    obtain ⟨intentAt, noIntent, intentFormed⟩ := (optionalText_ok_iff (fun _ => hash_ok_iff)
      fun links => present_of_names names (link_member links).2.2).1 intentRead
    refine ⟨hashable, (same_record_iff (names_nodup hashable) ?_).2 ⟨?_, ?_⟩, ?_⟩
    · rw [Checkpoint.entries_names]
      exact checkpointFields_nodup v
    · rw [Checkpoint.entries_names]
      exact names
    · rw [Checkpoint.forall_entries]
      refine ⟨profileAt, generationAt, manifestAt, completedAtAt, storesAt,
        fun links => ⟨preparedAt links, priorAt links, intentAt links⟩, fun seals => ?_⟩
      rw [seals, Option.isSome_iff_exists] at sealed
      obtain ⟨h, rfl⟩ := sealed
      exact (recordRead h rfl).1
    · refine ⟨profileFormed, positive, manifestFormed, stamp, noStores, storesFormed,
        fun unlinked => ⟨notPrepared unlinked, noPrior unlinked, noIntent unlinked⟩, preparedFormed,
        priorFormed, fun h given => ⟨intentFormed h given, linkHash h given⟩, linked, sealed,
        fun h given => ⟨(recordRead h given).2, ?_⟩⟩
      cases given
      simpa using own
  · rintro ⟨hashable, same, formed⟩
    obtain ⟨fields, rfl⟩ := object_of_same same
    obtain ⟨names, each⟩ := (same_record_iff (names_nodup hashable)
      (c.entries_names v ▸ checkpointFields_nodup v)).1 same
    rw [Checkpoint.entries_names] at names
    rw [Checkpoint.forall_entries] at each
    obtain ⟨profileAt, generationAt, manifestAt, completedAtAt, storesAt, linksAt, recordAt⟩ := each
    refine ⟨fields, ⟨rfl, hashable⟩, (), names, _, ⟨profileAt, formed.profileHash⟩, _,
      ⟨generationAt, formed.generation⟩, _, ⟨manifestAt, formed.manifestHash⟩, _,
      ⟨completedAtAt, formed.completedAt⟩, c.storeHashes, ?_, c.preparedAt, ?_, c.priorCheckpointHash, ?_,
      c.intentRecordHash, ?_, c.recordHash, ⟨formed.sealed, ?_⟩, (), formed.linked, (), ?_, (), ?_, rfl⟩
    · exact (optionalStores_ok_iff hashable
        fun commits => present_of_names names (store_hashes_member commits)).2
          ⟨storesAt, formed.commits, formed.storeHashes⟩
    · exact (optionalText_ok_iff (fun _ => timestamp_ok_iff)
        fun links => present_of_names names (link_member links).1).2
          ⟨fun links => (linksAt links).1, fun unlinked => (formed.links unlinked).1, formed.preparedAt⟩
    · exact (optionalText_ok_iff (fun _ => checkpointLink_ok_iff)
        fun links => present_of_names names (link_member links).2.1).2
          ⟨fun links => (linksAt links).2.1, fun unlinked => (formed.links unlinked).2.1,
            formed.priorCheckpointHash⟩
    · exact (optionalText_ok_iff (fun _ => hash_ok_iff)
        fun links => present_of_names names (link_member links).2.2).2
          ⟨fun links => (linksAt links).2.2, fun unlinked => (formed.links unlinked).2.2,
            fun h given => (formed.intentRecordHash h given).1⟩
    · intro h given
      have seals : v.seals = true := by
        rw [← formed.sealed, given]
        rfl
      have found := recordAt seals
      rw [given] at found
      exact ⟨found, (formed.recordHash h given).1⟩
    · rintro ⟨some, apart⟩
      obtain ⟨h, given⟩ := Option.ne_none_iff_exists'.1 some
      rw [given, (formed.recordHash h given).2] at apart
      exact apart rfl
    · exact fun h given => (formed.intentRecordHash h given).2

/-! ### States -/

variable (sha clock) in
/-- A state whose records have the members of its version and fit together. -/
structure State.Formed (s : State) : Prop where
  active : ∀ i ∈ s.active, i.Formed sha clock s.schemaVersion
  completed : ∀ c ∈ s.completed, c.Formed sha clock s.schemaVersion
  sequenced : s.continuitySequence.isSome = (s.schemaVersion == .current)
  continuitySequence : ∀ n ∈ s.continuitySequence, 0 ≤ n
  require : s.require = .ok ()

theorem State.entries_names (s : State) : s.entries.map (·.1) = stateFields s.schemaVersion := by
  rw [entries, stateFields]
  cases s.schemaVersion == .current <;> rfl

theorem stateFields_nodup (v : Version) : (stateFields v).Nodup := by
  cases v <;> decide

theorem State.forall_entries {s : State} {P : String × Data → Prop} :
    (∀ e ∈ s.entries, P e) ↔ P ("schema_name", textData schemaName) ∧
      P ("schema_version", textData s.schemaVersion.text) ∧
      P ("active", orNull (s.active.map (·.toDict s.schemaVersion))) ∧
      P ("completed", orNull (s.completed.map (·.toDict s.schemaVersion))) ∧
      ((s.schemaVersion == .current) = true →
        P ("continuity_sequence", orNull (s.continuitySequence.map .int))) := by
  rw [entries]
  cases s.schemaVersion == .current <;> simp [members]

theorem Version.text_injective {v w : Version} (same : Points.ofString v.text = Points.ofString w.text) :
    v = w := by
  have texts : v.text = w.text := ofString_injective same
  revert texts
  cases v <;> cases w <;> decide

theorem version_found_iff {text : Option Points} {v : Version} :
    (Version.supported.find? fun v => text == some (Points.ofString v.text)) = some v ↔
      text = some (Points.ofString v.text) := by
  constructor
  · intro found
    have named := List.find?_some found
    exact beq_iff_eq.1 named
  · rintro rfl
    have listed : (Version.supported.find? fun w =>
        some (Points.ofString v.text) == some (Points.ofString w.text)).isSome :=
      List.find?_isSome.2 ⟨v, by cases v <;> decide, beq_self_eq_true _⟩
    obtain ⟨w, found⟩ := Option.isSome_iff_exists.1 listed
    have named := List.find?_some found
    rw [found, Version.text_injective (Option.some.inj (beq_iff_eq.1 named))]

theorem textAt_eq_some_iff {name : String} {fields : List Field} {text : Points} :
    textAt name fields = some text ↔
      (fieldAt (Points.ofString name) fields).map Data.sorted = some (.str text) := by
  rw [map_sorted_str, textAt]
  split
  next s found => simp [found]
  next other =>
    constructor
    · intro absent
      cases absent
    · intro found
      exact absurd found (other text)

/-- A record that is a member of an accepted document. -/
theorem recordAt_ok_iff {α : Type} {read : Data → Except HarnessError α} {write : α → Data}
    {Formed : α → Prop} {fields : List Field} {name : Points} {result : Option α}
    (hashable : Hashable maxStateBytes (.ofData (.obj fields))) (present : fieldAt name fields ≠ none)
    (reads : ∀ x a, read x = .ok a ↔ Hashable maxStateBytes (.ofData x) ∧ x.Same (write a) ∧ Formed a)
    (written : ∀ a, (write a).sorted ≠ .null) :
    optional (fun x => read (orNull x)) (fieldAt name fields) = .ok result ↔
      (fieldAt name fields).map Data.sorted = some (orNull (result.map write)).sorted ∧
        ∀ a ∈ result, Formed a := by
  refine optional_ok_iff present (fun a => ?_) written
  obtain ⟨x, found⟩ := Option.ne_none_iff_exists'.1 present
  have inside := hashable.field ((fieldAt_eq_some_iff (names_nodup hashable)).1 found)
  rw [found, orNull, Option.getD_some, reads, Option.map_some, Option.some.injEq, and_iff_right inside]
  exact Iff.rfl

theorem Intent.toDict_sorted_ne (i : Intent) (v : Version) : (i.toDict v).sorted ≠ .null := by
  simp [toDict, Data.sorted]

theorem Checkpoint.toDict_sorted_ne (c : Checkpoint) (v : Version) : (c.toDict v).sorted ≠ .null := by
  simp [toDict, Data.sorted]

/-- States are read from what they are written as. -/
theorem State.fromDict_ok_iff {raw : Data} {s : State} :
    State.fromDict sha chunking clock raw = .ok s ↔
      Hashable maxStateBytes (.ofData raw) ∧ raw.Same s.toDict ∧ s.Formed sha clock := by
  simp only [State.fromDict, bind_ok_iff, snapshot_ok_iff, refuseIf_ok_iff, Bool.not_eq_false, not_not,
    orRefuse_ok_iff, version_found_iff, textAt_eq_some_iff, AuthorityPublication.continuitySequence,
    atLeast_ok_iff, whenMember_ok_iff, pure_ok_iff]
  constructor
  · rintro ⟨fields, ⟨rfl, hashable⟩, _, schemaAt, v, versionAt, _, names, sequence,
      ⟨sequenced, sequenceRead⟩, active, activeRead, completed, completedRead, _, required, rfl⟩
    -- the two records are read by the lemmas above, or are null
    obtain ⟨activeAt, activeFormed⟩ := (recordAt_ok_iff hashable
      (present_of_names names (by simp [stateFields])) (fun _ _ => Intent.fromDict_ok_iff)
      fun i => i.toDict_sorted_ne v).1 activeRead
    obtain ⟨completedAt, completedFormed⟩ := (recordAt_ok_iff hashable
      (present_of_names names (by simp [stateFields])) (fun _ _ => Checkpoint.fromDict_ok_iff)
      fun c => c.toDict_sorted_ne v).1 completedRead
    refine ⟨hashable, (same_record_iff (names_nodup hashable) ?_).2 ⟨?_, ?_⟩, activeFormed,
      completedFormed, sequenced, fun n given => (sequenceRead n given).2, required⟩
    · rw [State.entries_names]
      exact stateFields_nodup v
    · rw [State.entries_names]
      exact names
    · rw [State.forall_entries]
      refine ⟨schemaAt, versionAt, activeAt, completedAt, fun current => ?_⟩
      dsimp only at current sequenced
      rw [current, Option.isSome_iff_exists] at sequenced
      obtain ⟨n, rfl⟩ := sequenced
      exact (sequenceRead n rfl).1
  · rintro ⟨hashable, same, formed⟩
    obtain ⟨fields, rfl⟩ := object_of_same same
    obtain ⟨names, each⟩ := (same_record_iff (names_nodup hashable)
      (s.entries_names ▸ stateFields_nodup s.schemaVersion)).1 same
    rw [State.entries_names] at names
    rw [State.forall_entries] at each
    obtain ⟨schemaAt, versionAt, activeAt, completedAt, sequenceAt⟩ := each
    refine ⟨fields, ⟨rfl, hashable⟩, (), schemaAt, s.schemaVersion, versionAt, (), names,
      s.continuitySequence, ⟨formed.sequenced, ?_⟩, s.active, ?_, s.completed, ?_, (), formed.require, rfl⟩
    · intro n given
      have current : (s.schemaVersion == .current) = true := by
        rw [← formed.sequenced, given]
        rfl
      have found := sequenceAt current
      rw [given] at found
      exact ⟨found, formed.continuitySequence n given⟩
    · exact (recordAt_ok_iff hashable (present_of_names names (by simp [stateFields]))
        (fun _ _ => Intent.fromDict_ok_iff) fun i => i.toDict_sorted_ne _).2 ⟨activeAt, formed.active⟩
    · exact (recordAt_ok_iff hashable (present_of_names names (by simp [stateFields]))
        (fun _ _ => Checkpoint.fromDict_ok_iff) fun c => c.toDict_sorted_ne _).2
          ⟨completedAt, formed.completed⟩

end Records

end AuthorityPublication
end DefiantHarness
