import DefiantHarness.PublicationStore

/-! The two files of the publication: what is written to either is read back. -/
namespace DefiantHarness

open Foundation

namespace AuthorityPublication

open TrustState (record textData isHash fieldAt_record)

section Reading

variable {Instant : Type} [LinearOrder Instant] {clock : WallClock Instant} {sha : TextHash}
  {chunking : Chunking}

/-! ### What is written is read back -/

theorem Intent.entries_distinct (i : Intent) (v : Version) : ((i.entries v).map (·.1)).Nodup := by
  rw [entries]
  cases i.storeHashes <;> cases i.recordHash <;> cases v.links <;> simp [members]

/-- An intent that is written as a well formed one is that one. -/
theorem Intent.eq_of_same {i j : Intent} (stores : ∀ s ∈ i.storeHashes, s.Formed)
    (formed : j.Formed sha clock .current) (same : (i.toDict .current).Same (j.toDict .current)) :
    j = i := by
  have each := ((same_record_iff (record_nodup (i.entries_distinct _)) (j.entries_distinct _)).1 same).2
  rw [Intent.forall_entries] at each
  obtain ⟨profileAt, generationAt, manifestAt, preparedAt, storesAt, priorAt, recordAt⟩ := each
  -- the current version has its stores and its seal, so the entries of both intents are all there
  obtain ⟨s, stored⟩ := Option.isSome_iff_exists.1 formed.commits
  obtain ⟨h, sealed⟩ := Option.isSome_iff_exists.1 formed.sealed
  replace storesAt := storesAt s stored
  replace priorAt := priorAt rfl
  replace recordAt := recordAt h sealed
  have well := formed.storeHashes s stored
  obtain ⟨profileHash, generation, manifestHash, prepared, hashes, prior, recordHash⟩ := i
  obtain ⟨profileHash', generation', manifestHash', prepared', hashes', prior', recordHash'⟩ := j
  dsimp only at stored sealed
  subst stored sealed
  rw [fieldAt_record] at profileAt generationAt manifestAt preparedAt storesAt priorAt recordAt
  cases hashes with
  | none => cases recordHash <;> simp [entries, members, Version.links] at storesAt
  | some t =>
    cases recordHash with
    | none => simp [entries, members, Version.links] at recordAt
    | some h' =>
      simp [entries, members, Version.links, Data.sorted] at profileAt generationAt manifestAt
      simp [entries, members, Version.links, Data.sorted] at preparedAt recordAt
      simp only [entries, members, Version.links, if_pos, Option.map_some, Option.toList_some,
        List.cons_append, List.nil_append] at storesAt priorAt
      have own : t.toDict.sorted = s.toDict.sorted := by simpa using storesAt
      have link : (orNull (prior.map .str)).sorted = (orNull (prior'.map .str)).sorted := by
        simpa using priorAt
      rw [profileAt, generationAt, manifestAt, preparedAt, recordAt, orNull_str_injective link,
        (stores t rfl).eq_of_same well own]

theorem Checkpoint.eq_of_same {c d : Checkpoint} (stores : ∀ s ∈ c.storeHashes, s.Formed)
    (stores' : ∀ s ∈ d.storeHashes, s.Formed) (same : (c.toDict .current).Same (d.toDict .current)) :
    d = c := by
  have each := ((same_record_iff (record_nodup (c.entries_names _ ▸ checkpointFields_nodup _))
    (d.entries_names _ ▸ checkpointFields_nodup _)).1 same).2
  rw [Checkpoint.forall_entries] at each
  obtain ⟨profileAt, generationAt, manifestAt, completedAt, storesAt, linksAt, recordAt⟩ := each
  replace storesAt := storesAt rfl
  obtain ⟨preparedAt, priorAt, intentAt⟩ := linksAt rfl
  replace recordAt := recordAt rfl
  obtain ⟨profileHash, generation, manifestHash, completed, hashes, prepared, prior, intent, own⟩ := c
  obtain ⟨profileHash', generation', manifestHash', completed', hashes', prepared', prior', intent',
    own'⟩ := d
  rw [Checkpoint.storeEntry, fieldAt_record] at storesAt
  rw [fieldAt_record] at profileAt generationAt manifestAt completedAt preparedAt priorAt intentAt recordAt
  simp [entries, members, Version.links, Version.commitsCheckpoint, Version.seals, linkEntries,
    storeEntry, Data.sorted] at profileAt generationAt manifestAt completedAt
  simp [entries, members, Version.links, Version.commitsCheckpoint, Version.seals, linkEntries,
    storeEntry] at storesAt preparedAt priorAt intentAt recordAt
  -- the store hashes are the only part with fields of its own
  have committed : hashes' = hashes := by
    cases hashes with
    | none => cases hashes' with
      | none => rfl
      | some t => simp [orNull, Data.sorted, StoreHashes.toDict] at storesAt
    | some s => cases hashes' with
      | none => simp [orNull, Data.sorted, StoreHashes.toDict] at storesAt
      | some t => rw [(stores s rfl).eq_of_same (stores' t rfl) storesAt]
  rw [profileAt, generationAt, manifestAt, completedAt, committed, orNull_str_injective preparedAt,
    orNull_str_injective priorAt, orNull_str_injective intentAt, orNull_str_injective recordAt]

/-- A state of the current version with well formed store hashes. -/
structure State.Plain (s : State) : Prop where
  current : s.schemaVersion = .current
  sequenced : s.continuitySequence.isSome = true
  active : ∀ i ∈ s.active, ∀ stores ∈ i.storeHashes, stores.Formed
  completed : ∀ c ∈ s.completed, ∀ stores ∈ c.storeHashes, stores.Formed

/-- What `_write` reads from a state is the state. -/
theorem State.Plain.read_back {s c : State} (plain : s.Plain)
    (accepted : State.fromDict sha chunking clock s.toDict = .ok c) : c = s := by
  obtain ⟨hashable, same, formed⟩ := State.fromDict_ok_iff.1 accepted
  have each := ((same_record_iff (names_nodup hashable)
    (c.entries_names ▸ stateFields_nodup c.schemaVersion)).1 same).2
  rw [State.forall_entries] at each
  obtain ⟨-, versionAt, activeAt, completedAt, sequenceAt⟩ := each
  obtain ⟨active, completed, version, sequence⟩ := s
  obtain ⟨active', completed', version', sequence'⟩ := c
  obtain rfl : version = .current := plain.current
  obtain ⟨n, rfl⟩ := Option.isSome_iff_exists.1 plain.sequenced
  -- the version first: which entries there are depends on it
  rw [fieldAt_record] at versionAt activeAt completedAt
  have own : version' = .current := by
    simp [entries, textData, Data.sorted] at versionAt
    exact (Version.text_injective versionAt).symm
  subst own
  replace sequenceAt := sequenceAt rfl
  rw [fieldAt_record] at sequenceAt
  simp [entries, members] at activeAt completedAt sequenceAt
  have sequences : sequence' = some n := by
    cases sequence' with
    | none => simp [orNull, Data.sorted] at sequenceAt
    | some m => simp [orNull, Data.sorted] at sequenceAt; rw [sequenceAt]
  have intents : active' = active := by
    cases active with
    | none => cases active' with
      | none => rfl
      | some j => exact absurd activeAt.symm (Intent.toDict_sorted_ne j .current)
    | some i => cases active' with
      | none => exact absurd activeAt (Intent.toDict_sorted_ne i .current)
      | some j => rw [Intent.eq_of_same (plain.active i rfl) (formed.active j rfl) activeAt]
  have checkpoints : completed' = completed := by
    cases completed with
    | none => cases completed' with
      | none => rfl
      | some d => exact absurd completedAt.symm (Checkpoint.toDict_sorted_ne d .current)
    | some c => cases completed' with
      | none => exact absurd completedAt (Checkpoint.toDict_sorted_ne c .current)
      | some d => rw [Checkpoint.eq_of_same (plain.completed c rfl) (formed.completed d rfl).storeHashes
          completedAt]
  rw [sequences, intents, checkpoints]

/-! ### Files -/

private theorem unpaired_members {value : Option Points} (each : ∀ s ∈ value, Unpaired (.str s)) :
    Unpaired (orNull (value.map .str)) := by
  refine unpaired_orNull fun x given => ?_
  obtain ⟨s, stored, rfl⟩ := Option.map_eq_some_iff.1 given
  exact each s stored

theorem Intent.Formed.unpaired {i : Intent} {v : Version} (formed : i.Formed sha clock v) :
    Unpaired (i.toDict v) := by
  refine unpaired_record ?_
  rw [Intent.forall_entries]
  exact ⟨unpaired_hash formed.profileHash, unpaired_int _, unpaired_hash formed.manifestHash,
    formed.preparedAt.unpaired, fun s given => (formed.storeHashes s given).unpaired,
    fun _ => unpaired_members fun s given => (formed.priorCheckpointHash s given).unpaired,
    fun h given => unpaired_hash (formed.recordHash h given).1⟩

theorem Checkpoint.Formed.unpaired {c : Checkpoint} {v : Version} (formed : c.Formed sha clock v) :
    Unpaired (c.toDict v) := by
  refine unpaired_record ?_
  rw [Checkpoint.forall_entries]
  refine ⟨unpaired_hash formed.profileHash, unpaired_int _, unpaired_hash formed.manifestHash,
    formed.completedAt.unpaired, fun _ => unpaired_orNull fun x given => ?_, fun _ => ⟨?_, ?_, ?_⟩,
    fun _ => unpaired_members fun h given => unpaired_hash (formed.recordHash h given).1⟩
  · obtain ⟨s, stored, rfl⟩ := Option.map_eq_some_iff.1 given
    exact (formed.storeHashes s stored).unpaired
  · exact unpaired_members fun s given => (formed.preparedAt s given).unpaired
  · exact unpaired_members fun s given => (formed.priorCheckpointHash s given).unpaired
  · exact unpaired_members fun h given => unpaired_hash (formed.intentRecordHash h given).1

theorem State.Formed.unpaired {s : State} (formed : s.Formed sha clock) : Unpaired s.toDict := by
  refine unpaired_record ?_
  rw [State.forall_entries]
  refine ⟨unpaired_str.2 (unpaired_ofString _), unpaired_str.2 (unpaired_ofString _),
    unpaired_orNull fun x given => ?_, unpaired_orNull fun x given => ?_,
    fun _ => unpaired_orNull fun x given => ?_⟩
  · obtain ⟨i, active, rfl⟩ := Option.map_eq_some_iff.1 given
    exact (formed.active i active).unpaired
  · obtain ⟨c, completed, rfl⟩ := Option.map_eq_some_iff.1 given
    exact (formed.completed c completed).unpaired
  · obtain ⟨n, -, rfl⟩ := Option.map_eq_some_iff.1 given
    exact unpaired_int n

/-- The fields of a record are at most so deep. -/
private theorem record_depth {entries : List (String × Data)} {n : Nat}
    (each : ∀ e ∈ entries, e.2.depth ≤ n) : (Data.obj (record entries)).depth ≤ n + 1 := by
  rw [Data.depth]
  apply Nat.succ_le_succ
  rw [Data.depthFields_le, record, List.forall_mem_map]
  exact each

private theorem orNull_depth {value : Option Data} {n : Nat} (each : ∀ x ∈ value, x.depth ≤ n) :
    (orNull value).depth ≤ n := by
  cases value with
  | none => exact Nat.zero_le n
  | some x => exact each x rfl

private theorem text_depth {value : Option Points} {n : Nat} :
    (orNull (value.map Data.str)).depth ≤ n := by
  cases value <;> exact Nat.zero_le n

private theorem stores_depth (s : StoreHashes) : s.toDict.depth ≤ 1 := by
  refine record_depth ?_
  rw [StoreHashes.entries, List.forall_mem_map]
  exact fun _ _ => text_depth

private theorem Intent.depth_le (i : Intent) (v : Version) : (i.toDict v).depth ≤ 2 := by
  refine record_depth ?_
  rw [Intent.forall_entries]
  exact ⟨Nat.zero_le 1, Nat.zero_le 1, Nat.zero_le 1, Nat.zero_le 1, fun s _ => stores_depth s,
    fun _ => text_depth, fun _ _ => Nat.zero_le 1⟩

private theorem Checkpoint.depth_le (c : Checkpoint) (v : Version) : (c.toDict v).depth ≤ 2 := by
  refine record_depth ?_
  rw [Checkpoint.forall_entries]
  refine ⟨Nat.zero_le 1, Nat.zero_le 1, Nat.zero_le 1, Nat.zero_le 1, fun _ => orNull_depth ?_,
    fun _ => ⟨text_depth, text_depth, text_depth⟩, fun _ => text_depth⟩
  intro x given
  obtain ⟨s, -, rfl⟩ := Option.map_eq_some_iff.1 given
  exact stores_depth s

private theorem State.depth_le (s : State) : s.toDict.depth ≤ 3 := by
  refine record_depth ?_
  rw [State.forall_entries]
  refine ⟨Nat.zero_le 2, Nat.zero_le 2, orNull_depth ?_, orNull_depth ?_, fun _ => orNull_depth ?_⟩
  · intro x given
    obtain ⟨i, -, rfl⟩ := Option.map_eq_some_iff.1 given
    exact i.depth_le _
  · intro x given
    obtain ⟨c, -, rfl⟩ := Option.map_eq_some_iff.1 given
    exact c.depth_le _
  · intro x given
    obtain ⟨n, -, rfl⟩ := Option.map_eq_some_iff.1 given
    exact Nat.zero_le 2

/-- A published state is read back. -/
theorem read_published {raw : Data} {c : State} {text : List Char}
    (accepted : State.fromDict sha chunking clock raw = .ok c)
    (written : atomicWriteJson publicationFile maxStateBytes (.ofData c.toDict) = .ok text) :
    readPublication clock sha chunking (some text) = .ok (some c) := by
  obtain ⟨hashable, same, formed⟩ := State.fromDict_ok_iff.1 accepted
  have own : Hashable maxStateBytes (.ofData c.toDict) := hashable.of_same same
  have read := DocumentFile.read_written (by decide) own (c.depth_le.trans (by decide)) formed.unpaired
    written
  -- the file has the fields in order, and `from_dict` does not mind the order
  have order : c.toDict.Same c.toDict.sorted := (Data.sorted_sorted c.toDict).symm
  have again : State.fromDict sha chunking clock c.toDict.sorted = .ok c :=
    State.fromDict_ok_iff.2 ⟨own.of_same order, order.symm, formed⟩
  rw [readPublication, read, ok_bind, show (Data.obj (record c.entries)).sorted = c.toDict.sorted from rfl,
    again]
  rfl

/-! ### The anchor -/

/-- Digests are 64 hexadecimal digits. -/
def Hexadecimal (sha : TextHash) : Prop :=
  ∀ text, isHash (Points.ofString ("sha256:" ++ sha text)) = true

theorem isHash_length {s : Points} (formed : isHash s = true) : s.length = 71 := by
  simp only [isHash, Bool.and_eq_true, beq_iff_eq, List.length_drop] at formed
  omega

theorem IsLink.length {s : Points} (link : IsLink s) : s.length ≤ 71 := by
  rcases link with rfl | formed
  · decide
  · rw [isHash_length formed]

theorem isTimestamp_utcNow (t : Instant) : IsTimestamp clock (Points.ofString (clock.utcNow t)) := by
  refine ⟨fun empty => ?_, t, clock.parse_utcNow t⟩
  refine (clock.utcNow_short t).1 (String.toList_injective ?_)
  rw [Points.ofString_eq, List.map_eq_nil_iff] at empty
  rw [empty]
  rfl

theorem utcNow_length (t : Instant) : (Points.ofString (clock.utcNow t)).length ≤ 128 := by
  rw [Points.ofString_eq, List.length_map, String.length_toList]
  exact (clock.utcNow_short t).2

namespace ContinuityState

variable {a : ContinuityState}

/-- The anchor at a checkpoint. -/
def Names (a : ContinuityState) (sequence : Int) (checkpointHash priorCheckpointHash : Points) : Prop :=
  a.sequence = sequence ∧ a.checkpointHash = checkpointHash ∧ a.priorCheckpointHash = priorCheckpointHash

/-- An anchor can be written, and is read back. -/
theorem Formed.written (formed : a.Formed sha clock)
    (short : (Numeral.ofInt a.sequence).chars.length ≤ maxActionHashNumberCharacters)
    (stamp : a.anchoredAt.length ≤ 128) :
    ∃ text, atomicWriteJson continuityFile maxContinuityStateBytes (.ofData a.toDict) = .ok text ∧
      readContinuity clock sha chunking (some text) = .ok (some a) := by
  have hash {s : Points} (formed : isHash s = true) : DocumentFile.Short (.str s) :=
    (isHash_length formed).le.trans (by decide)
  have flat : DocumentFile.Flat a.entries := by
    refine ⟨by simp [entries], ?_, a.entries_nodup, ?_⟩
    · simp only [entries, List.forall_mem_cons, List.not_mem_nil, false_implies, implies_true, and_true]
      decide
    · simp only [entries, List.forall_mem_cons, List.not_mem_nil, false_implies, implies_true, and_true]
      refine ⟨?_, ?_, short, hash formed.checkpointHash,
        formed.priorCheckpointHash.length.trans (by decide), stamp, hash formed.recordHash.1⟩
      · exact (by decide : (Points.ofString continuitySchema).length ≤ 128)
      · exact (by decide : (Points.ofString continuityVersion).length ≤ 128)
  have unpaired : ∀ e ∈ a.entries, Unpaired e.2 := by
    simp only [entries, List.forall_mem_cons, List.not_mem_nil, false_implies, implies_true, and_true]
    exact ⟨unpaired_str.2 (unpaired_ofString _), unpaired_str.2 (unpaired_ofString _), unpaired_int _,
      unpaired_hash formed.checkpointHash, formed.priorCheckpointHash.unpaired,
      formed.anchoredAt.unpaired, unpaired_hash formed.recordHash.1⟩
  obtain ⟨text, written, read⟩ := flat.written (by simp [entries]) unpaired continuityFile
  refine ⟨text, written, ?_⟩
  have order : a.toDict.Same a.toDict.sorted := (Data.sorted_sorted a.toDict).symm
  -- the file holds the fields in the order of their names, which the reader does not look at
  have again : ContinuityState.fromDict sha chunking clock a.toDict.sorted = .ok a :=
    fromDict_ok_iff.2 ⟨flat.hashable.of_same order, order.symm, formed⟩
  rw [readContinuity, maxContinuityStateBytes, read]
  dsimp only [ok_bind]
  rw [show (Data.obj (record a.entries)).sorted = a.toDict.sorted from rfl, again]
  rfl

theorem create_ok (hexadecimal : Hexadecimal sha) {n : Int} {checkpointHash prior at_ : Points}
    (positive : 1 ≤ n) (hash : isHash checkpointHash = true) (link : IsLink prior)
    (stamp : IsTimestamp clock at_) :
    ∃ a, create sha n checkpointHash prior at_ = .ok a ∧ a.Formed sha clock ∧
      a.Names n checkpointHash prior ∧ a.anchoredAt = at_ := by
  let draft : ContinuityState := ⟨n, checkpointHash, prior, at_, []⟩
  refine ⟨{ draft with recordHash := draft.expectedRecordHash sha }, ?_,
    ⟨positive, hash, link, stamp, hexadecimal _, rfl⟩, ⟨rfl, rfl, rfl⟩, rfl⟩
  simp only [create, bind_ok_iff, AuthorityPublication.sequence, atLeast_ok_iff, hash_ok_iff,
    checkpointLink_ok_iff, pure_ok_iff]
  exact ⟨n, ⟨rfl, positive⟩, checkpointHash, ⟨rfl, hash⟩, prior, ⟨rfl, link⟩, rfl⟩

end ContinuityState

end Reading
end AuthorityPublication
end DefiantHarness
