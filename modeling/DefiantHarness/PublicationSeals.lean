import DefiantHarness.PublicationRecords

/-! The seals of publication records: a changed field is noticed, and a linked checkpoint names its
intent. -/
namespace DefiantHarness

open Foundation

namespace AuthorityPublication

open TrustState (record textData isHash fieldAt_record unpaired_ascii isHash_ascii)

/-! ### Hashed documents -/

/-- No string of a document spells a character as two surrogates. -/
def Unpaired (x : Data) : Prop := ∀ s ∈ x.strings, s.unpaired = true

theorem unpaired_str {s : Points} : Unpaired (.str s) ↔ s.unpaired = true := by
  simp [Unpaired, Data.strings]

theorem unpaired_int (i : Int) : Unpaired (.int i) := by
  simp [Unpaired, Data.strings]

theorem unpaired_null : Unpaired .null := by
  simp [Unpaired, Data.strings]

theorem unpaired_orNull {value : Option Data} (each : ∀ x ∈ value, Unpaired x) :
    Unpaired (orNull value) := by
  cases value with
  | none => exact unpaired_null
  | some x => exact each x rfl

theorem unpaired_record {entries : List (String × Data)} (each : ∀ e ∈ entries, Unpaired e.2) :
    Unpaired (.obj (record entries)) := by
  intro s member
  obtain ⟨f, inside, text⟩ := Data.mem_stringsFields.1 member
  obtain ⟨e, own, rfl⟩ := List.mem_map.1 inside
  rcases text with rfl | text
  · exact unpaired_ofString e.1
  · exact each e own s text

theorem unpaired_hash {s : Points} (formed : isHash s = true) : Unpaired (.str s) :=
  unpaired_str.2 (unpaired_ascii (isHash_ascii formed))

theorem IsLink.unpaired {s : Points} (link : IsLink s) : Unpaired (.str s) := by
  rcases link with rfl | formed
  · exact unpaired_str.2 (unpaired_ofString _)
  · exact unpaired_hash formed

theorem StoreHashes.Formed.unpaired {s : StoreHashes} (formed : s.Formed) : Unpaired s.toDict := by
  refine unpaired_record ?_
  rw [StoreHashes.entries, List.forall_mem_map]
  intro e member
  refine unpaired_orNull fun x given => ?_
  obtain ⟨h, stored, rfl⟩ := Option.map_eq_some_iff.1 given
  exact unpaired_hash ((formed.2 e member).2 h stored)

theorem same_of_unpaired {x y : Data} (text : x.canonical = y.canonical) (left : Unpaired x)
    (right : Unpaired y) : x.Same y := by
  refine Data.same_of_canonical text fun s inside t inside' same => ?_
  rw [← join_units (left s inside), same, join_units (right t inside')]

section Seals

variable {sha : TextHash}

/-- Records of one kind with one hash have the same content. -/
theorem payload_of_hash (collisionFree : Function.Injective sha) {kind : String}
    {payload other : List (String × Data)}
    (same : publicationRecordHash sha kind payload = publicationRecordHash sha kind other)
    (left : ∀ e ∈ payload, Unpaired e.2) (right : ∀ e ∈ other, Unpaired e.2)
    (distinct : (payload.map (·.1)).Nodup) (distinct' : (other.map (·.1)).Nodup) (name : String) :
    (fieldAt (Points.ofString name) (record payload)).map Data.sorted =
      (fieldAt (Points.ofString name) (record other)).map Data.sorted := by
  have digests := ofString_injective same
  have texts := congrArg String.toList digests
  rw [String.toList_append, String.toList_append, List.append_cancel_left_eq] at texts
  have canonical := collisionFree (String.toList_injective texts)
  have whole := same_of_unpaired canonical
    (unpaired_record (by simpa [textData, unpaired_str, unpaired_ofString] using unpaired_record left))
    (unpaired_record (by simpa [textData, unpaired_str, unpaired_ofString] using unpaired_record right))
  have inner := (Data.same_obj_iff (record_nodup (by simp)) (record_nodup (by simp))).1 whole
    (Points.ofString "record")
  simp only [fieldAt_record] at inner
  have contents : (Data.obj (record payload)).Same (.obj (record other)) := by
    exact Option.some.inj (by simpa using inner)
  exact (Data.same_obj_iff (record_nodup distinct) (record_nodup distinct')).1 contents _

theorem orNull_str_injective {a b : Option Points}
    (same : (orNull (a.map .str)).sorted = (orNull (b.map .str)).sorted) : a = b := by
  cases a <;> cases b <;> simp_all [orNull, Data.sorted]

theorem StoreHashes.Formed.eq_of_same {s t : StoreHashes} (left : s.Formed) (right : t.Formed)
    (same : s.toDict.sorted = t.toDict.sorted) : s = t := by
  have distinct : (s.entries.map (·.1)).Nodup := by
    rw [s.entries_names, left.1]
    exact storeNames_nodup
  have order : s.entries.map (·.1) = t.entries.map (·.1) := by
    rw [s.entries_names, t.entries_names, left.1, right.1]
  have each := contents_of_same distinct order same
  rw [StoreHashes.entries, StoreHashes.entries, List.forall₂_map_left_iff,
    List.forall₂_map_right_iff] at each
  rw [← List.forall₂_eq_eq_eq]
  exact each.imp fun e f both => Prod.ext both.1 (orNull_str_injective both.2)

/-! ### Intents -/

section Intents

/-- The fields of a document, other than a hash of it, are those of an intent. -/
structure Intent.Holds (i : Intent) (v : Version) (fields : List Field) : Prop where
  profileHash : (fieldAt (Points.ofString "profile_hash") fields).map Data.sorted =
    some (.str i.profileHash)
  generation : (fieldAt (Points.ofString "generation") fields).map Data.sorted =
    some (.int i.generation)
  manifestHash : (fieldAt (Points.ofString "manifest_hash") fields).map Data.sorted =
    some (.str i.manifestHash)
  preparedAt : (fieldAt (Points.ofString "prepared_at") fields).map Data.sorted =
    some (.str i.preparedAt)
  storeHashes : ∀ s ∈ i.storeHashes,
    (fieldAt (Points.ofString "store_hashes") fields).map Data.sorted = some s.toDict.sorted
  priorCheckpointHash : v.links = true →
    (fieldAt (Points.ofString "prior_checkpoint_hash") fields).map Data.sorted =
      some (orNull (i.priorCheckpointHash.map .str)).sorted

/-- The store hashes of an intent are well formed, it has them and the link where its version says so,
and its texts are plain. -/
structure Intent.Plain (i : Intent) (v : Version) : Prop where
  profileHash : Unpaired (.str i.profileHash)
  manifestHash : Unpaired (.str i.manifestHash)
  preparedAt : Unpaired (.str i.preparedAt)
  commits : i.storeHashes.isSome = v.commitsIntent
  storeHashes : ∀ s ∈ i.storeHashes, s.Formed
  linked : i.priorCheckpointHash.isSome = v.links
  priorCheckpointHash : ∀ s ∈ i.priorCheckpointHash, Unpaired (.str s)

/-- An intent without the hash of its content. -/
def Intent.unsealed (i : Intent) : Intent := { i with recordHash := none }

variable {i j : Intent} {v : Version} {fields others : List Field}

theorem Intent.Holds.agree (own : i.Holds v fields) (other : j.Holds v others) (plain : i.Plain v)
    (plain' : j.Plain v)
    (same : ∀ name ≠ "record_hash", (fieldAt (Points.ofString name) fields).map Data.sorted =
      (fieldAt (Points.ofString name) others).map Data.sorted) : i.unsealed = j.unsealed := by
  obtain ⟨profileHash, generation, manifestHash, preparedAt, stores, prior, record⟩ := i
  obtain ⟨profileHash', generation', manifestHash', preparedAt', stores', prior', record'⟩ := j
  have first := own.profileHash.symm.trans ((same _ (by decide)).trans other.profileHash)
  have second := own.generation.symm.trans ((same _ (by decide)).trans other.generation)
  have third := own.manifestHash.symm.trans ((same _ (by decide)).trans other.manifestHash)
  have fourth := own.preparedAt.symm.trans ((same _ (by decide)).trans other.preparedAt)
  -- every field but the seal is the same, so the two intents are, up to the seal
  have committed : stores = stores' := by
    have presence := plain.commits.trans plain'.commits.symm
    cases stores with
    | none => cases stores' with
      | none => rfl
      | some t => cases presence
    | some s => cases stores' with
      | none => cases presence
      | some t =>
        have contents := (own.storeHashes s rfl).symm.trans
          ((same _ (by decide)).trans (other.storeHashes t rfl))
        rw [(plain.storeHashes s rfl).eq_of_same (plain'.storeHashes t rfl) (Option.some.inj contents)]
  have linked : prior = prior' := by
    cases links : v.links with
    | true =>
      have contents := (own.priorCheckpointHash links).symm.trans
        ((same _ (by decide)).trans (other.priorCheckpointHash links))
      exact orNull_str_injective (Option.some.inj contents)
    | false =>
      have absent := plain.linked
      have absent' := plain'.linked
      rw [links, Option.isSome_eq_false_iff, Option.isNone_iff_eq_none] at absent absent'
      exact absent.trans absent'.symm
  simp only [Option.some.injEq, Data.str.injEq, Data.int.injEq] at first second third fourth
  subst first second third fourth committed linked
  rfl

theorem Intent.payload_nodup (i : Intent) (v : Version) : ((i.payload v).map (·.1)).Nodup := by
  rw [payload]
  cases v.links <;> simp [members]

theorem Intent.Plain.payload (plain : i.Plain v) : ∀ e ∈ i.payload v, Unpaired e.2 := by
  have stores : Unpaired (orNull (i.storeHashes.map StoreHashes.toDict)) := by
    refine unpaired_orNull fun x given => ?_
    obtain ⟨s, stored, rfl⟩ := Option.map_eq_some_iff.1 given
    exact (plain.storeHashes s stored).unpaired
  have prior : Unpaired (orNull (i.priorCheckpointHash.map .str)) := by
    refine unpaired_orNull fun x given => ?_
    obtain ⟨s, stored, rfl⟩ := Option.map_eq_some_iff.1 given
    exact plain.priorCheckpointHash s stored
  rw [Intent.payload]
  cases v.links <;>
    simp [members, plain.profileHash, plain.manifestHash, plain.preparedAt, unpaired_int, stores, prior]

theorem Intent.holds_payload (i : Intent) (v : Version) : i.Holds v (record (i.payload v)) := by
  constructor <;> rw [fieldAt_record, payload]
  · rfl
  · rfl
  · rfl
  · rfl
  · intro s given
    rw [Option.mem_def.1 given]
    rfl
  · intro links
    rw [links]
    rfl

/-- The hash of an intent binds everything else in it. -/
theorem Intent.unsealed_of_hash (collisionFree : Function.Injective sha) (plain : i.Plain v)
    (plain' : j.Plain v) (same : i.expectedRecordHash sha v = j.expectedRecordHash sha v) :
    i.unsealed = j.unsealed :=
  (i.holds_payload v).agree (j.holds_payload v) plain plain' fun name _ =>
    payload_of_hash collisionFree same plain.payload plain'.payload (i.payload_nodup v)
      (j.payload_nodup v) name

/-- An intent with the hash of a linked one is linked itself. -/
theorem Intent.links_of_hash (collisionFree : Function.Injective sha) (plain : i.Plain v)
    (plain' : j.Plain .current)
    (same : i.expectedRecordHash sha v = j.expectedRecordHash sha .current) : v.links = true := by
  by_contra unlinked
  rw [Bool.not_eq_true] at unlinked
  have entry := payload_of_hash collisionFree same plain.payload plain'.payload (i.payload_nodup v)
    (j.payload_nodup .current) "prior_checkpoint_hash"
  rw [fieldAt_record, fieldAt_record, Intent.payload, Intent.payload, unlinked] at entry
  cases entry

end Intents

/-! ### Checkpoints -/

section Checkpoints

/-- The fields of a document, other than a hash of it, are those of a checkpoint. -/
structure Checkpoint.Holds (c : Checkpoint) (v : Version) (fields : List Field) : Prop where
  profileHash : (fieldAt (Points.ofString "profile_hash") fields).map Data.sorted =
    some (.str c.profileHash)
  generation : (fieldAt (Points.ofString "generation") fields).map Data.sorted =
    some (.int c.generation)
  manifestHash : (fieldAt (Points.ofString "manifest_hash") fields).map Data.sorted =
    some (.str c.manifestHash)
  completedAt : (fieldAt (Points.ofString "completed_at") fields).map Data.sorted =
    some (.str c.completedAt)
  storeHashes : v.commitsCheckpoint = true →
    (fieldAt (Points.ofString "store_hashes") fields).map Data.sorted =
      some (orNull (c.storeHashes.map StoreHashes.toDict)).sorted
  preparedAt : v.links = true → (fieldAt (Points.ofString "prepared_at") fields).map Data.sorted =
    some (orNull (c.preparedAt.map .str)).sorted
  priorCheckpointHash : v.links = true →
    (fieldAt (Points.ofString "prior_checkpoint_hash") fields).map Data.sorted =
      some (orNull (c.priorCheckpointHash.map .str)).sorted
  intentRecordHash : v.links = true →
    (fieldAt (Points.ofString "intent_record_hash") fields).map Data.sorted =
      some (orNull (c.intentRecordHash.map .str)).sorted

def Checkpoint.unsealed (c : Checkpoint) : Checkpoint := { c with recordHash := none }

variable {Instant : Type} [LinearOrder Instant] {clock : WallClock Instant} {c d : Checkpoint}
  {v : Version} {fields others : List Field}

theorem Checkpoint.Holds.agree (own : c.Holds v fields) (other : d.Holds v others)
    (formed : c.Formed sha clock v) (formed' : d.Formed sha clock v)
    (same : ∀ name ≠ "record_hash", (fieldAt (Points.ofString name) fields).map Data.sorted =
      (fieldAt (Points.ofString name) others).map Data.sorted) : c.unsealed = d.unsealed := by
  have first := own.profileHash.symm.trans ((same _ (by decide)).trans other.profileHash)
  have second := own.generation.symm.trans ((same _ (by decide)).trans other.generation)
  have third := own.manifestHash.symm.trans ((same _ (by decide)).trans other.manifestHash)
  have fourth := own.completedAt.symm.trans ((same _ (by decide)).trans other.completedAt)
  have committed : c.storeHashes = d.storeHashes := by
    -- an older version's checkpoint carries no digests to compare
    cases commits : v.commitsCheckpoint with
    | false => rw [formed.commits commits, formed'.commits commits]
    | true =>
      have contents := Option.some.inj ((own.storeHashes commits).symm.trans
        ((same _ (by decide)).trans (other.storeHashes commits)))
      cases stores : c.storeHashes with
      | none => cases stores' : d.storeHashes with
        | none => rfl
        | some t => simp [stores, stores', orNull, Data.sorted, StoreHashes.toDict] at contents
      | some s => cases stores' : d.storeHashes with
        | none => simp [stores, stores', orNull, Data.sorted, StoreHashes.toDict] at contents
        | some t =>
          rw [stores, stores'] at contents
          rw [(formed.storeHashes s stores).eq_of_same (formed'.storeHashes t stores') contents]
  have linked : c.preparedAt = d.preparedAt ∧ c.priorCheckpointHash = d.priorCheckpointHash ∧
      c.intentRecordHash = d.intentRecordHash := by
    cases links : v.links with
    | false =>
      obtain ⟨noStamp, noPrior, noIntent⟩ := formed.links links
      obtain ⟨noStamp', noPrior', noIntent'⟩ := formed'.links links
      rw [noStamp, noPrior, noIntent, noStamp', noPrior', noIntent']
      exact ⟨rfl, rfl, rfl⟩
    | true =>
      have stamp := (own.preparedAt links).symm.trans
        ((same _ (by decide)).trans (other.preparedAt links))
      have prior := (own.priorCheckpointHash links).symm.trans
        ((same _ (by decide)).trans (other.priorCheckpointHash links))
      have intent := (own.intentRecordHash links).symm.trans
        ((same _ (by decide)).trans (other.intentRecordHash links))
      exact ⟨orNull_str_injective (Option.some.inj stamp), orNull_str_injective (Option.some.inj prior),
        orNull_str_injective (Option.some.inj intent)⟩
  obtain ⟨profileHash, generation, manifestHash, completedAt, stores, stamp, prior, intent, record⟩ := c
  obtain ⟨profileHash', generation', manifestHash', completedAt', stores', stamp', prior', intent',
    record'⟩ := d
  simp only [Option.some.injEq, Data.str.injEq, Data.int.injEq] at first second third fourth
  dsimp only at committed linked
  obtain ⟨rfl, rfl, rfl⟩ := linked
  subst first second third fourth committed
  rfl

theorem Checkpoint.payload_nodup (c : Checkpoint) (v : Version) : ((c.payload v).map (·.1)).Nodup := by
  rw [payload]
  cases v.links <;> simp [members, storeEntry, linkEntries]

theorem IsTimestamp.unpaired {s : Points} (stamp : IsTimestamp clock s) : Unpaired (.str s) := by
  obtain ⟨_, t, parsed⟩ := stamp
  exact unpaired_str.2 (clock.parse_unpaired s _ parsed)

private theorem unpaired_texts {value : Option Points} (each : ∀ s ∈ value, Unpaired (.str s)) :
    Unpaired (orNull (value.map .str)) := by
  refine unpaired_orNull fun x given => ?_
  obtain ⟨s, stored, rfl⟩ := Option.map_eq_some_iff.1 given
  exact each s stored

theorem Checkpoint.Formed.payload (formed : c.Formed sha clock v) :
    ∀ e ∈ c.payload v, Unpaired e.2 := by
  have stores : Unpaired (orNull (c.storeHashes.map StoreHashes.toDict)) := by
    refine unpaired_orNull fun x given => ?_
    obtain ⟨s, stored, rfl⟩ := Option.map_eq_some_iff.1 given
    exact (formed.storeHashes s stored).unpaired
  have stamp := unpaired_texts fun s given => (formed.preparedAt s given).unpaired
  have prior := unpaired_texts fun s given => (formed.priorCheckpointHash s given).unpaired
  have intent := unpaired_texts fun s given => unpaired_hash (formed.intentRecordHash s given).1
  rw [Checkpoint.payload]
  cases v.links <;>
    simp [members, storeEntry, linkEntries, unpaired_hash formed.profileHash,
      unpaired_hash formed.manifestHash, formed.completedAt.unpaired, unpaired_int, stores, stamp, prior,
      intent]

theorem Checkpoint.holds_payload (c : Checkpoint) (v : Version) : c.Holds v (record (c.payload v)) := by
  constructor <;> rw [fieldAt_record, payload]
  · rfl
  · rfl
  · rfl
  · rfl
  · exact fun _ => rfl
  all_goals
    intro links
    rw [links]
    rfl

/-- The hash of a checkpoint binds everything else in it. -/
theorem Checkpoint.unsealed_of_hash (collisionFree : Function.Injective sha)
    (formed : c.Formed sha clock v) (formed' : d.Formed sha clock v)
    (same : c.expectedRecordHash sha v = d.expectedRecordHash sha v) : c.unsealed = d.unsealed :=
  (c.holds_payload v).agree (d.holds_payload v) formed formed' fun name _ =>
    payload_of_hash collisionFree same formed.payload formed'.payload (c.payload_nodup v)
      (d.payload_nodup v) name

end Checkpoints

/-! ### Changed records -/

section Changes

variable {Instant : Type} [LinearOrder Instant] {clock : WallClock Instant} {v : Version}

/-- Documents that differ under one name and no other. -/
def Differ (name : Points) (fields others : List Field) : Prop :=
  (∀ k ≠ name, (fieldAt k fields).map Data.sorted = (fieldAt k others).map Data.sorted) ∧
    (fieldAt name fields).map Data.sorted ≠ (fieldAt name others).map Data.sorted

theorem Intent.Formed.plain {i : Intent} (formed : i.Formed sha clock v) : i.Plain v where
  profileHash := unpaired_hash formed.profileHash
  manifestHash := unpaired_hash formed.manifestHash
  preparedAt := formed.preparedAt.unpaired
  commits := formed.commits
  storeHashes := formed.storeHashes
  linked := formed.linked
  priorCheckpointHash := fun s given => (formed.priorCheckpointHash s given).unpaired

variable {fields others : List Field}

theorem Intent.holds_read {i : Intent} (formed : i.Formed sha clock v)
    (distinct : (fields.map (·.1)).Nodup) (same : (Data.obj fields).Same (i.toDict v)) :
    i.Holds v fields ∧ ∀ h ∈ i.recordHash,
      (fieldAt (Points.ofString "record_hash") fields).map Data.sorted = some (.str h) := by
  have each := ((same_record_iff distinct
    (Intent.entries_names formed.commits formed.sealed ▸ intentFields_nodup v)).1 same).2
  rw [Intent.forall_entries] at each
  obtain ⟨profileAt, generationAt, manifestAt, preparedAtAt, storesAt, priorAt, recordAt⟩ := each
  exact ⟨⟨profileAt, generationAt, manifestAt, preparedAtAt, storesAt, priorAt⟩, recordAt⟩

theorem Checkpoint.holds_read {c : Checkpoint} (distinct : (fields.map (·.1)).Nodup)
    (same : (Data.obj fields).Same (c.toDict v)) : c.Holds v fields ∧ (v.seals = true →
      (fieldAt (Points.ofString "record_hash") fields).map Data.sorted =
        some (orNull (c.recordHash.map .str)).sorted) := by
  have each := ((same_record_iff distinct (c.entries_names v ▸ checkpointFields_nodup v)).1 same).2
  rw [Checkpoint.forall_entries] at each
  obtain ⟨profileAt, generationAt, manifestAt, completedAtAt, storesAt, linksAt, recordAt⟩ := each
  exact ⟨⟨profileAt, generationAt, manifestAt, completedAtAt, storesAt, fun links => (linksAt links).1,
    fun links => (linksAt links).2.1, fun links => (linksAt links).2.2⟩, recordAt⟩

theorem Intent.expected_unsealed (i : Intent) :
    i.unsealed.expectedRecordHash sha v = i.expectedRecordHash sha v := rfl

theorem Checkpoint.expected_unsealed (c : Checkpoint) :
    c.unsealed.expectedRecordHash sha v = c.expectedRecordHash sha v := rfl

theorem Intent.eq_of_unsealed {i j : Intent} (content : i.unsealed = j.unsealed)
    (hash : i.recordHash = j.recordHash) : i = j := by
  calc i = { i.unsealed with recordHash := i.recordHash } := rfl
    _ = { j.unsealed with recordHash := j.recordHash } := by rw [content, hash]
    _ = j := rfl

theorem Checkpoint.eq_of_unsealed {c d : Checkpoint} (content : c.unsealed = d.unsealed)
    (hash : c.recordHash = d.recordHash) : c = d := by
  calc c = { c.unsealed with recordHash := c.recordHash } := rfl
    _ = { d.unsealed with recordHash := d.recordHash } := by rw [content, hash]
    _ = d := rfl

/-- No one field of a sealed intent can be another. -/
theorem Intent.not_differ (collisionFree : Function.Injective sha) {i j : Intent}
    (seals : v.seals = true) (formed : i.Formed sha clock v) (formed' : j.Formed sha clock v)
    (distinct : (fields.map (·.1)).Nodup) (distinct' : (others.map (·.1)).Nodup)
    (same : (Data.obj fields).Same (i.toDict v)) (same' : (Data.obj others).Same (j.toDict v))
    (name : Points) : ¬ Differ name fields others := by
  rintro ⟨rest, apart⟩
  obtain ⟨own, ownHash⟩ := Intent.holds_read formed distinct same
  obtain ⟨other, otherHash⟩ := Intent.holds_read formed' distinct' same'
  obtain ⟨h, sealed⟩ := Option.isSome_iff_exists.1 (formed.sealed.trans seals)
  obtain ⟨h', sealed'⟩ := Option.isSome_iff_exists.1 (formed'.sealed.trans seals)
  have value := (formed.recordHash h sealed).2
  have value' := (formed'.recordHash h' sealed').2
  have unsealed : i.unsealed = j.unsealed := by
    by_cases hashField : name = Points.ofString "record_hash"
    · -- everything that is hashed is as it was
      exact own.agree other formed.plain formed'.plain fun k different =>
        rest _ fun chosen => different (ofString_injective (chosen.trans hashField))
    · have hashes := (ownHash h sealed).symm.trans
        ((rest _ (Ne.symm hashField)).trans (otherHash h' sealed'))
      rw [Option.some.injEq, Data.str.injEq, value, value'] at hashes
      exact Intent.unsealed_of_hash collisionFree formed.plain formed'.plain hashes
  have record : i = j := Intent.eq_of_unsealed unsealed (by
    rw [sealed, sealed', value, value', ← i.expected_unsealed, unsealed, j.expected_unsealed])
  subst record
  exact apart ((Data.same_obj_iff distinct distinct').1 (same.trans same'.symm) name)

/-- No one field of a sealed checkpoint can be another. -/
theorem Checkpoint.not_differ (collisionFree : Function.Injective sha) {c d : Checkpoint}
    (seals : v.seals = true) (formed : c.Formed sha clock v) (formed' : d.Formed sha clock v)
    (distinct : (fields.map (·.1)).Nodup) (distinct' : (others.map (·.1)).Nodup)
    (same : (Data.obj fields).Same (c.toDict v)) (same' : (Data.obj others).Same (d.toDict v))
    (name : Points) : ¬ Differ name fields others := by
  rintro ⟨rest, apart⟩
  obtain ⟨own, ownHash⟩ := Checkpoint.holds_read distinct same
  obtain ⟨other, otherHash⟩ := Checkpoint.holds_read distinct' same'
  obtain ⟨h, sealed⟩ := Option.isSome_iff_exists.1 (formed.sealed.trans seals)
  obtain ⟨h', sealed'⟩ := Option.isSome_iff_exists.1 (formed'.sealed.trans seals)
  have value := (formed.recordHash h sealed).2
  have value' := (formed'.recordHash h' sealed').2
  have unsealed : c.unsealed = d.unsealed := by
    -- either the seal itself was changed, or something it covers
    by_cases hashField : name = Points.ofString "record_hash"
    · exact own.agree other formed formed' fun k different =>
        rest _ fun chosen => different (ofString_injective (chosen.trans hashField))
    · have hashes := (ownHash seals).symm.trans
        ((rest _ (Ne.symm hashField)).trans (otherHash seals))
      have texts := orNull_str_injective (Option.some.inj hashes)
      rw [sealed, sealed', Option.some.injEq, value, value'] at texts
      exact Checkpoint.unsealed_of_hash collisionFree formed formed' texts
  have record : c = d := Checkpoint.eq_of_unsealed unsealed (by
    rw [sealed, sealed', value, value', ← c.expected_unsealed, unsealed, d.expected_unsealed])
  subst record
  exact apart ((Data.same_obj_iff distinct distinct').1 (same.trans same'.symm) name)

end Changes

/-! ### States -/

section States

variable {Instant : Type} [LinearOrder Instant] {clock : WallClock Instant} {chunking : Chunking}

/-- One field of the prepared intent or of the completed checkpoint is another. -/
inductive FieldChanged : Data → Data → Prop where
  | field {fields others record changed : List Field} {member : String} {name : Points}
    (listed : member = "active" ∨ member = "completed")
    (kept : ∀ k ≠ Points.ofString member,
      (fieldAt k fields).map Data.sorted = (fieldAt k others).map Data.sorted)
    (before : fieldAt (Points.ofString member) fields = some (.obj record))
    (after : fieldAt (Points.ofString member) others = some (.obj changed))
    (differ : Differ name record changed) : FieldChanged (.obj fields) (.obj others)

/-- What an accepted document holds under the names of its records. -/
theorem State.records_at {fields : List Field} {s : State}
    (accepted : State.fromDict sha chunking clock (.obj fields) = .ok s) :
    (fieldAt (Points.ofString "schema_version") fields).map Data.sorted =
        some (textData s.schemaVersion.text).sorted ∧
      (fieldAt (Points.ofString "active") fields).map Data.sorted =
        some (orNull (s.active.map (·.toDict s.schemaVersion))).sorted ∧
      (fieldAt (Points.ofString "completed") fields).map Data.sorted =
        some (orNull (s.completed.map (·.toDict s.schemaVersion))).sorted := by
  obtain ⟨hashable, same, _⟩ := State.fromDict_ok_iff.1 accepted
  have each := ((same_record_iff (names_nodup hashable)
    (s.entries_names ▸ stateFields_nodup s.schemaVersion)).1 same).2
  rw [State.forall_entries] at each
  exact ⟨each.2.1, each.2.2.1, each.2.2.2.1⟩

private theorem record_of_same {α : Type} {write : α → Data} {value : Option α} {fields : List Field}
    (same : (Data.obj fields).sorted = (orNull (value.map write)).sorted) :
    ∃ a, value = some a ∧ (Data.obj fields).Same (write a) := by
  cases value with
  | none => simp [orNull, Data.sorted] at same
  | some a => exact ⟨a, rfl, same⟩

/-- A document with a changed field of a sealed record is not accepted. -/
theorem changed_rejected (collisionFree : Function.Injective sha) {raw changed : Data} {s t : State}
    (accepted : State.fromDict sha chunking clock raw = .ok s) (seals : s.schemaVersion.seals = true)
    (change : FieldChanged raw changed) : State.fromDict sha chunking clock changed ≠ .ok t := by
  intro accepted'
  obtain ⟨listed, kept, before, after, differ⟩ := change
  obtain ⟨versionAt, activeAt, completedAt⟩ := State.records_at accepted
  obtain ⟨versionAt', activeAt', completedAt'⟩ := State.records_at accepted'
  obtain ⟨hashable, _, formed⟩ := State.fromDict_ok_iff.1 accepted
  obtain ⟨hashable', _, formed'⟩ := State.fromDict_ok_iff.1 accepted'
  have inside := hashable.field ((fieldAt_eq_some_iff (names_nodup hashable)).1 before)
  have inside' := hashable'.field ((fieldAt_eq_some_iff (names_nodup hashable')).1 after)
  -- the version is not among the fields that may change
  have version : s.schemaVersion = t.schemaVersion := by
    have unchanged := kept (Points.ofString "schema_version") fun same => by
      rcases listed with rfl | rfl <;> exact absurd (ofString_injective same) (by decide)
    have texts := versionAt.symm.trans (unchanged.trans versionAt')
    exact Version.text_injective (Data.str.inj (Option.some.inj texts))
  rcases listed with rfl | rfl
  · rw [before, Option.map_some, Option.some.injEq] at activeAt
    rw [after, Option.map_some, Option.some.injEq, ← version] at activeAt'
    obtain ⟨i, active, same⟩ := record_of_same activeAt
    obtain ⟨j, active', same'⟩ := record_of_same activeAt'
    exact Intent.not_differ collisionFree seals (formed.active i active)
      (version ▸ formed'.active j active') (names_nodup inside) (names_nodup inside') same same' _ differ
  · rw [before, Option.map_some, Option.some.injEq] at completedAt
    rw [after, Option.map_some, Option.some.injEq, ← version] at completedAt'
    obtain ⟨c, completed, same⟩ := record_of_same completedAt
    obtain ⟨d, completed', same'⟩ := record_of_same completedAt'
    exact Checkpoint.not_differ collisionFree seals (formed.completed c completed)
      (version ▸ formed'.completed d completed') (names_nodup inside) (names_nodup inside') same same' _
        differ

/-- The intent that a linked checkpoint names. -/
def Checkpoint.intent (c : Checkpoint) : Intent where
  profileHash := c.profileHash
  generation := c.generation
  manifestHash := c.manifestHash
  preparedAt := c.preparedAt.getD []
  storeHashes := c.storeHashes
  priorCheckpointHash := c.priorCheckpointHash
  recordHash := c.intentRecordHash

theorem Intent.expected_links {i : Intent} {v : Version} (links : v.links = true) :
    i.expectedRecordHash sha v = i.expectedRecordHash sha .current := by
  rw [expectedRecordHash, expectedRecordHash, payload, payload, links]
  rfl

theorem Version.commits_of_links {v : Version} (links : v.links = true) : v.commitsIntent = true := by
  cases v <;> first | rfl | cases links

/-- What the checks of a link establish. -/
theorem Checkpoint.Formed.intent_of_link {c : Checkpoint} {v : Version} {h : Points}
    (formed : c.Formed sha clock v) (linked : c.intentRecordHash = some h) :
    c.intent.Plain .current ∧ c.intent.expectedRecordHash sha .current = h := by
  obtain ⟨_, expected⟩ := formed.intentRecordHash h linked
  unfold Checkpoint.expectedIntentRecordHash at expected
  split at expected
  next stamp prior stores stamped previous stored =>
    refine ⟨⟨unpaired_hash formed.profileHash, unpaired_hash formed.manifestHash, ?_, ?_,
      formed.storeHashes, ?_, fun s given => (formed.priorCheckpointHash s given).unpaired⟩, ?_⟩
    · rw [Checkpoint.intent, stamped]
      exact (formed.preparedAt stamp stamped).unpaired
    · rw [Checkpoint.intent, stored]
      rfl
    · rw [Checkpoint.intent, previous]
      rfl
    · rw [← Except.ok.inj expected, Checkpoint.intent, stamped, stored, previous]
      rfl
  · cases expected

/-- A checkpoint that names an intent names no other, in whatever document that stands. -/
theorem checkpoint_names_intent (collisionFree : Function.Injective sha) {raw other : Data} {s t : State}
    {c : Checkpoint} {i : Intent} {h : Points} (accepted : State.fromDict sha chunking clock raw = .ok s)
    (completed : s.completed = some c) (linked : c.intentRecordHash = some h)
    (accepted' : State.fromDict sha chunking clock other = .ok t) (active : t.active = some i)
    (named : i.recordHash = some h) : i = c.intent := by
  have formed := (State.fromDict_ok_iff.1 accepted).2.2.completed c completed
  have formed' := (State.fromDict_ok_iff.1 accepted').2.2.active i active
  obtain ⟨plain, expected⟩ := formed.intent_of_link linked
  have own := (formed'.recordHash h named).2
  have links := Intent.links_of_hash collisionFree formed'.plain plain (own.symm.trans expected.symm)
  rw [Intent.expected_links links] at own
  have plain' : i.Plain .current := { formed'.plain with
    commits := formed'.commits.trans (Version.commits_of_links links)
    linked := formed'.linked.trans links }
  have unsealed := Intent.unsealed_of_hash collisionFree plain' plain (own.symm.trans expected.symm)
  exact Intent.eq_of_unsealed unsealed (named.trans linked.symm)

theorem State.complete_ok {s u : State} {intent : Intent} {completedAt : Points}
    (done : s.complete sha chunking clock intent completedAt = .ok u) :
    ∃ expected, intent.expected sha chunking clock = .ok expected ∧
      u.completed = some (expected.checkpoint sha completedAt) := by
  simp only [State.complete, bind_ok_iff, pure_ok_iff] at done
  obtain ⟨expected, read, _, _, _, _, _, _, _, _, rfl⟩ := done
  exact ⟨expected, read, rfl⟩

/-- Completions of a linked checkpoint had the same intent. -/
theorem complete_determines {s t u w : State} {intent other : Intent} {at_ later : Points} {c : Checkpoint}
    (done : s.complete sha chunking clock intent at_ = .ok u)
    (done' : t.complete sha chunking clock other later = .ok w) (completed : u.completed = some c)
    (completed' : w.completed = some c) (linked : c.intentRecordHash ≠ none) :
    ∃ expected, intent.expected sha chunking clock = .ok expected ∧
      other.expected sha chunking clock = .ok expected := by
  obtain ⟨e, read, result⟩ := State.complete_ok done
  obtain ⟨f, read', result'⟩ := State.complete_ok done'
  obtain rfl := Option.some.inj (completed.symm.trans result)
  have same := Option.some.inj (completed'.symm.trans result')
  have previous : e.priorCheckpointHash ≠ none := by
    intro absent
    rw [Intent.checkpoint, Checkpoint.sealed] at linked
    simp [absent] at linked
  have record : e = f := by
    simp only [Intent.checkpoint, Checkpoint.sealed, Checkpoint.mk.injEq, if_pos previous] at same
    obtain ⟨profileHash, generation, manifestHash, _, stores, stamp, prior, hash, _⟩ := same
    rw [← prior, if_pos previous] at stamp hash
    obtain ⟨⟩ := e
    obtain ⟨⟩ := f
    simp only [Intent.mk.injEq]
    exact ⟨profileHash, generation, manifestHash, Option.some.inj stamp, stores, prior, hash⟩
  exact ⟨e, read, record ▸ read'⟩

end States
end Seals

/-! ### Records of version 0.4.0 -/

namespace Earlier

/-- A clock that knows two times of one day. -/
def clock : WallClock Bool where
  parse s := if s = Points.ofString "2026-01-05T08:00:00Z" then some (some false)
    else if s = Points.ofString "2026-01-05T09:00:00Z" then some (some true)
    else none
  utcNow t := if t then "2026-01-05T09:00:00Z" else "2026-01-05T08:00:00Z"
  horizon := id
  utcNow_short := by decide
  parse_utcNow := by decide
  parse_unpaired s t parsed := by
    split at parsed
    next first =>
      rw [first]
      exact unpaired_ofString _
    · split at parsed
      next second =>
        rw [second]
        exact unpaired_ofString _
      · cases parsed
  le_horizon _ := le_rfl
  horizon_mono _ _ order := order

def digestOf (c : Char) : Points := Points.ofString (String.ofList ("sha256:".toList ++ List.replicate 64 c))

def stores : StoreHashes := storeNames.map fun name =>
  (name, if name ∈ optionalStores then none else some (digestOf 'd'))

def intentAt (preparedAt : String) (hash : Points) : Intent :=
  ⟨digestOf 'e', 1, digestOf 'f', Points.ofString preparedAt, some stores, none, some hash⟩

def early : Intent := intentAt "2026-01-05T08:00:00Z" (digestOf 'a')

def late : Intent := intentAt "2026-01-05T09:00:00Z" (digestOf 'b')

def completion : Checkpoint where
  profileHash := digestOf 'e'
  generation := 1
  manifestHash := digestOf 'f'
  completedAt := Points.ofString "2026-01-05T09:00:00Z"
  storeHashes := some stores
  preparedAt := none
  priorCheckpointHash := none
  intentRecordHash := none
  recordHash := some (digestOf 'c')

def sealedText (kind : String) (payload : List (String × Data)) : List Char :=
  (Data.obj (record [("record_type", textData kind), ("record", .obj (record payload))])).canonical

def earlyText : List Char := sealedText "intent" (early.payload .recordSeal)

def lateText : List Char := sealedText "intent" (late.payload .recordSeal)

def completionText : List Char := sealedText "checkpoint" (completion.payload .current)

/-- Digests of one letter for some texts, and a mark on every other. -/
def digestWith (table : List (List Char × Char)) : TextHash := fun text =>
  match table.find? (·.1 == text) with
  | some e => String.ofList (List.replicate 64 e.2)
  | none => String.ofList ('h' :: text)

theorem digestWith_injective {table : List (List Char × Char)} (letters : (table.map (·.2)).Nodup)
    (unmarked : 'h' ∉ table.map (·.2)) : Function.Injective (digestWith table) := by
  have found_text {text : List Char} {e : List Char × Char}
      (found : table.find? (·.1 == text) = some e) : e ∈ table ∧ e.1 = text :=
    ⟨List.mem_of_find?_eq_some found, by simpa using List.find?_some found⟩
  intro x y same
  unfold digestWith at same
  split at same
  next e found =>
    obtain ⟨listed, rfl⟩ := found_text found
    split at same
    next f found' =>
      obtain ⟨listed', rfl⟩ := found_text found'
      have letter : e.2 = f.2 := Option.some.inj (congrArg List.head? (String.ofList_injective same))
      rw [List.inj_on_of_nodup_map letters listed listed' letter]
    next =>
      have letter : e.2 = 'h' := Option.some.inj (congrArg List.head? (String.ofList_injective same))
      exact absurd (List.mem_map.2 ⟨e, listed, letter⟩) unmarked
  next =>
    split at same
    next f found' =>
      have letter : 'h' = f.2 := Option.some.inj (congrArg List.head? (String.ofList_injective same))
      exact absurd (List.mem_map.2 ⟨f, (found_text found').1, letter.symm⟩) unmarked
    next => exact (List.cons.inj (String.ofList_injective same)).2

theorem digestWith_of_mem {table : List (List Char × Char)} (texts : (table.map (·.1)).Nodup)
    {e : List Char × Char} (listed : e ∈ table) :
    digestWith table e.1 = String.ofList (List.replicate 64 e.2) := by
  have found : table.find? (·.1 == e.1) = some e := by
    obtain ⟨f, found⟩ := Option.isSome_iff_exists.1
      (List.find?_isSome.2 ⟨e, listed, by simp⟩ : (table.find? (·.1 == e.1)).isSome)
    have name : f.1 = e.1 := by simpa using List.find?_some found
    rw [found, List.inj_on_of_nodup_map texts (List.mem_of_find?_eq_some found) listed name]
  rw [digestWith, found]

def sealed : List (List Char × Char) :=
  [(earlyText, 'a'), (lateText, 'b'), (completionText, 'c')]

def digests : TextHash := digestWith sealed

theorem digests_injective : Function.Injective digests :=
  digestWith_injective (by simp [sealed]) (by simp [sealed])

/-- The three texts differ in their lengths or in the hour. -/
theorem sealed_texts : (sealed.map (·.1)).Nodup := by
  decide +kernel

theorem fieldAt_replaced {a b : List (String × Data)} {n : String} {x y : Data} :
    ∀ k ≠ Points.ofString n, (fieldAt k (record (a ++ (n, x) :: b))).map Data.sorted =
      (fieldAt k (record (a ++ (n, y) :: b))).map Data.sorted := by
  intro k other
  have apart : (Points.ofString n == k) = false := by simpa using Ne.symm other
  simp only [record, List.map_append, List.map_cons, fieldAt, List.find?_append, List.find?_cons, apart]

theorem digest_sealed {e : List Char × Char} (listed : e ∈ sealed) :
    digestOf e.2 = Points.ofString ("sha256:" ++ digests e.1) := by
  rw [digests, digestWith_of_mem sealed_texts listed, digestOf, String.ofList_append]
  rfl

theorem stores_formed : stores.Formed := by
  refine ⟨rfl, ?_⟩
  rw [stores, List.forall_mem_map]
  simp only [HashFormed]
  decide

theorem intentAt_formed {preparedAt : String} {c : Char} (stamp : IsTimestamp clock (Points.ofString preparedAt))
    (digest : isHash (digestOf c) = true)
    (own : digestOf c = (intentAt preparedAt (digestOf c)).expectedRecordHash digests .recordSeal) :
    (intentAt preparedAt (digestOf c)).Formed digests clock .recordSeal where
  profileHash := (by decide : isHash (digestOf 'e') = true)
  generation := le_rfl
  manifestHash := (by decide : isHash (digestOf 'f') = true)
  preparedAt := stamp
  commits := rfl
  storeHashes := by
    rintro s ⟨⟩
    exact stores_formed
  linked := rfl
  priorCheckpointHash := by simp [intentAt]
  sealed := rfl
  recordHash := by
    rintro h ⟨⟩
    exact ⟨digest, own⟩

theorem early_formed : early.Formed digests clock .recordSeal :=
  intentAt_formed ⟨by decide, false, by decide⟩ (by decide)
    (digest_sealed (e := (earlyText, 'a')) (by simp [sealed]))

theorem late_formed : late.Formed digests clock .recordSeal :=
  intentAt_formed ⟨by decide, true, by decide⟩ (by decide)
    (digest_sealed (e := (lateText, 'b')) (by simp [sealed]))

theorem completion_formed : completion.Formed digests clock .current where
  profileHash := by decide
  generation := by decide
  manifestHash := by decide
  completedAt := ⟨by decide, true, by decide⟩
  commits := fun absent => absurd absent (by decide)
  storeHashes := by
    rintro s ⟨⟩
    exact stores_formed
  links := fun absent => absurd absent (by decide)
  preparedAt := by simp [completion]
  priorCheckpointHash := by simp [completion]
  intentRecordHash := by simp [completion]
  linked := ⟨rfl, rfl⟩
  sealed := rfl
  recordHash := by
    rintro h ⟨⟩
    exact ⟨by decide, digest_sealed (e := (completionText, 'c')) (by simp [sealed])⟩

/-- A state of version 0.4.0 that has been prepared. -/
def prepared (i : Intent) : State := ⟨some i, none, .recordSeal, none⟩

def completed : State := ⟨none, some completion, .current, some 0⟩

def within (x : Data) : Bool :=
  (authoritySnapshotAndSha256Of (fun _ => "") Chunking.single (.ofData x) (some maxStateBytes)).isOk

theorem hashable_of_within {x : Data} (small : within x = true) : Hashable maxStateBytes (.ofData x) := by
  rw [within] at small
  rcases read : authoritySnapshotAndSha256Of (fun _ => "") Chunking.single (.ofData x)
    (some maxStateBytes) with _ | ⟨snapshot, digest⟩
  · rw [read] at small
    cases small
  · exact ((authoritySnapshot_ok_iff (by decide) (by decide)).1 read).1

theorem all_within : (within (prepared early).toDict && within (prepared late).toDict &&
    within completed.toDict) = true := by
  decide +kernel

/-- The stored states are accepted, and either intent completes to the same one. -/
theorem intent_hashable {i : Intent} (small : within (prepared i).toDict = true) :
    Hashable maxStateBytes (.ofData (i.toDict .recordSeal)) :=
  (hashable_of_within small).field (f := (Points.ofString "active", i.toDict .recordSeal))
    (List.mem_map.2 ⟨("active", i.toDict .recordSeal), by simp [State.entries, prepared, orNull], rfl⟩)

theorem prepared_accepted {i : Intent} (small : within (prepared i).toDict = true)
    (formed : i.Formed digests clock .recordSeal) (required : (prepared i).require = .ok ()) :
    State.fromDict digests Chunking.single clock (prepared i).toDict = .ok (prepared i) := by
  refine State.fromDict_ok_iff.2 ⟨hashable_of_within small, rfl, ?_, ?_, rfl, ?_, required⟩
  · rintro j ⟨⟩
    exact formed
  · simp [prepared]
  · simp [prepared]

theorem completed_accepted : State.fromDict digests Chunking.single clock completed.toDict =
    .ok completed := by
  refine State.fromDict_ok_iff.2 ⟨hashable_of_within (Bool.and_eq_true_iff.1 all_within).2, rfl, ?_, ?_,
    rfl, ?_, by decide +kernel⟩
  · simp [completed]
  · rintro c ⟨⟩
    exact completion_formed
  · simp [completed]

theorem intent_expected {i : Intent} {preparedAt : String} {hash : Points}
    (shape : i = intentAt preparedAt hash) (small : within (prepared i).toDict = true)
    (formed : i.Formed digests clock .recordSeal) :
    i.expected digests Chunking.single clock = .ok i := by
  subst shape
  exact Intent.fromDict_ok_iff.2 ⟨intent_hashable small, rfl, formed⟩

theorem prepared_completes {i : Intent} {preparedAt : String} {hash : Points}
    (shape : i = intentAt preparedAt hash)
    (small : within (prepared i).toDict = true) (formed : i.Formed digests clock .recordSeal) :
    (prepared i).complete digests Chunking.single clock i (Points.ofString "2026-01-05T09:00:00Z") =
      .ok completed := by
  subst shape
  have expected := intent_expected rfl small formed
  have sealing : digestOf 'c' = completion.expectedRecordHash digests .current :=
    digest_sealed (e := (completionText, 'c')) (by simp [sealed])
  have checkpoint : (intentAt preparedAt hash).checkpoint digests (Points.ofString "2026-01-05T09:00:00Z") =
      completion := by
    calc (intentAt preparedAt hash).checkpoint digests (Points.ofString "2026-01-05T09:00:00Z")
        = { completion with recordHash := some (completion.expectedRecordHash digests .current) } := rfl
      _ = completion := by rw [← sealing]; rfl
  have unlinked : completion.priorCheckpointHash = none := rfl
  have written : completed.written digests Chunking.single clock = .ok completed.toDict := by
    rw [State.written, completed_accepted]
    rfl
  simp only [State.complete, bind_ok_iff, orRefuse_ok_iff, refuseIf_ok_iff, pure_ok_iff]
  refine ⟨_, expected, _, rfl, (), by simp, (), by simp [intentAt], ?_⟩
  rw [checkpoint, unlinked]
  exact ⟨_, written, rfl⟩

end Earlier

/-- Publication records are read as they are written, a changed field of a sealed record is noticed,
and a checkpoint that links to its intent determines it. -/
theorem publication_records_bound {Instant : Type} [LinearOrder Instant] {sha : TextHash}
    (collisionFree : Function.Injective sha) (chunking : Chunking) (clock : WallClock Instant) :
    (∀ raw s, State.fromDict sha chunking clock raw = .ok s →
      State.fromDict sha chunking clock s.toDict = .ok s) ∧
    (∀ raw s, State.fromDict sha chunking clock raw = .ok s → s.toDict.Same raw) ∧
    (∀ raw changed s, State.fromDict sha chunking clock raw = .ok s → s.schemaVersion.seals = true →
      FieldChanged raw changed → ∃ e, State.fromDict sha chunking clock changed = .error e) ∧
    (∀ raw other s t c i h, State.fromDict sha chunking clock raw = .ok s → s.completed = some c →
      c.intentRecordHash = some h → State.fromDict sha chunking clock other = .ok t →
        t.active = some i → i.recordHash = some h → i = c.intent) ∧
    ∀ (s t u w : State) intent other time later c,
      s.complete sha chunking clock intent time = .ok u →
        t.complete sha chunking clock other later = .ok w → u.completed = some c →
          w.completed = some c → c.intentRecordHash ≠ none →
            ∃ expected, intent.expected sha chunking clock = .ok expected ∧
              other.expected sha chunking clock = .ok expected := by
  refine ⟨?_, ?_, ?_, ?_, ?_⟩
  · intro raw s accepted
    obtain ⟨hashable, same, formed⟩ := State.fromDict_ok_iff.1 accepted
    exact State.fromDict_ok_iff.2 ⟨hashable.of_same same, rfl, formed⟩
  · intro raw s accepted
    exact (State.fromDict_ok_iff.1 accepted).2.1.symm
  · intro raw changed s accepted seals change
    rcases read : State.fromDict sha chunking clock changed with e | t
    · exact ⟨e, rfl⟩
    · exact absurd read (changed_rejected collisionFree accepted seals change)
  · intro raw other s t c i h accepted completed linked accepted' active named
    exact checkpoint_names_intent collisionFree accepted completed linked accepted' active named
  · intro s t u w intent other time later c done done' completed completed' linked
    exact complete_determines done done' completed completed' linked

namespace Earlier

/-- The stored document of a prepared state is not accepted with the hour of its intent changed. -/
theorem publication_records_bound_early :
    State.fromDict digests Chunking.single clock (prepared early).toDict = .ok (prepared early) ∧
      ∃ e, State.fromDict digests Chunking.single clock
        (prepared { early with preparedAt := late.preparedAt }).toDict = .error e := by
  have accepted := prepared_accepted (Bool.and_eq_true_iff.1 (Bool.and_eq_true_iff.1 all_within).1).1
    early_formed (by decide +kernel)
  obtain ⟨again, _, rejects, _⟩ := publication_records_bound digests_injective Chunking.single clock
  refine ⟨again _ _ accepted, rejects _ _ _ accepted rfl ?_⟩
  have kept : ∀ k ≠ Points.ofString "active",
      (fieldAt k (record (prepared early).entries)).map Data.sorted =
        (fieldAt k (record (prepared { early with preparedAt := late.preparedAt }).entries)).map
          Data.sorted :=
    fieldAt_replaced (a := [("schema_name", _), ("schema_version", _)]) (b := [("completed", .null)])
  have differ : Differ (Points.ofString "prepared_at") (record (early.entries .recordSeal))
      (record (Intent.entries { early with preparedAt := late.preparedAt } .recordSeal)) :=
    ⟨fieldAt_replaced (a := [("profile_hash", _), ("generation", _), ("manifest_hash", _)])
      (b := [("store_hashes", _), ("record_hash", _)]), fun same =>
      absurd (Data.str.inj (Option.some.inj same)) (by decide)⟩
  exact .field (.inl rfl) kept rfl rfl differ

/-- Two intents of version 0.4.0 are completed by one and the same checkpoint. -/
theorem unlinked_checkpoint_ambiguous :
    ¬ ∀ (sha : TextHash), Function.Injective sha → ∀ (s t u w : State) intent other time c,
      State.fromDict sha Chunking.single clock s.toDict = .ok s →
        State.fromDict sha Chunking.single clock t.toDict = .ok t →
          s.complete sha Chunking.single clock intent time = .ok u →
            t.complete sha Chunking.single clock other time = .ok w → u.completed = some c →
              w.completed = some c → ∃ expected,
                intent.expected sha Chunking.single clock = .ok expected ∧
                  other.expected sha Chunking.single clock = .ok expected := by
  intro determines
  obtain ⟨both, _⟩ := Bool.and_eq_true_iff.1 all_within
  obtain ⟨smallEarly, smallLate⟩ := Bool.and_eq_true_iff.1 both
  obtain ⟨expected, read, read'⟩ := determines digests digests_injective (prepared early) (prepared late)
    completed completed early late (Points.ofString "2026-01-05T09:00:00Z") completion
    (prepared_accepted smallEarly early_formed (by decide +kernel))
    (prepared_accepted smallLate late_formed (by decide +kernel))
    (prepared_completes rfl smallEarly early_formed) (prepared_completes rfl smallLate late_formed)
    rfl rfl
  -- the two intents differ in a digest that the older checkpoint does not name
  have own : early.expected digests Chunking.single clock = .ok early :=
    intent_expected rfl smallEarly early_formed
  have other : late.expected digests Chunking.single clock = .ok late :=
    intent_expected rfl smallLate late_formed
  have same : early = late :=
    (Except.ok.inj (own.symm.trans read)).trans (Except.ok.inj (other.symm.trans read')).symm
  exact absurd same (by decide)

end Earlier

end AuthorityPublication
end DefiantHarness
