import DefiantHarness.BundleHashes
import DefiantHarness.LaunchEnvelope

/-! What a launch envelope passes on: the operator's names, the parent's values, and a hash of the
manifest. -/
namespace DefiantHarness

open Foundation Points

namespace LaunchEnvelope

open TrustState (isHash strip record textData)
open RuntimeArtifacts (Sha256)

/-! ### What construction checks -/

section Config

variable {tables : TextTables}

theorem checkName_ok_iff {field : String} {value name : Points} :
    checkName field value = .ok name ↔
      name = value ∧ value ≠ [] ∧ value = strip value ∧ equalsSign ∉ value ∧ nul ∉ value := by
  simp only [checkName, refuseIf_bind_ok_iff, pure_ok_iff, not_or, not_not]
  tauto

theorem checkValue_ok_iff {field value checked : Points} :
    checkValue field value = .ok checked ↔ checked = value ∧ nul ∉ value := by
  simp only [checkValue, refuseIf_bind_ok_iff, pure_ok_iff]
  tauto

/-- What holds of the fields of every configuration. -/
structure WellConfigured (tables : TextTables) (f : LaunchFields) : Prop where
  names : (f.names.map tables.casefold).Nodup
  allowed : (f.allowUnsafe.map tables.casefold).Nodup
  configured : ∀ name ∈ f.allowUnsafe, tables.casefold name ∈ f.names.map tables.casefold
  sensitive : ∀ name ∈ f.allowUnsafe, tables.upper name ∈ unsafeEnvironmentVariables

private theorem checkAllowed_ok_iff {names : List Points} {name : Points} :
    checkAllowed tables names name = .ok () ↔ tables.casefold name ∈ names.map tables.casefold ∧
      tables.upper name ∈ unsafeEnvironmentVariables := by
  simp only [checkAllowed, refuseIf_bind_ok_iff, refuseIf_ok_iff, not_not]

private theorem names_perm {names secrets : List Points} {values : List (Points × Points)} :
    (sortedByFold tables names ++ sortedByFold tables secrets ++
      (values.insertionSort fun a b => tables.casefold a.1 ≤ tables.casefold b.1).map (·.1)).Perm
        (names ++ secrets ++ values.map (·.1)) :=
  ((List.perm_insertionSort _ _).append (List.perm_insertionSort _ _)).append
    ((List.perm_insertionSort _ _).map _)

theorem wellConfigured_of_postInit {given f : LaunchFields} (built : given.postInit tables = .ok f) :
    WellConfigured tables f := by
  simp only [LaunchFields.postInit, bind_ok_iff, refuseIf_ok_iff, pure_ok_iff, checkAll_ok_iff,
    checkAllowed_ok_iff, not_not] at built
  obtain ⟨inherited, -, secrets, -, values, -, allowed, -, _, distinct, _, distinct', _, each, rfl⟩ := built
  have perm := (@names_perm tables inherited secrets values).map tables.casefold
  have listed : ∀ name, name ∈ sortedByFold tables allowed ↔ name ∈ allowed := fun name =>
    List.mem_insertionSort fun a b => tables.casefold a ≤ tables.casefold b
  refine ⟨perm.nodup_iff.2 distinct, ?_, fun name member => ?_, fun name member => ?_⟩
  · exact ((List.perm_insertionSort _ _).map tables.casefold).nodup_iff.2 distinct'
  · exact perm.mem_iff.2 (each name ((listed name).1 member)).1
  · exact (each name ((listed name).1 member)).2

theorem LaunchEnvironmentConfig.wellConfigured (config : LaunchEnvironmentConfig tables) :
    WellConfigured tables config.fields := by
  obtain ⟨given, built⟩ := config.built
  exact wellConfigured_of_postInit built

end Config

/-! ### The loops -/

section Loops

variable {tables : TextTables} {parent : ParentEnvironment}

/-- Of the parent's variables that differ from this name in case only, the last one has this value. -/
def Last (tables : TextTables) (parent : ParentEnvironment) (name value : Points) : Prop :=
  ∃ before other after, parent.source.entries = before ++ ⟨other, value⟩ :: after ∧
    tables.casefold other = tables.casefold name ∧
      ∀ e ∈ after, tables.casefold e.1 ≠ tables.casefold name

/-- The value that a name inherits. -/
def inheritedValue (tables : TextTables) (parent : ParentEnvironment) (name : Points) : Option Points :=
  ((byFolded tables parent).lookup (tables.casefold name)).map (·.2)

theorem inheritedValue_eq_some_iff {name value : Points} :
    inheritedValue tables parent name = some value ↔ Last tables parent name value := by
  simp only [inheritedValue, byFolded, Option.map_eq_some_iff, Prod.exists, Dict.lookup_foldl_set,
    exists_eq_right]
  constructor
  · rintro ⟨other, ⟨before, e, after, split, same, held, apart⟩ | ⟨-, none⟩⟩
    · obtain ⟨rfl, rfl⟩ := Prod.mk.inj held
      exact ⟨before, e.1, after, split, same, apart⟩
    · cases none
  · rintro ⟨before, other, after, split, same, apart⟩
    exact ⟨other, .inl ⟨before, ⟨other, value⟩, after, split, same, rfl, apart⟩⟩

/-- The manifest of names with these values. -/
def declared (f : LaunchFields) (look : Points → Option Points) : List Observation :=
  f.inherit.map (fun name => ⟨name, .inherit, look name⟩) ++
    f.secretEnv.map (fun name => ⟨name, .secretEnv, none⟩) ++
      f.values.map fun entry => ⟨entry.1, .set, some entry.2⟩

/-- What the first loop notes of a name. -/
def observed (tables : TextTables) (f : LaunchFields) (look : Points → Option Points) (name : Points) :
    Observation :=
  if tables.casefold name ∈ f.secretEnv.map tables.casefold then ⟨name, .secretEnv, none⟩
  else ⟨name, .inherit, look name⟩

private theorem inheritVariable_ok {f : LaunchFields} {s s' : EnvelopeParts} {name : Points}
    (passed : inheritVariable tables f (byFolded tables parent) s name = .ok s') :
    ∃ value, inheritedValue tables parent name = some value ∧
      s' = ⟨s.effective.set name value,
        s.observations ++ [observed tables f (inheritedValue tables parent) name]⟩ := by
  simp only [inheritVariable, bind_ok_iff, orRefuse_ok_iff, checkValue_ok_iff, refuseIf_ok_iff,
    pure_ok_iff] at passed
  obtain ⟨found, here, _, ⟨rfl, -⟩, -, -, rfl⟩ := passed
  have value : inheritedValue tables parent name = some found.2 := by rw [inheritedValue, here]; rfl
  refine ⟨found.2, value, ?_⟩
  rw [observed, value]
  by_cases secret : tables.casefold name ∈ f.secretEnv.map tables.casefold <;> simp [secret]

/-- The names that are inherited, one after the other. -/
private theorem inheritVariables_ok {f : LaunchFields} {names : List Points} {s s' : EnvelopeParts}
    (passed : names.foldlM (inheritVariable tables f (byFolded tables parent)) s = .ok s') :
    (∀ name ∈ names, (inheritedValue tables parent name).isSome) ∧
      s'.observations = s.observations ++ names.map (observed tables f (inheritedValue tables parent)) ∧
        ∀ name, s'.effective.lookup name =
          if name ∈ names then inheritedValue tables parent name else s.effective.lookup name := by
  induction names generalizing s with
  | nil =>
    obtain rfl := pure_ok_iff.1 passed
    simp
  | cons first names ih =>
    rw [List.foldlM_cons, bind_ok_iff] at passed
    obtain ⟨_, head, rest⟩ := passed
    obtain ⟨value, found, rfl⟩ := inheritVariable_ok head
    obtain ⟨each, notes, lookups⟩ := ih rest
    refine ⟨List.forall_mem_cons.2 ⟨by rw [found]; rfl, each⟩, ?_, fun name => ?_⟩
    · rw [notes, List.map_cons, List.append_assoc]
      rfl
    -- a name inherited twice gets the same value both times
    · rw [lookups name]
      by_cases later : name ∈ names
      · rw [if_pos later, if_pos (List.mem_cons_of_mem _ later)]
      · rw [if_neg later]
        by_cases same : name = first
        · rw [same, if_pos List.mem_cons_self, Dict.lookup_set, found]
        · rw [if_neg (by simp [same, later]), Dict.lookup_set_ne same]

private theorem setVariables_eq (values : List (Points × Points)) (s : EnvelopeParts) :
    values.foldl setVariable s = ⟨values.foldl (fun d e => d.set e.1 e.2) s.effective,
      s.observations ++ values.map fun e => ⟨e.1, .set, some e.2⟩⟩ := by
  induction values generalizing s with
  | nil => simp
  | cons e values ih =>
    rw [List.foldl_cons, ih, setVariable, List.foldl_cons, List.map_cons, List.append_assoc]
    rfl

private theorem setVariables_lookup {values : List (Points × Points)} {d : Dict Points Points}
    (distinct : (values.map (·.1)).Nodup) {name value : Points} :
    (values.foldl (fun d e => d.set e.1 e.2) d).lookup name = some value ↔
      (name, value) ∈ values ∨ name ∉ values.map (·.1) ∧ d.lookup name = some value := by
  rw [Dict.lookup_foldl_set]
  refine or_congr ?_ (and_congr_left fun _ => ?_)
  · constructor
    · rintro ⟨before, e, after, rfl, rfl, rfl, -⟩
      simp
    · intro member
      obtain ⟨before, after, rfl⟩ := List.append_of_mem member
      refine ⟨before, _, after, rfl, rfl, rfl, fun other later same => ?_⟩
      rw [List.map_append, List.map_cons, List.nodup_append, List.nodup_cons] at distinct
      exact distinct.2.1.1 (List.mem_map.2 ⟨other, later, same⟩)
  · simp only [List.mem_map, not_exists, not_and]

/-- The variables that a restricted child gets. -/
structure Passed (tables : TextTables) (f : LaunchFields) (parent : ParentEnvironment)
    (environment : Dict Points Points) : Prop where
  names : ∀ name, name ∈ environment ↔ name ∈ f.names
  inherited : ∀ name ∈ f.inherit ++ f.secretEnv,
    (inheritedValue tables parent name).isSome ∧
      environment.lookup name = inheritedValue tables parent name
  literals : ∀ e ∈ f.values, environment.lookup e.1 = some e.2
  acknowledged : ∀ name ∈ f.names, tables.upper name ∈ unsafeEnvironmentVariables →
    tables.casefold name ∈ f.allowUnsafe.map tables.casefold

/-- Names of different sources differ even in their case-folded form. -/
private theorem sources_apart {f : LaunchFields} (well : WellConfigured tables f) :
    (f.values.map (·.1)).Nodup ∧ (∀ name ∈ f.inherit ++ f.secretEnv, name ∉ f.values.map (·.1)) ∧
      ∀ name ∈ f.inherit, tables.casefold name ∉ f.secretEnv.map tables.casefold := by
  have distinct := well.names
  rw [LaunchFields.names, List.map_append, List.map_append, List.nodup_append, List.nodup_append] at distinct
  obtain ⟨⟨-, -, secrets⟩, values, apart⟩ := distinct
  refine ⟨values.of_map, fun name member inside => ?_, fun name member inside => ?_⟩
  · rw [← List.map_append] at apart
    exact apart _ (List.mem_map_of_mem member) _ (List.mem_map_of_mem inside) rfl
  · exact secrets _ (List.mem_map_of_mem member) _ inside rfl

private theorem passed_of_loops {f : LaunchFields} (well : WellConfigured tables f) {s : EnvelopeParts}
    (loop : (f.inherit ++ f.secretEnv).foldlM (inheritVariable tables f (byFolded tables parent))
      ⟨∅, []⟩ = .ok s)
    (acknowledged : unapproved tables f ((unsafeAmong tables
      (f.values.foldl setVariable s).effective.keys).insertionSort (· ≤ ·)) = []) :
    Passed tables f parent (f.values.foldl setVariable s).effective ∧
      (f.values.foldl setVariable s).observations = declared f (inheritedValue tables parent) := by
  obtain ⟨each, notes, lookups⟩ := inheritVariables_ok loop
  obtain ⟨distinct, apart, plain⟩ := sources_apart well
  rw [setVariables_eq] at acknowledged ⊢
  have look {name value : Points} := @setVariables_lookup f.values s.effective distinct name value
  -- the effective names are those declared, since the loop fails on a name it does not find
  have names : ∀ name, name ∈ (f.values.foldl (fun d e => d.set e.1 e.2) s.effective) ↔
      name ∈ f.names := by
    intro name
    rw [← AList.lookup_isSome, Option.isSome_iff_exists, LaunchFields.names, List.mem_append]
    simp only [look, lookups]
    constructor
    · rintro ⟨value, literal | ⟨-, held⟩⟩
      · exact .inr (List.mem_map.2 ⟨_, literal, rfl⟩)
      · by_cases member : name ∈ f.inherit ++ f.secretEnv
        · exact .inl member
        · rw [if_neg member] at held
          cases held
    · rintro (member | member)
      · obtain ⟨value, held⟩ := Option.isSome_iff_exists.1 (each name member)
        exact ⟨value, .inr ⟨apart name member, by rw [if_pos member, held]⟩⟩
      · obtain ⟨e, listed, rfl⟩ := List.mem_map.1 member
        exact ⟨e.2, .inl listed⟩
  refine ⟨⟨names, fun name member => ⟨each name member, ?_⟩, fun e member => look.2 (.inl member), ?_⟩, ?_⟩
  · obtain ⟨value, held⟩ := Option.isSome_iff_exists.1 (each name member)
    rw [held, look, lookups name, if_pos member, held]
    exact .inr ⟨apart name member, rfl⟩
  · intro name member dangerous
    by_contra absent
    have listed : name ∈ unapproved tables f ((unsafeAmong tables
        (f.values.foldl (fun d e => d.set e.1 e.2) s.effective).keys).insertionSort (· ≤ ·)) := by
      rw [unapproved, List.mem_filter, List.mem_insertionSort, unsafeAmong, List.mem_filter]
      exact ⟨⟨(names name).2 member, decide_eq_true dangerous⟩, decide_eq_true absent⟩
    rw [acknowledged] at listed
    cases listed
  · dsimp only
    rw [notes, List.nil_append, List.map_append, declared]
    congr 2
    · refine List.map_congr_left fun name member => ?_
      rw [observed, if_neg (plain name member)]
    · refine List.map_congr_left fun name member => ?_
      rw [observed, if_pos (List.mem_map_of_mem member)]

end Loops

/-! ### A successful call -/

/-- Where and from what a server is launched. -/
structure Launch (tables : TextTables) where
  host : Host
  identity : List Points → Int × Int
  stateRoot : FilePath
  cwd : Option Points
  parent : ParentEnvironment

namespace Launch

variable {tables : TextTables} (launch : Launch tables) (sha : Sha256)

def build (config : Option (LaunchEnvironmentConfig tables)) : Except Points LaunchEnvelopeAssurance :=
  buildLaunchEnvelope tables sha launch.host launch.identity launch.stateRoot config launch.cwd
    launch.parent

end Launch

section Build

variable {tables : TextTables} {launch : Launch tables} {sha : Sha256}

theorem checkEffective_ok_iff {folded : List Points} {entries : List (Sigma fun _ : Points => Points)} :
    checkEffective tables folded entries = .ok () ↔
      (∀ e ∈ entries, e.1 ≠ [] ∧ e.1 = strip e.1 ∧ (equalsSign ∉ e.1 ∧ nul ∉ e.1) ∧ nul ∉ e.2) ∧
        (entries.map fun e => tables.casefold e.1).Nodup ∧
          ∀ e ∈ entries, tables.casefold e.1 ∉ folded := by
  induction entries generalizing folded with
  | nil => simp [checkEffective]
  | cons e entries ih =>
    rw [List.forall_mem_cons, List.forall_mem_cons, List.map_cons, List.nodup_cons]
    simp only [checkEffective, bind_ok_iff, checkName_ok_iff, checkValue_ok_iff, refuseIf_ok_iff, ih,
      List.mem_map, List.mem_cons, not_or, not_exists, not_and]
    constructor
    · rintro ⟨_, ⟨rfl, some, trimmed, equals, whole⟩, _, ⟨rfl, plain⟩, _, fresh, each, distinct, apart⟩
      refine ⟨⟨⟨some, trimmed, ⟨equals, whole⟩, plain⟩, each⟩, ⟨fun other member => ?_, distinct⟩, fresh,
        fun other member => (apart other member).2⟩
      exact (apart other member).1
    · rintro ⟨⟨⟨some, trimmed, ⟨equals, whole⟩, plain⟩, each⟩, ⟨first, distinct⟩, fresh, apart⟩
      exact ⟨e.1, ⟨rfl, some, trimmed, equals, whole⟩, e.2, ⟨rfl, plain⟩, (), fresh, each, distinct,
        fun other member => ⟨first other member, apart other member⟩⟩

private theorem checked_eq {a b : LaunchEnvelopeAssurance} (passed : a.checked tables = .ok b) : b = a := by
  rw [LaunchEnvelopeAssurance.checked] at passed
  simp only [refuseIf_bind_ok_iff] at passed
  obtain ⟨-, -, -, passed⟩ := passed
  split at passed
  · exact pure_ok_iff.1 (refuseIf_bind_ok_iff.1 passed).2
  · simp only [bind_ok_iff, pure_ok_iff] at passed
    obtain ⟨_, -, _, -, _, -, _, -, _, -, _, -, _, -, _, -, same⟩ := passed
    exact same

/-- What a restricted call returns. -/
theorem build_restricted {config : LaunchEnvironmentConfig tables} {a : LaunchEnvelopeAssurance}
    (built : launch.build sha (some config) = .ok a) : ∃ environment,
      a.environment = some environment ∧ Passed tables config.fields launch.parent environment ∧
        a.environmentHash = some (sha.of (manifest tables sha
          (declared config.fields (inheritedValue tables launch.parent)))) := by
  rw [Launch.build, buildLaunchEnvelope, bind_ok_iff] at built
  obtain ⟨resolved, -, built⟩ := built
  simp only [bind_ok_iff, refuseIf_ok_iff, not_not] at built
  obtain ⟨s, loop, _, acknowledged, checked⟩ := built
  obtain rfl := checked_eq checked
  obtain ⟨passed, notes⟩ := passed_of_loops config.wellConfigured loop acknowledged
  exact ⟨_, rfl, passed, by rw [notes]⟩

private theorem checked_unrestricted_iff {environment : Dict Points Points} {hash : Points}
    {resolved : List Points} {node : Int × Int} {a : LaunchEnvelopeAssurance} (formed : isHash hash = true) :
    LaunchEnvelopeAssurance.checked tables ⟨.inheritedUnrestricted, none, environment.entries.length, 0,
        (unsafeAmong tables environment.keys).length, some hash, some environment, some resolved,
        some node⟩ = .ok a ↔
      checkEffective tables [] environment.entries = .ok () ∧
        a = ⟨.inheritedUnrestricted, none, environment.entries.length, 0,
          (unsafeAmong tables environment.keys).length, some hash, some environment, some resolved,
          some node⟩ := by
  have count : ¬ environment.entries.length < (unsafeAmong tables environment.keys).length := by
    rw [not_lt]
    exact (List.length_filter_le _ _).trans_eq (List.length_map _)
  have hashed : ¬ ∃ digest ∈ some hash, isHash digest = false := by simp [formed]
  have unhashed : ¬ ∃ digest ∈ (none : Option Points), isHash digest = false := by simp
  simp only [LaunchEnvelopeAssurance.checked, refuseIf_of_not unhashed, refuseIf_of_not hashed, ok_bind,
    reduceCtorEq, if_false, orRefuse, count, Nat.not_lt_zero, or_self, not_false_eq_true, false_and,
    ne_eq, not_true_eq_false, and_false, unit_bind_ok_iff, pure_ok_iff, refuseIf_ok_iff, true_and]

/-- Without a configuration, a call that finds its working directory checks the parent's variables. -/
theorem build_unrestricted {resolved : List Points}
    (located : resolveCwd launch.host launch.stateRoot launch.cwd false = .ok resolved) :
    (∃ a, launch.build sha none = .ok a ∧ a.environment = some launch.parent.source) ↔
      checkEffective tables [] launch.parent.source.entries = .ok () := by
  have formed : isHash (RuntimeArtifacts.pathHash sha resolved) = true := sha.text_formed _
  rw [Launch.build, buildLaunchEnvelope, Option.isSome_none, located, ok_bind]
  simp only [checked_unrestricted_iff formed]
  constructor
  · rintro ⟨a, ⟨checked, -⟩, -⟩
    exact checked
  · intro checked
    exact ⟨_, ⟨checked, rfl⟩, rfl⟩

end Build

/-! ### The hash of the manifest -/

section Hash

variable {tables : TextTables} {sha : Sha256}

/-- Every character outside the basic plane as one code point. -/
def spelled (s : Points) : Points := CodeUnit.join s.units

def Observation.spelled (o : Observation) : Observation :=
  ⟨LaunchEnvelope.spelled o.name, o.source, o.value.map LaunchEnvelope.spelled⟩

/-- The manifest in the order of the case-folded names. -/
def arranged (tables : TextTables) (observations : List Observation) : List Observation :=
  observations.insertionSort fun a b => tables.casefold a.name ≤ tables.casefold b.name

theorem spelled_spelled (s : Points) : spelled (spelled s) = spelled s := join_units (unpaired_join _)

private theorem hash_spelled (s : Points) : sha.of (.str (spelled s)) = sha.of (.str s) := by
  have text : (Data.str (spelled s)).canonical = (Data.str s).canonical := by
    rw [Data.canonical_eq_iff]
    exact congrArg Data.str (spelled_spelled s)
  rw [Sha256.of, TrustState.sha256Of, text]
  rfl

/-- A record whose names are in order is sorted inside only. -/
private theorem sorted_record {entries : List (String × Data)}
    (ordered : (record entries).Pairwise Data.byName) :
    (Data.obj (record entries)).sorted = .obj (record (entries.map fun e => (e.1, e.2.sorted))) := by
  have fields : Data.sortedFields (record entries) = record (entries.map fun e => (e.1, e.2.sorted)) := by
    rw [Data.sortedFields_eq, record, record, List.map_map, List.map_map]
    rfl
  rw [Data.sorted, fields, Data.obj.injEq]
  refine List.Pairwise.insertionSort_eq ?_
  rw [← fields, Data.sortedFields_eq, List.pairwise_map]
  exact ordered

private theorem manifest_names_ordered {x y z : Data} :
    (record [("name", x), ("source", y), ("value_hash", z)]).Pairwise Data.byName := by
  have first : ofString "name" ≤ ofString "source" := by decide
  have second : ofString "name" ≤ ofString "value_hash" := by decide
  have third : ofString "source" ≤ ofString "value_hash" := by decide
  simp only [record, List.map_cons, List.map_nil, List.pairwise_cons, List.forall_mem_cons]
  exact ⟨⟨first, second, List.forall_mem_nil _⟩, ⟨third, List.forall_mem_nil _⟩, List.forall_mem_nil _, .nil⟩

private theorem joined_name (s : String) : CodeUnit.join (ofString s).units = ofString s := join_ofString s

private theorem joined_hash (x : Data) : CodeUnit.join (sha.of x).units = sha.of x :=
  join_units (TrustState.unpaired_ascii (TrustState.isHash_ascii (sha.text_formed x.canonical)))

/-- The hashed form of an observation keeps everything but the spelling. -/
private theorem joined_toDict (o : Observation) :
    (o.toDict sha).sorted.joined = o.spelled.toDict sha := by
  have value : ((o.value.map fun v => Data.str (sha.of (.str v))).getD .null).sorted.joined =
      ((o.value.map spelled).map fun v => Data.str (sha.of (.str v))).getD .null := by
    cases o.value with
    | none => rfl
    | some v =>
      rw [Option.map_some, Option.getD_some, Option.map_some, Option.map_some, Option.getD_some,
        Data.sorted, Data.joined, joined_hash, hash_spelled]
  rw [Observation.toDict, sorted_record manifest_names_ordered]
  simp only [record, List.map_cons, List.map_nil, Data.joined, Data.joinedFields, joined_name, value]
  rw [textData, Data.sorted, Data.sorted, Data.joined, Data.joined, joined_name]
  rfl

private theorem manifest_canonical_iff {observations others : List Observation} :
    (manifest tables sha observations).canonical = (manifest tables sha others).canonical ↔
      (arranged tables observations).map (fun o => o.spelled.toDict sha) =
        (arranged tables others).map fun o => o.spelled.toDict sha := by
  rw [Data.canonical_eq_iff, manifest, manifest, Data.sorted, Data.sorted, Data.joined, Data.joined,
    Data.arr.injEq, Data.sortedItems_eq, Data.sortedItems_eq, Data.joinedItems_eq, Data.joinedItems_eq]
  simp only [List.map_map, Function.comp_def, joined_toDict]
  rfl

/-- The texts that are hashed of a manifest: its values that are no secrets, and itself. -/
def hashedTexts (tables : TextTables) (sha : Sha256) (observations : List Observation) : Set (List Char) :=
  {text | text = (manifest tables sha observations).canonical ∨
    ∃ o ∈ observations, ∃ v ∈ o.value, text = (Data.str v).canonical}

variable {observations others : List Observation}

private theorem digest_inj {x y : Data} {texts : Set (List Char)} (free : Set.InjOn sha.text texts)
    (left : x.canonical ∈ texts) (right : y.canonical ∈ texts) (same : sha.of x = sha.of y) :
    x.canonical = y.canonical := by
  have digests := congrArg String.toList (ofString_injective same)
  rw [String.toList_append, String.toList_append, List.append_cancel_left_eq] at digests
  exact free left right (String.toList_injective digests)

private theorem source_text_injective {s t : Source} (same : s.text = t.text) : s = t := by
  cases s <;> cases t <;> first | rfl | exact absurd same (by decide)

/-- Lines of two manifests are hashed alike only where they differ in spelling at most. -/
private theorem spelled_of_toDict
    (free : Set.InjOn sha.text (hashedTexts tables sha observations ∪ hashedTexts tables sha others))
    {o p : Observation} (left : o ∈ observations) (right : p ∈ others)
    (same : o.spelled.toDict sha = p.spelled.toDict sha) : o.spelled = p.spelled := by
  simp only [Observation.toDict, record, List.map_cons, List.map_nil, Data.obj.injEq, List.cons.injEq,
    Prod.mk.injEq, true_and, and_true, Data.str.injEq, textData] at same
  obtain ⟨name, source, value⟩ := same
  have values : o.spelled.value = p.spelled.value := by
    simp only [Observation.spelled] at value ⊢
    rcases first : o.value with _ | v <;> rcases second : p.value with _ | w <;>
      simp only [first, second, Option.map_none, Option.map_some, Option.getD_none, Option.getD_some,
        reduceCtorEq, Data.str.injEq, hash_spelled] at value ⊢
    have texts := digest_inj free (.inl (.inr ⟨o, left, v, first, rfl⟩))
      (.inr (.inr ⟨p, right, w, second, rfl⟩)) value
    rw [Data.canonical_eq_iff] at texts
    exact congrArg some (Data.str.inj texts)
  exact Observation.mk.injEq .. ▸ ⟨name, source_text_injective (ofString_injective source), values⟩

theorem mem_arranged {o : Observation} : o ∈ arranged tables observations ↔ o ∈ observations :=
  List.mem_insertionSort fun a b : Observation => tables.casefold a.name ≤ tables.casefold b.name

/-- Manifests have one hash exactly where they agree up to spelling, in the order of the case-folded
names. -/
theorem manifest_hash_iff
    (free : Set.InjOn sha.text (hashedTexts tables sha observations ∪ hashedTexts tables sha others)) :
    sha.of (manifest tables sha observations) = sha.of (manifest tables sha others) ↔
      (arranged tables observations).map Observation.spelled =
        (arranged tables others).map Observation.spelled := by
  constructor
  · intro hash
    have texts := manifest_canonical_iff.1 (digest_inj free (.inl (.inl rfl)) (.inr (.inl rfl)) hash)
    rw [← List.forall₂_eq_eq_eq, List.forall₂_map_left_iff, List.forall₂_map_right_iff] at texts ⊢
    have each := (List.forall₂_and_left (p := (· ∈ observations)) _ _).2
      ⟨fun o member => mem_arranged.1 member, texts⟩
    have each' := ((List.forall₂_and_left (p := (· ∈ others)) _ _).2
      ⟨fun o member => mem_arranged.1 member, each.flip⟩).flip
    exact each'.imp fun o p ⟨right, left, same⟩ => spelled_of_toDict free left right same
  · intro same
    have texts : (manifest tables sha observations).canonical = (manifest tables sha others).canonical := by
      have mapped := congrArg (List.map (Observation.toDict sha)) same
      rw [List.map_map, List.map_map] at mapped
      exact manifest_canonical_iff.2 mapped
    rw [Sha256.of, TrustState.sha256Of, texts]
    rfl

end Hash

/-! ### What the operator is promised -/

/-- The child has exactly the configured names; an inherited or secret name has the parent's value of
that name where the parent has it, a set name has its configured value, and an unsafe name is listed. -/
structure Faithful (tables : TextTables) (f : LaunchFields) (parent : ParentEnvironment)
    (environment : Dict Points Points) : Prop where
  names : ∀ name, name ∈ environment ↔ name ∈ f.names
  inherited : ∀ name ∈ f.inherit ++ f.secretEnv, ∀ value, parent.source.lookup name = some value →
    environment.lookup name = some value
  literals : ∀ e ∈ f.values, environment.lookup e.1 = some e.2
  listed : ∀ name ∈ environment, tables.upper name ∈ unsafeEnvironmentVariables → name ∈ f.allowUnsafe

/-- No variable of the parent that comes later differs from an inherited or secret name in case only
and has another value, and no unsafe name is acknowledged in another spelling. -/
structure Undisturbed (tables : TextTables) (f : LaunchFields) (parent : ParentEnvironment) : Prop where
  inherited : ∀ name ∈ f.inherit ++ f.secretEnv, ∀ value, parent.source.lookup name = some value →
    Last tables parent name value
  acknowledged : ∀ name ∈ f.names, tables.upper name ∈ unsafeEnvironmentVariables →
    ∀ other ∈ f.allowUnsafe, tables.casefold other = tables.casefold name → other = name

/-- The names, sources and values that are no secrets. -/
def sources (f : LaunchFields) (environment : Dict Points Points) : Set Observation :=
  {o | o ∈ declared f environment.lookup}

/-- The lines that a configuration and a parent make. -/
def Launch.declared {tables : TextTables} (launch : Launch tables)
    (config : LaunchEnvironmentConfig tables) : List Observation :=
  LaunchEnvelope.declared config.fields (inheritedValue tables launch.parent)

def Launch.manifest {tables : TextTables} (launch : Launch tables)
    (config : LaunchEnvironmentConfig tables) : List Observation :=
  arranged tables (launch.declared config)

/-- Names that are not empty and not padded, no two of which differ in case only. -/
structure Unambiguous (tables : TextTables) (parent : ParentEnvironment) : Prop where
  trimmed : ∀ e ∈ parent.source.entries, e.1 ≠ [] ∧ e.1 = strip e.1
  apart : (parent.source.entries.map fun e => tables.casefold e.1).Nodup

section Promise

variable {tables : TextTables} {f g : LaunchFields} {parent other : ParentEnvironment}
  {environment environment' : Dict Points Points}

theorem faithful_iff (well : WellConfigured tables f) (passed : Passed tables f parent environment) :
    Faithful tables f parent environment ↔ Undisturbed tables f parent := by
  constructor
  · intro faithful
    constructor
    · intro name member value held
      obtain ⟨-, same⟩ := passed.inherited name member
      rw [← inheritedValue_eq_some_iff, ← same]
      exact faithful.inherited name member value held
    · intro name member dangerous other listed alike
      have own := faithful.listed name ((passed.names name).2 member) dangerous
      exact List.inj_on_of_nodup_map well.allowed listed own alike
  · intro undisturbed
    refine ⟨passed.names, fun name member value held => ?_, passed.literals, fun name member dangerous => ?_⟩
    · rw [(passed.inherited name member).2, inheritedValue_eq_some_iff]
      exact undisturbed.inherited name member value held
    · have configured := (passed.names name).1 member
      obtain ⟨other, listed, alike⟩ := List.mem_map.1 (passed.acknowledged name configured dangerous)
      exact undisturbed.acknowledged name configured dangerous other listed alike ▸ listed

private theorem declared_names (f : LaunchFields) (look : Points → Option Points) :
    (declared f look).map (·.name) = f.names := by
  simp [declared, LaunchFields.names, Function.comp_def]

private theorem declared_passed (passed : Passed tables f parent environment) :
    declared f environment.lookup = declared f (inheritedValue tables parent) := by
  have inherited : ∀ name ∈ f.inherit,
      (⟨name, .inherit, environment.lookup name⟩ : Observation) =
        ⟨name, .inherit, inheritedValue tables parent name⟩ := by
    intro name member
    rw [(passed.inherited name (List.mem_append_left _ member)).2]
  rw [declared, declared, List.map_congr_left inherited]

private theorem arranged_ordered (well : WellConfigured tables f) (look : Points → Option Points) :
    (arranged tables (declared f look)).Pairwise
      fun a b => tables.casefold a.name < tables.casefold b.name := by
  have folded := well.names
  rw [← declared_names f look, List.map_map] at folded
  exact sorted_by_key folded

/-- Manifests are one in order where they have the same lines. -/
private theorem arranged_eq_iff (well : WellConfigured tables f) (well' : WellConfigured tables g)
    {look look' : Points → Option Points} :
    arranged tables (declared f look) = arranged tables (declared g look') ↔
      {o | o ∈ declared f look} = {o | o ∈ declared g look'} := by
  constructor
  · intro same
    ext o
    show o ∈ declared f look ↔ o ∈ declared g look'
    rw [← @mem_arranged tables, same, mem_arranged]
  · intro same
    refine eq_of_keys (arranged_ordered well look) (arranged_ordered well' look') fun o => ?_
    rw [mem_arranged, mem_arranged]
    exact Set.ext_iff.1 same o

private theorem unambiguous_iff :
    checkEffective tables [] parent.source.entries = .ok () ↔ Unambiguous tables parent := by
  rw [checkEffective_ok_iff]
  constructor
  · rintro ⟨each, apart, -⟩
    exact ⟨fun e member => ⟨(each e member).1, (each e member).2.1⟩, apart⟩
  · intro plain
    refine ⟨fun e member => ?_, plain.apart, fun _ _ => nofun⟩
    obtain ⟨some, trimmed⟩ := plain.trimmed e member
    exact ⟨some, trimmed, parent.names e member, parent.values e member⟩

end Promise

/-- A restricted child is faithful to the configuration and the parent exactly where no later variable
of the parent takes the place of one and no unsafe name is acknowledged in another spelling; the hash
tells two manifests apart exactly where they do not differ in spelling only; and without a
configuration every environment passes exactly where its names are trimmed and differ not in case
only. -/
theorem launch_environment_faithful_iff {tables : TextTables} {sha : Sha256}
    {launch other bare : Launch tables} {config config' : LaunchEnvironmentConfig tables}
    {a b : LaunchEnvelopeAssurance} {environment environment' : Dict Points Points}
    {resolved : List Points} (built : launch.build sha (some config) = .ok a)
    (given : a.environment = some environment) (built' : other.build sha (some config') = .ok b)
    (given' : b.environment = some environment')
    (free : Set.InjOn sha.text (hashedTexts tables sha (launch.declared config) ∪
      hashedTexts tables sha (other.declared config')))
    (located : resolveCwd bare.host bare.stateRoot bare.cwd false = .ok resolved) :
    (Faithful tables config.fields launch.parent environment ↔
      Undisturbed tables config.fields launch.parent) ∧
    ((a.environmentHash = b.environmentHash ↔
        sources config.fields environment = sources config'.fields environment') ↔
      ((launch.manifest config).map Observation.spelled = (other.manifest config').map Observation.spelled →
        launch.manifest config = other.manifest config')) ∧
    ((∃ c, bare.build sha none = .ok c ∧ c.environment = some bare.parent.source) ↔
      Unambiguous tables bare.parent) := by
  obtain ⟨_, same, passed, hash⟩ := build_restricted built
  obtain rfl := Option.some.inj (given.symm.trans same)
  obtain ⟨_, same', passed', hash'⟩ := build_restricted built'
  obtain rfl := Option.some.inj (given'.symm.trans same')
  have well := config.wellConfigured
  have well' := config'.wellConfigured
  refine ⟨faithful_iff well passed, ?_, (build_unrestricted located).trans unambiguous_iff⟩
  have told : sources config.fields environment = sources config'.fields environment' ↔
      launch.manifest config = other.manifest config' := by
    rw [sources, sources, declared_passed passed, declared_passed passed']
    exact (arranged_eq_iff well well').symm
  rw [hash, hash', Option.some.injEq, told]
  refine (iff_congr (manifest_hash_iff free) Iff.rfl).trans ?_
  -- equal manifests are spelled alike, so that only the other direction can fail
  exact ⟨Iff.mp, fun tells => ⟨tells, fun same => congrArg (List.map Observation.spelled) same⟩⟩

namespace Demo

/-- The tables of ASCII. -/
def tables : TextTables where
  foldPoint c := if c.val < 128 then [.ofChar (Char.ofNat c.val).toLower] else [c]
  upperPoint c := if c.val < 128 then [.ofChar (Char.ofNat c.val).toUpper] else [c]
  repr s := ofString "'" ++ s ++ ofString "'"
  fold_ascii c small := by
    have same : Char.ofNat (CodePoint.ofChar c).val = c := Char.ofNat_toNat c
    rw [same, if_pos (show (CodePoint.ofChar c).val < 128 from small)]
  upper_ascii c small := by
    have same : Char.ofNat (CodePoint.ofChar c).val = c := Char.ofNat_toNat c
    rw [same, if_pos (show (CodePoint.ofChar c).val < 128 from small)]

theorem digest_formed (c : Char) (digit : c ∈ ['0', '1', '3', '7']) :
    isHash (ofString ("sha256:" ++ String.ofList (List.replicate 64 c))) = true := by
  simp only [List.mem_cons, List.not_mem_nil, or_false] at digit
  rcases digit with rfl | rfl | rfl | rfl <;> decide +kernel

/-- A digit that tells the value `w` from others, and a manifest that names its hash from others. -/
def mark (t : List Char) : Char :=
  if t.head? = some '[' then if '7' ∈ t then '3' else '1' else if t[1]? = some 'w' then '7' else '0'

theorem mark_digit (t : List Char) : mark t ∈ ['0', '1', '3', '7'] := by
  unfold mark
  split
  · split <;> decide
  · split <;> decide

def sha : Sha256 where
  text t := String.ofList (List.replicate 64 (mark t))
  bytes _ := String.ofList (List.replicate 64 '0')
  text_formed t := digest_formed _ (mark_digit t)
  bytes_formed _ := digest_formed '0' (by decide)

/-- A configuration that inherits the time zone under this name. -/
def config (name : Points) (built : (LaunchFields.mk [name] [] [] []).postInit tables =
    .ok ⟨[name], [], [], []⟩) : LaunchEnvironmentConfig tables :=
  ⟨⟨[name], [], [], []⟩, _, built⟩

def lower : LaunchEnvironmentConfig tables := config (ofString "tz") (by rfl)

def launch (parent : ParentEnvironment) : Launch tables where
  host := RuntimeArtifacts.Demo.host [2]
  identity := fun _ => (1, 2)
  stateRoot := RuntimeArtifacts.Demo.stateRoot
  cwd := some (ofString "/d")
  parent := parent

/-- A parent with a time zone in one spelling. -/
def one : ParentEnvironment where
  source := (∅ : Dict Points Points).set (ofString "tz") (ofString "u")
  names := List.forall_mem_singleton.2 ⟨by decide, by decide⟩
  values := List.forall_mem_singleton.2 (by decide)

/-- A parent with another time zone. -/
def other : ParentEnvironment where
  source := (∅ : Dict Points Points).set (ofString "tz") (ofString "w")
  names := List.forall_mem_singleton.2 ⟨by decide, by decide⟩
  values := List.forall_mem_singleton.2 (by decide)

/-- A parent with time zones in two spellings. -/
def two : ParentEnvironment where
  source := ((∅ : Dict Points Points).set (ofString "tz") (ofString "u")).set (ofString "TZ") (ofString "v")
  names := List.forall_mem_cons.2 ⟨⟨by decide, by decide⟩, List.forall_mem_singleton.2 ⟨by decide, by decide⟩⟩
  values := List.forall_mem_cons.2 ⟨by decide, List.forall_mem_singleton.2 (by decide)⟩

theorem built (parent : ParentEnvironment) (some : ((launch parent).build sha (some lower)).toOption.isSome) :
    ∃ a environment, (launch parent).build sha (.some lower) = .ok a ∧ a.environment = .some environment := by
  obtain ⟨a, ran⟩ := Option.isSome_iff_exists.1 some
  cases result : (launch parent).build sha (.some lower) with
  | error e => rw [result] at ran; cases ran
  | ok b =>
    obtain ⟨environment, given, -⟩ := build_restricted result
    exact ⟨b, environment, rfl, given⟩

/-- The texts that the launches under the two parents hash. -/
def texts : List (List Char) := [(manifest tables sha ((launch one).declared lower)).canonical,
  (Data.str (ofString "u")).canonical, (manifest tables sha ((launch other).declared lower)).canonical,
  (Data.str (ofString "w")).canonical]

theorem hashed {parent : ParentEnvironment} {value : Points}
    (inherits : inheritedValue tables parent (ofString "tz") = some value) {t : List Char}
    (member : t ∈ hashedTexts tables sha ((launch parent).declared lower)) :
    t = (manifest tables sha ((launch parent).declared lower)).canonical ∨
      t = (Data.str value).canonical := by
  rcases member with rfl | ⟨o, member, v, held, rfl⟩
  · exact .inl rfl
  · obtain rfl := List.mem_singleton.1 member
    obtain rfl := Option.some.inj (held.symm.trans inherits)
    exact .inr rfl

theorem free : Set.InjOn sha.text (hashedTexts tables sha ((launch one).declared lower) ∪
    hashedTexts tables sha ((launch other).declared lower)) := by
  have apart : (texts.map sha.text).Nodup := by decide +kernel
  have listed : ∀ t ∈ hashedTexts tables sha ((launch one).declared lower) ∪
      hashedTexts tables sha ((launch other).declared lower), t ∈ texts := by
    have first : inheritedValue tables one (ofString "tz") = some (ofString "u") := by decide +kernel
    have second : inheritedValue tables other (ofString "tz") = some (ofString "w") := by decide +kernel
    rintro t (member | member)
    · rcases hashed first member with rfl | rfl <;> simp [texts]
    · rcases hashed second member with rfl | rfl <;> simp [texts]
  exact fun t first u second => List.inj_on_of_nodup_map apart (listed t first) (listed u second)

theorem undisturbed : Undisturbed tables lower.fields one where
  inherited := by
    refine List.forall_mem_singleton.2 fun value held => ?_
    have own : one.source.lookup (ofString "tz") = some (ofString "u") := by decide +kernel
    obtain rfl := Option.some.inj (own.symm.trans held)
    exact ⟨[], ofString "tz", [], rfl, rfl, nofun⟩
  acknowledged := fun _ _ _ _ => nofun

end Demo

/-- One time zone reaches the child under its name, its hash is another one when the time zone is, and
its environment passes unchanged without a configuration. -/
theorem launch_environment_faithful_iff_one : ∃ a environment b environment',
    (Demo.launch Demo.one).build Demo.sha (some Demo.lower) = .ok a ∧ a.environment = some environment ∧
      (Demo.launch Demo.other).build Demo.sha (some Demo.lower) = .ok b ∧
      b.environment = some environment' ∧
      Faithful Demo.tables Demo.lower.fields Demo.one environment ∧
      (a.environmentHash = b.environmentHash ↔
        sources Demo.lower.fields environment = sources Demo.lower.fields environment') ∧
        ∃ c, (Demo.launch Demo.one).build Demo.sha none = .ok c ∧ c.environment = some Demo.one.source := by
  obtain ⟨a, environment, ran, given⟩ := Demo.built Demo.one (by decide +kernel)
  obtain ⟨b, environment', ran', given'⟩ := Demo.built Demo.other (by decide +kernel)
  have located : resolveCwd (Demo.launch Demo.one).host (Demo.launch Demo.one).stateRoot
      (Demo.launch Demo.one).cwd false = .ok [ofString "d"] := by decide +kernel
  have promised := launch_environment_faithful_iff ran given ran' given' Demo.free located
  have apart : ((Demo.launch Demo.one).manifest Demo.lower).map Observation.spelled ≠
      ((Demo.launch Demo.other).manifest Demo.lower).map Observation.spelled := by decide +kernel
  refine ⟨a, environment, b, environment', ran, given, ran', given', promised.1.2 Demo.undisturbed,
    promised.2.1.2 fun same => absurd same apart, promised.2.2.2 ⟨?_, ?_⟩⟩
  · exact List.forall_mem_singleton.2 ⟨by decide, by decide⟩
  · exact List.nodup_singleton _

/-- Of two time zones, the child gets the later one under the name of the first. -/
theorem launch_environment_unfaithful : ¬ ∀ (tables : TextTables) (sha : Sha256) (launch : Launch tables)
    (config : LaunchEnvironmentConfig tables) (a : LaunchEnvelopeAssurance)
    (environment : Dict Points Points), launch.build sha (some config) = .ok a →
      a.environment = some environment → Faithful tables config.fields launch.parent environment := by
  intro faithful
  obtain ⟨a, environment, ran, given⟩ := Demo.built Demo.two (by decide +kernel)
  have child := (faithful _ _ _ _ a environment ran given).inherited (ofString "tz") List.mem_cons_self
    (ofString "u") (by decide +kernel)
  obtain ⟨_, same, passed, -⟩ := build_restricted ran
  obtain rfl := Option.some.inj (given.symm.trans same)
  rw [(passed.inherited _ List.mem_cons_self).2] at child
  have later : inheritedValue Demo.tables Demo.two (ofString "tz") = some (ofString "v") := by decide +kernel
  have texts : ofString "v" = ofString "u" := Option.some.inj (later.symm.trans child)
  exact absurd texts (by decide)

end LaunchEnvelope

end DefiantHarness
