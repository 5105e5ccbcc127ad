import DefiantHarness.DocumentReading

/-! Contracts that have been read back: their loaders make of them what they made before. -/
namespace DefiantHarness

open Foundation

namespace Durable

open Value (ReadAs EntriesReadAs Interchangeable)

/-! ### Values and fields -/

theorem readAs_str (s : Points) : ReadAs (.str s) (.str s) := ReadAs.refl (x := .str s) trivial

theorem readAs_text (s : String) : ReadAs (text s) (text s) := readAs_str _

theorem readAs_null : ReadAs .null .null := ReadAs.refl (x := .null) trivial

theorem readAs_bool (b : Bool) : ReadAs (.bool b) (.bool b) := ReadAs.refl (x := .bool b) trivial

theorem readAs_nil : ReadAs (.list []) (.list []) := ReadAs.refl (x := .arr []) trivial

theorem readAs_empty : ReadAs (.dict []) (.dict []) :=
  ReadAs.refl (x := .obj []) ⟨List.nodup_nil, trivial⟩

variable {α : Type} {es fs : List Entry} {v w : Value}

theorem field_read (entries : EntriesReadAs es fs) (name : String) {default : Value}
    (read : ReadAs default default) : ReadAs (field es name default) (field fs name default) := by
  have each := entries.lookup name
  unfold field
  generalize lookup name es = own at each ⊢
  generalize lookup name fs = other at each ⊢
  cases each with
  | some read => exact read
  | none => exact read

theorem required_read (entries : EntriesReadAs es fs) {name : String}
    (found : required es name = .ok v) : ∃ w, required fs name = .ok w ∧ ReadAs v w := by
  have each := entries.lookup name
  rw [required, orRefuse_ok_iff] at found
  rw [found] at each
  unfold required
  generalize lookup name fs = other at each ⊢
  cases each with
  | some read => exact ⟨_, rfl, read⟩

theorem isSome_read (entries : EntriesReadAs es fs) (name : String) :
    (lookup name fs).isSome = (lookup name es).isSome := by
  have each := entries.lookup name
  generalize lookup name es = own at each ⊢
  generalize lookup name fs = other at each ⊢
  cases each <;> rfl

theorem accepts_read (entries : EntriesReadAs es fs) {names : List String}
    (accepted : accepts names es = true) : accepts names fs = true := by
  rw [accepts, List.all_eq_true] at accepted ⊢
  intro f member
  obtain ⟨e, own, key, -⟩ := entries.origin f member
  rw [← key]
  exact accepted e own

theorem text?_read (read : ReadAs v w) : w.text? = v.text? :=
  read.view Value.text? none (fun _ => rfl) (fun _ => rfl) (fun _ => rfl)

theorem exactText?_read (read : ReadAs v w) : w.exactText? = v.exactText? :=
  read.view Value.exactText? none (fun _ => rfl) (fun _ => rfl) (fun _ => rfl)

theorem requireText_read (read : ReadAs v w) (name : String) : requireText w name = requireText v name := by
  rw [requireText, requireText, text?_read read]

theorem requireProvenanceText_read (read : ReadAs v w) (name : String) :
    requireProvenanceText w name = requireProvenanceText v name := by
  rw [requireProvenanceText, requireProvenanceText, text?_read read]

theorem exactText_read (read : ReadAs v w) (name : String) : exactText w name = exactText v name := by
  rw [exactText, exactText, text?_read read]

theorem utcTimestamp_read (read : ReadAs v w) (timestamps : Timestamps) (name : String) :
    utcTimestamp timestamps w name = utcTimestamp timestamps v name := by
  rw [utcTimestamp, utcTimestamp, text?_read read]

theorem moneyOf_read (read : ReadAs v w) (literals : Literals) (name : String) :
    moneyOf literals w name = moneyOf literals v name :=
  read.view (moneyOf literals · name) _ (fun _ => rfl) (fun _ => rfl) (fun _ => rfl)

theorem isNull_read (read : ReadAs v w) : isNull w = isNull v :=
  read.view isNull false (fun _ => rfl) (fun _ => rfl) (fun _ => rfl)

theorem optionally_read (read : ReadAs v w) {load : Value → Except HarnessError α}
    (each : load w = load v) : optionally load w = optionally load v := by
  rw [optionally, optionally, isNull_read read, each]

/-! ### References -/

/-- A reference is rebuilt as before. -/
theorem ContentRef.fromDict_read {r : ContentRef} (read : ReadAs v w) (made : fromDict v = .ok r) :
    fromDict w = .ok r := by
  cases v with
  | dict es =>
    obtain ⟨fs, rfl, entries⟩ := read.dict
    have require (name : String) {x : Value} (found : orRefuse (lookup name es) (invalid name) = .ok x) :
        ∃ y, orRefuse (lookup name fs) (invalid name) = .ok y ∧ ReadAs x y :=
      required_read entries found
    simp only [fromDict, bind_ok_iff] at made ⊢
    obtain ⟨refId, h₁, origin, h₂, trust, h₃, contentHash, h₄, made⟩ := made
    obtain ⟨refId', h₁', read₁⟩ := require _ h₁
    obtain ⟨origin', h₂', read₂⟩ := require _ h₂
    obtain ⟨trust', h₃', read₃⟩ := require _ h₃
    obtain ⟨contentHash', h₄', read₄⟩ := require _ h₄
    have label : ReadAs ((lookup "label" es).getD (.str [])) ((lookup "label" fs).getD (.str [])) :=
      field_read entries "label" (readAs_str [])
    -- the checks look at texts only, and those are read back as they are
    refine ⟨refId', h₁', origin', h₂', trust', h₃', contentHash', h₄', ?_⟩
    rw [make, requireText_read read₁, requireText_read read₂, requireText_read read₄,
      text?_read read₃]
    simp only [requireProvenanceText_read label]
    exact made
  | _ => cases made

theorem mapM_read {f : Value → Except HarnessError α} {items others : List Value} {results : List α}
    (reads : List.Forall₂ ReadAs items others)
    (each : ∀ v w r, ReadAs v w → f v = .ok r → f w = .ok r)
    (mapped : items.mapM f = .ok results) : others.mapM f = .ok results := by
  rw [mapM_ok_iff] at mapped ⊢
  induction reads generalizing results with
  | nil => exact mapped
  | cons head _ ih =>
    cases mapped with
    | cons first rest => exact .cons (each _ _ _ head first) (ih rest)

/-! ### Requests -/

namespace HarnessRequest

theorem inputsOf_read {refs : List ContentRef} (read : ReadAs v w) (made : inputsOf v = .ok refs) :
    inputsOf w = .ok refs := by
  cases v with
  | list items =>
    obtain ⟨others, rfl, each⟩ := read.list
    exact mapM_read each (fun _ _ _ => ContentRef.fromDict_read) made
  | tuple items =>
    obtain ⟨others, rfl, each⟩ := read.tuple
    exact mapM_read each (fun _ _ _ => ContentRef.fromDict_read) made
  | _ => cases made

theorem allowedToolsOf_read {names : List Points} (read : ReadAs v w)
    (made : allowedToolsOf v = .ok names) : allowedToolsOf w = .ok names := by
  cases v with
  | list items =>
    obtain ⟨others, rfl, each⟩ := read.list
    simp only [allowedToolsOf, refuseIf_bind_ok_iff, each.length_eq] at made ⊢
    refine ⟨made.1, mapM_read each (fun _ _ _ own found => ?_) made.2⟩
    rw [allowedTool, text?_read own]
    exact found
  | _ => cases made

/-- A request is rebuilt as before. -/
theorem fromDict_read {literals : Literals} {supply : Supply literals} {r : HarnessRequest}
    (entries : EntriesReadAs es fs) (made : fromDict literals supply es = .ok r) :
    fromDict literals supply fs = .ok r := by
  have texts (name : String) (default : Value) (own : ReadAs default default) :=
    field_read entries name own
  simp only [fromDict, bind_ok_iff, orRefuse_ok_iff, refuseIf_ok_iff] at made ⊢
  obtain ⟨sensitivity, h₁, inputs, h₂, _, named, task, h₃, userId, h₄, workspaceId, h₅, budget, h₆, time,
    h₇, made⟩ := made
  obtain ⟨task', h₃', read₃⟩ := required_read entries h₃
  obtain ⟨userId', h₄', read₄⟩ := required_read entries h₄
  obtain ⟨workspaceId', h₅', read₅⟩ := required_read entries h₅
  refine ⟨sensitivity, ?_, inputs, inputsOf_read (field_read entries _ readAs_nil) h₂, (), ?_, task',
    h₃', userId', h₄', workspaceId', h₅', budget, ?_, time, ?_, ?_⟩
  · rw [text?_read (field_read entries _ (readAs_text _))]
    exact h₁
  · rw [Bool.not_eq_false] at named ⊢
    exact accepts_read entries named
  · have read := field_read entries "budget_limit_usd" readAs_null
    rw [optionally_read read (moneyOf_read read literals _)]
    exact h₆
  · rw [utcTimestamp_read (field_read entries _ (readAs_str _))]
    exact h₇
  · rw [requireText_read read₃, requireText_read read₄, requireText_read read₅,
      requireText_read (field_read entries _ (readAs_str supply.fresh)),
      requireText_read (field_read entries _ (readAs_text "general"))]
    obtain ⟨_, t₁, _, t₂, _, t₃, _, t₄, _, t₅, _, s₁, _, s₂, _, s₃, _, s₄, _, s₅, tools, tooled, rest⟩ := made
    exact ⟨_, t₁, _, t₂, _, t₃, _, t₄, _, t₅, _, s₁, _, s₂, _, s₃, _, s₄, _, s₅, tools,
      allowedToolsOf_read (field_read entries _ readAs_nil) tooled, rest⟩

end HarnessRequest

/-! ### Records -/

/-- A dictionary is read back when its values are. -/
theorem readAs_fields {own other : List (Points × Value)}
    (each : List.Forall₂ (fun f g => f.1 = g.1 ∧ ReadAs f.2 g.2) own other)
    (apart : (own.map (·.1)).Nodup) :
    ReadAs (.dict (own.map fun f => (.str f.1, f.2))) (.dict (other.map fun f => (.str f.1, f.2))) := by
  have fields : ∃ xs ys : List Field, (own.map fun f => (Value.str f.1, f.2.listed)) = Value.ofFields xs ∧
      (other.map fun f => (Value.str f.1, f.2)) = Value.ofFields ys ∧
        Data.sortedFields xs = Data.sortedFields ys ∧ xs.map (·.1) = own.map (·.1) ∧
          ys.map (·.1) = own.map (·.1) ∧ (∀ f ∈ xs, f.2.Distinct) ∧ ∀ f ∈ ys, f.2.Distinct := by
    -- the data of both dictionaries, field by field
    clear apart
    induction each with
    | nil => exact ⟨[], [], rfl, rfl, rfl, rfl, rfl, List.forall_mem_nil _, List.forall_mem_nil _⟩
    | @cons f g _ _ head _ ih =>
      obtain ⟨xs, ys, left, right, sorted, named, named', distinct, distinct'⟩ := ih
      obtain ⟨name, v⟩ := f
      obtain ⟨name', w⟩ := g
      obtain ⟨rfl, x, y, shape, rfl, same, apart, apart'⟩ := head
      refine ⟨(name, x) :: xs, (name, y) :: ys, ?_, ?_, ?_, ?_, ?_, ?_, ?_⟩
      · rw [Value.ofFields, ← left, ← show v.listed = .ofData x from shape]
        rfl
      · rw [Value.ofFields, ← right]
        rfl
      · rw [Data.sortedFields, Data.sortedFields, sorted, show x.sorted = y.sorted from same]
      · rw [List.map_cons, List.map_cons, named]
      · rw [List.map_cons, List.map_cons, named']
      · exact List.forall_mem_cons.2 ⟨apart, distinct⟩
      · exact List.forall_mem_cons.2 ⟨apart', distinct'⟩
  obtain ⟨xs, ys, left, right, sorted, named, named', distinct, distinct'⟩ := fields
  refine ⟨.obj xs, .obj ys, ?_, by rw [right, Value.ofData], ?_, ?_, ?_⟩
  · rw [Value.listed_dict, List.map_map, Value.ofData, ← left]
    rfl
  · rw [Data.Same, Data.sorted, Data.sorted, sorted]
  · exact ⟨named ▸ apart, Data.distinctFields_iff.2 distinct⟩
  · exact ⟨named' ▸ apart, Data.distinctFields_iff.2 distinct'⟩

/-- A record is read back when its fields are. -/
theorem readAs_record {own other : List (String × Value)}
    (each : List.Forall₂ (fun f g => f.1 = g.1 ∧ ReadAs f.2 g.2) own other)
    (names : (own.map (·.1)).Nodup) : ReadAs (.dict (record own)) (.dict (record other)) := by
  have points : List.Forall₂ (fun f g => f.1 = g.1 ∧ ReadAs f.2 g.2)
      (own.map fun f => (Points.ofString f.1, f.2)) (other.map fun f => (Points.ofString f.1, f.2)) := by
    rw [List.forall₂_map_left_iff, List.forall₂_map_right_iff]
    exact each.imp fun f g both => ⟨congrArg Points.ofString both.1, both.2⟩
  have apart : ((own.map fun f => (Points.ofString f.1, f.2)).map (·.1)).Nodup := by
    have distinct := names.map (f := Points.ofString) fun _ _ same => ofString_injective same
    rw [List.map_map] at distinct ⊢
    exact distinct
  have whole := readAs_fields points apart
  rw [List.map_map, List.map_map] at whole
  exact whole

theorem readAs_list {items others : List Value} (each : List.Forall₂ ReadAs items others) :
    ReadAs (.list items) (.list others) := by
  have parts : ∃ xs ys : List Data, items.map Value.listed = xs.map .ofData ∧
      others = ys.map .ofData ∧ List.Forall₂ Data.Same xs ys ∧ (∀ x ∈ xs, x.Distinct) ∧
        ∀ y ∈ ys, y.Distinct := by
    induction each with
    | nil => exact ⟨[], [], rfl, rfl, .nil, List.forall_mem_nil _, List.forall_mem_nil _⟩
    | cons head _ ih =>
      obtain ⟨xs, ys, left, right, same, distinct, distinct'⟩ := ih
      obtain ⟨x, y, shape, written, equal, apart, apart'⟩ := head
      exact ⟨x :: xs, y :: ys, by rw [List.map_cons, List.map_cons, shape, left],
        by rw [List.map_cons, written, right], .cons equal same, List.forall_mem_cons.2 ⟨apart, distinct⟩,
        List.forall_mem_cons.2 ⟨apart', distinct'⟩⟩
  obtain ⟨xs, ys, left, right, same, distinct, distinct'⟩ := parts
  refine ⟨.arr xs, .arr ys, ?_, ?_, Data.same_arr_iff.2 same, Data.distinctItems_iff.2 distinct,
    Data.distinctItems_iff.2 distinct'⟩
  · rw [Value.listed_list, left, Value.ofData, Value.ofItems_eq]
  · rw [right, Value.ofData, Value.ofItems_eq]

/-- Making a value plain gives something that is read back as what the other one gives. -/
def Restates (v w : Value) : Prop := ∀ n, v.enumSafe = .ok n → ∃ m, w.enumSafe = .ok m ∧ ReadAs n m

theorem enumSafe_listed {x : Data} (shape : v.listed = .ofData x) : v.enumSafe = .ok v.listed := by
  -- tuples become lists and nothing else changes, as in the listed form
  have items {vs : List Value} {xs : List Data} (each : vs.map Value.listed = xs.map .ofData)
      (ih : ∀ v ∈ vs, ∀ x, v.listed = .ofData x → v.enumSafe = .ok v.listed) :
      Value.enumSafeItems vs = .ok (vs.map Value.listed) := by
    induction vs generalizing xs with
    | nil => rfl
    | cons v vs ih' =>
      cases xs with
      | nil => cases each
      | cons x xs =>
        obtain ⟨head, tail⟩ := List.cons.inj each
        rw [Value.enumSafeItems, ih v (by simp) x head, ok_bind,
          ih' tail fun v member => ih v (by simp [member])]
        rfl
  induction v using Value.induction_on generalizing x with
  | list vs ih =>
    rw [Value.listed_list] at shape ⊢
    cases x with
    | arr xs =>
      rw [Value.ofData, Value.ofItems_eq, Value.list.injEq] at shape
      rw [Value.enumSafe, items shape fun v member x => ih v member]
      rfl
    | _ => cases shape
  | tuple vs ih =>
    rw [Value.listed_tuple] at shape ⊢
    cases x with
    | arr xs =>
      rw [Value.ofData, Value.ofItems_eq, Value.list.injEq] at shape
      rw [Value.enumSafe, items shape fun v member x => ih v member]
      rfl
    | _ => cases shape
  | dict entries ih =>
    rw [Value.listed_dict] at shape ⊢
    cases x with
    | obj fields =>
      rw [Value.ofData, Value.ofFields_eq, Value.dict.injEq] at shape
      have each : Value.enumSafeEntries entries = .ok (entries.map fun e => (e.1, e.2.listed)) := by
        induction entries generalizing fields with
        | nil => rfl
        | cons e es ih' =>
          cases fields with
          | nil => cases shape
          | cons f fs =>
            obtain ⟨k, v⟩ := e
            obtain ⟨head, tail⟩ := List.cons.inj shape
            rw [Value.enumSafeEntries, (ih _ (by simp)).2 (Prod.mk.inj head).2, ok_bind,
              ih' (fun e member => ih e (by simp [member])) _ tail]
            rfl
      rw [Value.enumSafe, each]
      rfl
    | _ => cases shape
  | null | bool b | int i | float x | str s => rfl
  | _ => cases x <;> cases shape

theorem restates_of_read (read : ReadAs v w) : Restates v w := by
  intro n normalized
  obtain ⟨x, y, shape, rfl, -⟩ := id read
  rw [enumSafe_listed shape, Except.ok.injEq] at normalized
  subst normalized
  exact ⟨.ofData y, by rw [enumSafe_listed (Value.listed_ofData y), Value.listed_ofData], read.listed⟩

theorem restates_str (s : Points) : Restates (.str s) (.str s) := restates_of_read (readAs_str s)

theorem restates_member (mixed : Bool) (s : Points) :
    Restates (.member mixed (.str s)) (.member mixed (.str s)) := by
  intro n normalized
  obtain rfl := pure_ok_iff.1 normalized
  exact ⟨_, rfl, readAs_str s⟩

theorem restates_decimal (d : Decimal) : Restates (.decimal d) (.decimal d) := by
  intro n normalized
  obtain ⟨text, made, rfl⟩ := map_ok_iff.1 normalized
  exact ⟨_, map_ok_iff.2 ⟨text, made, rfl⟩, readAs_str _⟩

theorem enumSafe_record {fields : List (String × Value)} {n : Value} :
    (Value.dict (record fields)).enumSafe = .ok n ↔ ∃ plain,
      List.Forall₂ (fun f g => f.1 = g.1 ∧ f.2.enumSafe = .ok g.2) fields plain ∧
        n = .dict (record plain) := by
  -- the keys are texts, which `_enum_safe` leaves alone, so only the values change
  have each {es : List Entry} : Value.enumSafeEntries (record fields) = .ok es ↔ ∃ plain,
      List.Forall₂ (fun f g => f.1 = g.1 ∧ f.2.enumSafe = .ok g.2) fields plain ∧ es = record plain := by
    induction fields generalizing es with
    | nil =>
      constructor
      · intro made
        exact ⟨[], .nil, pure_ok_iff.1 made⟩
      · rintro ⟨_, ⟨⟩, rfl⟩
        rfl
    | cons f fs ih =>
      obtain ⟨name, v⟩ := f
      simp only [record, List.map_cons, Value.enumSafeEntries, bind_ok_iff, pure_ok_iff] at ih ⊢
      constructor
      · rintro ⟨w, head, rest, tail, rfl⟩
        obtain ⟨plain, more, rfl⟩ := ih.1 tail
        exact ⟨(name, w) :: plain, .cons ⟨rfl, head⟩ more, rfl⟩
      · rintro ⟨all, made, rfl⟩
        cases made with
        | @cons _ g _ rest head more =>
          obtain ⟨name', w⟩ := g
          obtain ⟨rfl, first⟩ := head
          exact ⟨w, first, _, ih.2 ⟨rest, more, rfl⟩, rfl⟩
  rw [Value.enumSafe, map_ok_iff]
  constructor
  · rintro ⟨es, made, rfl⟩
    obtain ⟨plain, all, rfl⟩ := each.1 made
    exact ⟨plain, all, rfl⟩
  · rintro ⟨plain, all, rfl⟩
    exact ⟨_, each.2 ⟨plain, all, rfl⟩, rfl⟩

/-- A record is restated field by field. -/
theorem restates_fields {own other plain : List (String × Value)}
    (each : List.Forall₂ (fun f g => f.1 = g.1 ∧ Restates f.2 g.2) own other)
    (made : List.Forall₂ (fun f g => f.1 = g.1 ∧ f.2.enumSafe = .ok g.2) own plain) :
    ∃ plain' : List (String × Value),
      List.Forall₂ (fun f g => f.1 = g.1 ∧ f.2.enumSafe = .ok g.2) other plain' ∧
      List.Forall₂ (fun f g => f.1 = g.1 ∧ ReadAs f.2 g.2) plain plain' := by
  induction each generalizing plain with
  | nil =>
    cases made
    exact ⟨[], .nil, .nil⟩
  | @cons f g _ _ head _ ih =>
    cases made with
    | cons first rest =>
      obtain ⟨plain', more, reads⟩ := ih rest
      obtain ⟨m, safe, read⟩ := head.2 _ first.2
      exact ⟨(g.1, m) :: plain', .cons ⟨rfl, safe⟩ more,
        .cons ⟨first.1.symm.trans head.1, read⟩ reads⟩

theorem names_of_made {own plain : List (String × Value)}
    (made : List.Forall₂ (fun f g => f.1 = g.1 ∧ f.2.enumSafe = .ok g.2) own plain) :
    own.map (·.1) = plain.map (·.1) := by
  rw [← List.forall₂_eq_eq_eq, List.forall₂_map_left_iff, List.forall₂_map_right_iff]
  exact made.imp fun _ _ both => both.1

theorem restates_record {own other : List (String × Value)}
    (each : List.Forall₂ (fun f g => f.1 = g.1 ∧ Restates f.2 g.2) own other)
    (names : (own.map (·.1)).Nodup) : Restates (.dict (record own)) (.dict (record other)) := by
  intro n normalized
  obtain ⟨plain, made, rfl⟩ := enumSafe_record.1 normalized
  obtain ⟨plain', made', reads⟩ := restates_fields each made
  exact ⟨_, enumSafe_record.2 ⟨plain', made', rfl⟩, readAs_record reads (names_of_made made ▸ names)⟩

theorem restates_list {items others : List Value} (each : List.Forall₂ Restates items others) :
    Restates (.list items) (.list others) := by
  have inner : ∀ vs, Value.enumSafeItems items = .ok vs →
      ∃ ws, Value.enumSafeItems others = .ok ws ∧ List.Forall₂ ReadAs vs ws := by
    induction each with
    | nil =>
      intro vs made
      obtain rfl := pure_ok_iff.1 made
      exact ⟨[], rfl, .nil⟩
    | cons head _ ih =>
      intro vs made
      simp only [Value.enumSafeItems, bind_ok_iff, pure_ok_iff] at made ⊢
      obtain ⟨v, first, rest, more, rfl⟩ := made
      obtain ⟨w, safe, read⟩ := head v first
      obtain ⟨ws, others, reads⟩ := ih rest more
      exact ⟨_, ⟨w, safe, ws, others, rfl⟩, .cons read reads⟩
  intro n normalized
  obtain ⟨vs, made, rfl⟩ := map_ok_iff.1 normalized
  obtain ⟨ws, made', reads⟩ := inner vs made
  exact ⟨.list ws, map_ok_iff.2 ⟨ws, made', rfl⟩, readAs_list reads⟩

theorem ContentRef.restates (r : ContentRef) : Restates r.asDict r.asDict :=
  restates_record (.cons ⟨rfl, restates_str _⟩ (.cons ⟨rfl, restates_str _⟩
    (.cons ⟨rfl, restates_member _ _⟩ (.cons ⟨rfl, restates_str _⟩ (.cons ⟨rfl, restates_str _⟩ .nil)))))
    (by simp)

theorem restates_map {items : List β} {f : β → Value} (each : ∀ b, Restates (f b) (f b)) :
    Restates (.list (items.map f)) (.list (items.map f)) := by
  apply restates_list
  rw [List.forall₂_map_left_iff, List.forall₂_map_right_iff, List.forall₂_same]
  exact fun b _ => each b

/-! ### Actions -/

/-- A view of a field that may be missing. -/
theorem field_view {β : Type} (entries : EntriesReadAs es fs) (name : String) (default : Value)
    (f : Value → β) (same : ∀ v w, ReadAs v w → f w = f v) :
    f ((lookup name fs).getD default) = f ((lookup name es).getD default) := by
  have each := entries.lookup name
  generalize lookup name es = own at each ⊢
  generalize lookup name fs = other at each ⊢
  cases each with
  | some read => exact same _ _ read
  | none => rfl

theorem amountOf_read (read : ReadAs v w) : amountOf w = amountOf v :=
  read.view amountOf none (fun _ => rfl) (fun _ => rfl) (fun _ => rfl)

theorem plainText_read (read : ReadAs v w) : ReadAs v.plainText w.plainText := by
  unfold Value.plainText
  rw [text?_read read]
  cases v.text? with
  | some s => exact readAs_str s
  | none => exact read

/-- An action and the one that is rebuilt from what is read back. -/
structure ProposedAction.ReadsAs (a b : ProposedAction) : Prop where
  toolName : a.toolName = b.toolName
  target : a.target = b.target
  payload : ReadAs (.dict a.payload) (.dict b.payload)
  sideEffectLevel : a.sideEffectLevel = b.sideEffectLevel
  agentReason : ReadAs a.agentReason b.agentReason
  actionId : a.actionId = b.actionId
  requestId : ReadAs a.requestId b.requestId
  payloadSources : a.payloadSources = b.payloadSources
  estimatedCostUsd : a.estimatedCostUsd = b.estimatedCostUsd
  createdAt : a.createdAt = b.createdAt

namespace ProposedAction

theorem sourcesOf_read (entries : EntriesReadAs es fs) {refs : List ContentRef}
    (made : sourcesOf (lookup "payload_sources" es) = .ok refs) :
    sourcesOf (lookup "payload_sources" fs) = .ok refs := by
  have each := entries.lookup "payload_sources"
  generalize lookup "payload_sources" es = own at each made
  generalize lookup "payload_sources" fs = other at each ⊢
  cases each with
  | none => exact made
  | @some v w read =>
    cases v with
    | list items =>
      obtain ⟨others, rfl, each⟩ := read.list
      exact mapM_read each (fun _ _ _ => ContentRef.fromDict_read) made
    | tuple items =>
      obtain ⟨others, rfl, each⟩ := read.tuple
      exact mapM_read each (fun _ _ _ => ContentRef.fromDict_read) made
    | _ => cases made

theorem expected_read (entries : EntriesReadAs es fs)
    (named : ¬ es.all (fun e => expected e.1) = false) : ¬ fs.all (fun e => expected e.1) = false := by
  rw [Bool.not_eq_false, List.all_eq_true] at named ⊢
  intro f member
  obtain ⟨e, own, key, -⟩ := entries.origin f member
  rw [← key]
  exact named e own

/-- An action is rebuilt as before, from a payload that is read back. -/
theorem fromDict_read {timestamps : Timestamps} {fresh now : Points} {a : ProposedAction}
    (entries : EntriesReadAs es fs) (made : fromDict timestamps fresh now es = .ok a) :
    ∃ b, fromDict timestamps fresh now fs = .ok b ∧ a.ReadsAs b := by
  have require (name : String) {x : Value} (found : lookup name es = some x) :
      ∃ y, lookup name fs = some y ∧ ReadAs x y := by
    obtain ⟨y, other, read⟩ := required_read entries (orRefuse_ok_iff.2 found)
    exact ⟨y, orRefuse_ok_iff.1 other, read⟩
  simp only [fromDict, validateContract, bind_ok_iff, orRefuse_ok_iff, refuseIf_ok_iff] at made ⊢
  obtain ⟨level, h₁, effect, h₂, refs, h₃, _, h₄, tool, h₅, target, h₆, payload, h₇, toolName, h₈,
    targetName, h₉, actionId, h₁₀, entries', h₁₁, cost, h₁₂, created, h₁₃, made⟩ := made
  obtain ⟨level', g₁, r₁⟩ := require _ h₁
  obtain ⟨tool', g₅, r₅⟩ := require _ h₅
  obtain ⟨target', g₆, r₆⟩ := require _ h₆
  obtain ⟨payload', g₇, r₇⟩ := require _ h₇
  obtain ⟨own, shape⟩ : ∃ own, payload = .dict own := by
    cases payload with
    | dict own => exact ⟨own, rfl⟩
    | _ => cases h₁₁
  subst shape
  obtain ⟨other, rfl, inner⟩ := id r₇.dict
  obtain rfl := pure_ok_iff.1 h₁₁
  obtain ⟨x₁, t₁, x₂, t₂, x₃, t₃, x₄, t₄, x₅, t₅, x₆, t₆, x₇, t₇, made⟩ := made
  obtain rfl := pure_ok_iff.1 made
  have reason : ReadAs ((lookup "agent_reason" es).getD (.str [])) ((lookup "agent_reason" fs).getD (.str [])) :=
    field_read entries "agent_reason" (readAs_str [])
  have request : ReadAs ((lookup "request_id" es).getD (.str [])) ((lookup "request_id" fs).getD (.str [])) :=
    field_read entries "request_id" (readAs_str [])
  refine ⟨_, ⟨level', g₁, effect, ?_, refs, sourcesOf_read entries h₃, (), expected_read entries h₄,
    tool', g₅, target', g₆, .dict other, g₇, toolName, ?_, targetName, ?_, actionId, ?_, other, rfl, cost, ?_,
    created, ?_, x₁, t₁, x₂, t₂, x₃, t₃, x₄, t₄, x₅, t₅, x₆, t₆, x₇, t₇, rfl⟩, ?_⟩
  · rw [text?_read r₁]
    exact h₂
  · rw [requireText_read r₅]
    exact h₈
  · rw [requireText_read r₆]
    exact h₉
  · rw [field_view entries _ _ (requireText · "action_id") fun v w read => requireText_read read _]
    exact h₁₀
  · rw [field_view entries _ _ amountOf fun v w => amountOf_read]
    exact h₁₂
  · rw [field_view entries _ _ Value.text? fun v w => text?_read]
    exact h₁₃
  · exact ⟨rfl, rfl, r₇, rfl, plainText_read reason, rfl, plainText_read request, rfl, rfl, rfl⟩

/-- The surface that is hashed is interchangeable. -/
theorem ReadsAs.surface {a b : ProposedAction} (reads : a.ReadsAs b) :
    Interchangeable (a.authorizationSurface (.dict a.payload)) (b.authorizationSurface (.dict b.payload)) := by
  apply Value.interchangeable_dict
  rw [reads.toolName, reads.target, reads.sideEffectLevel, reads.actionId, reads.payloadSources,
    reads.estimatedCostUsd]
  refine .cons ⟨rfl, .refl _⟩ (.cons ⟨rfl, reads.requestId.interchangeable⟩ (.cons ⟨rfl, .refl _⟩
    (.cons ⟨rfl, .refl _⟩ (.cons ⟨rfl, reads.payload.interchangeable⟩ (.cons ⟨rfl, .refl _⟩
      (.cons ⟨rfl, .refl _⟩ (.cons ⟨rfl, .refl _⟩ .nil)))))))

end ProposedAction

/-- Records are read back with more fields behind them. -/
private theorem readAs_append {plain plain' : List (String × Value)}
    (reads : List.Forall₂ (fun f g => f.1 = g.1 ∧ ReadAs f.2 g.2) plain plain')
    (more : List (String × Points)) (names : ((plain.map (·.1)) ++ more.map (·.1)).Nodup) :
    ReadAs (.dict (record plain ++ record (more.map fun f => (f.1, .str f.2))))
      (.dict (record plain' ++ record (more.map fun f => (f.1, .str f.2)))) := by
  have together (fields : List (String × Value)) (others : List (String × Value)) :
      record fields ++ record others = record (fields ++ others) := by
    rw [record, record, record, List.map_append]
  rw [together, together]
  apply readAs_record
  · apply List.rel_append reads
    rw [List.forall₂_map_left_iff, List.forall₂_map_right_iff, List.forall₂_same]
    exact fun f _ => ⟨rfl, readAs_str f.2⟩
  · rw [List.map_append, List.map_map]
    exact names

namespace ProposedAction

/-- The fields of `asdict`. -/
def parts (a : ProposedAction) : List (String × Value) := [
  ("tool_name", .str a.toolName), ("target", .str a.target), ("payload", .dict a.payload),
  ("side_effect_level", .member true (.str (Points.ofString a.sideEffectLevel.text))),
  ("agent_reason", a.agentReason), ("action_id", .str a.actionId), ("request_id", a.requestId),
  ("payload_sources", .list (a.payloadSources.map ContentRef.asDict)),
  ("estimated_cost_usd", .decimal a.estimatedCostUsd), ("created_at", .str a.createdAt)]

private theorem ReadsAs.parts {a b : ProposedAction} (reads : a.ReadsAs b) :
    List.Forall₂ (fun f g => f.1 = g.1 ∧ Restates f.2 g.2) a.parts b.parts := by
  rw [ProposedAction.parts, ProposedAction.parts, ← reads.toolName, ← reads.target,
    ← reads.sideEffectLevel, ← reads.actionId, ← reads.payloadSources, ← reads.estimatedCostUsd,
    ← reads.createdAt]
  exact .cons ⟨rfl, restates_str _⟩ (.cons ⟨rfl, restates_str _⟩
    (.cons ⟨rfl, restates_of_read reads.payload⟩ (.cons ⟨rfl, restates_member _ _⟩
    (.cons ⟨rfl, restates_of_read reads.agentReason⟩ (.cons ⟨rfl, restates_str _⟩
    (.cons ⟨rfl, restates_of_read reads.requestId⟩
    (.cons ⟨rfl, restates_map ContentRef.restates⟩ (.cons ⟨rfl, restates_decimal _⟩
    (.cons ⟨rfl, restates_str _⟩ .nil)))))))))

/-- The hashes behind the fields of a durable form. -/
def marks (a : ProposedAction) (payloadHash authorizationHash : String) :
    List (String × Points) := [("payload_hash", Points.ofString payloadHash),
  ("payload_trust", Points.ofString (worstTrust a.payloadSources).text),
  ("authorization_hash", Points.ofString authorizationHash)]

theorem toDict_ok_iff {sha : TextHash} {chunking : Chunking} {a : ProposedAction} {n : Value} :
    a.toDict sha chunking = .ok n ↔ ∃ payloadHash authorizationHash plain,
      actionSha256Of sha chunking (.dict a.payload) = .ok payloadHash ∧
      actionSha256Of sha chunking (a.authorizationSurface (.dict a.payload)) = .ok authorizationHash ∧
      List.Forall₂ (fun f g => f.1 = g.1 ∧ f.2.enumSafe = .ok g.2) a.parts plain ∧
      n = .dict (record plain ++
        record ((marks a payloadHash authorizationHash).map fun f => (f.1, .str f.2))) := by
  have shape : SealedAction.asDict a = .dict (record a.parts) := rfl
  simp only [toDict, SealedAction.toDict, bind_ok_iff, shape, enumSafe_record]
  constructor
  · rintro ⟨payloadHash, hashed, authorizationHash, hashed', _, ⟨plain, made, rfl⟩, rest⟩
    exact ⟨payloadHash, authorizationHash, plain, hashed, hashed', made, pure_ok_iff.1 rest⟩
  · rintro ⟨payloadHash, authorizationHash, plain, hashed, hashed', made, rfl⟩
    exact ⟨payloadHash, hashed, authorizationHash, hashed', _, ⟨plain, made, rfl⟩, rfl⟩

/-- The durable form of the action that is read back. -/
theorem ReadsAs.toDict {sha : TextHash} {chunking : Chunking} {a b : ProposedAction} {n : Value}
    (reads : a.ReadsAs b) (made : a.toDict sha chunking = .ok n) :
    ∃ m, b.toDict sha chunking = .ok m ∧ ReadAs n m := by
  obtain ⟨payloadHash, authorizationHash, plain, hashed, hashed', fields, rfl⟩ := toDict_ok_iff.1 made
  obtain ⟨plain', fields', own⟩ := restates_fields reads.parts fields
  have trust : marks b payloadHash authorizationHash = marks a payloadHash authorizationHash := by
    rw [marks, marks, reads.payloadSources]
  refine ⟨_, toDict_ok_iff.2 ⟨payloadHash, authorizationHash, plain',
    reads.payload.interchangeable.actionSha256Of hashed, reads.surface.actionSha256Of hashed', fields',
    rfl⟩, ?_⟩
  rw [trust]
  apply readAs_append own
  rw [← names_of_made fields]
  simp [ProposedAction.parts, marks]

/-- The names of the durable form. -/
theorem lookup_of_canonical {sha : TextHash} {chunking : Chunking} {a : ProposedAction} {n : Value}
    {raw : List Entry} (made : a.toDict sha chunking = .ok n) (equal : n.equals (.dict raw) = true) :
    (∃ v, lookup "action_id" raw = some v) ∧ ∃ v, lookup "created_at" raw = some v := by
  obtain ⟨payloadHash, authorizationHash, plain, -, -, fields, rfl⟩ := toDict_ok_iff.1 made
  rw [record, record, ← List.map_append] at equal
  have names := names_of_made fields
  constructor <;> apply Value.lookup_of_equals equal <;>
    rw [List.map_append, ← names] <;> simp [parts]

end ProposedAction

/-! ### Snapshots inside contracts -/

/-- The snapshot of a field is the field itself, before and after reading. -/
theorem authorityContractSnapshot_read {s : Value} {name : String} (read : ReadAs v w)
    (made : authorityContractSnapshot v name = .ok s) :
    s = v ∧ authorityContractSnapshot w name = .ok w := by
  rw [authorityContractSnapshot, mapError_ok_iff, validate_ok_iff] at made ⊢
  obtain ⟨admissible, fits, rfl⟩ := made
  have same := read.interchangeable
  obtain ⟨x, y, shape, rfl, -⟩ := read
  rw [same.written] at fits
  exact ⟨Value.snapshot_of_listed shape, same.admissible admissible, fits, by rw [Value.snapshot_ofData]⟩

theorem authorityListSnapshot_read {items : List Value} {name : String} (read : ReadAs v w)
    (made : authorityListSnapshot v name = .ok items) :
    ∃ others, authorityListSnapshot w name = .ok others ∧ List.Forall₂ ReadAs items others := by
  cases v with
  | list own =>
    obtain ⟨others, rfl, each⟩ := id read.list
    simp only [authorityListSnapshot, bind_ok_iff, each.length_eq] at made ⊢
    obtain ⟨_, few, s, taken, result⟩ := made
    obtain ⟨rfl, taken'⟩ := authorityContractSnapshot_read read taken
    obtain rfl := pure_ok_iff.1 result
    exact ⟨others, ⟨_, few, _, taken', rfl⟩, each⟩
  | _ => cases made

private theorem mapM_text {items others : List Value} {texts : List Points}
    (reads : List.Forall₂ ReadAs items others) (made : items.mapM Value.exactText? = some texts) :
    others.mapM Value.exactText? = some texts := by
  induction reads generalizing texts with
  | nil => exact made
  | cons head _ ih =>
    simp only [List.mapM_cons, Option.bind_eq_bind, Option.bind_eq_some_iff] at made ⊢
    obtain ⟨s, first, rest, more, same⟩ := made
    exact ⟨s, by rw [exactText?_read head]; exact first, rest, ih more, same⟩

theorem documentStringListSnapshot_read {texts : List Points} {name : String} (read : ReadAs v w)
    (made : documentStringListSnapshot v name = .ok texts) :
    documentStringListSnapshot w name = .ok texts := by
  simp only [documentStringListSnapshot, bind_ok_iff, orRefuse_ok_iff] at made ⊢
  obtain ⟨items, taken, found⟩ := made
  obtain ⟨others, taken', reads⟩ := authorityListSnapshot_read read taken
  exact ⟨others, taken', mapM_text reads found⟩

private theorem texts_snapshot (items : List Points) :
    (Value.list (items.map .str)).snapshot = .list (items.map .str) := by
  rw [Value.snapshot, Value.snapshotItems_eq, List.map_map]
  rfl

theorem documentStringListSnapshot_texts {items texts : List Points} {name : String}
    (made : authorityStringListSnapshot items name = .ok texts) :
    documentStringListSnapshot (.list (items.map .str)) name = .ok texts := by
  simp only [authorityStringListSnapshot, bind_ok_iff, refuseIf_ok_iff, orRefuse_ok_iff] at made
  obtain ⟨_, few, s, taken, found⟩ := made
  -- the snapshot of texts is the list of the texts
  have same := taken
  rw [authorityContractSnapshot, mapError_ok_iff, validate_ok_iff, texts_snapshot] at same
  obtain ⟨-, -, rfl⟩ := same
  simp only [documentStringListSnapshot, authorityListSnapshot, bind_ok_iff, orRefuse_ok_iff,
    refuseIf_ok_iff, List.length_map]
  exact ⟨_, ⟨(), few, _, taken, rfl⟩, found⟩

theorem authorityMappingSnapshot_read {entries : List Entry} {name : String} (read : ReadAs v w)
    (made : authorityMappingSnapshot v name = .ok entries) :
    ∃ others, authorityMappingSnapshot w name = .ok others ∧
      ReadAs (.dict entries) (.dict others) := by
  cases v with
  | dict own =>
    obtain ⟨others, rfl, -⟩ := id read.dict
    simp only [authorityMappingSnapshot, bind_ok_iff] at made ⊢
    obtain ⟨s, taken, result⟩ := made
    obtain ⟨rfl, taken'⟩ := authorityContractSnapshot_read read taken
    obtain rfl := pure_ok_iff.1 result
    exact ⟨others, ⟨_, taken', rfl⟩, read⟩
  | _ => cases made

theorem isMapping_read (read : ReadAs v w) : isMapping w = isMapping v := by
  cases v with
  | dict own =>
    obtain ⟨others, rfl, -⟩ := read.dict
    rfl
  | list own =>
    obtain ⟨others, rfl, -⟩ := read.list
    rfl
  | tuple own =>
    obtain ⟨others, rfl, -⟩ := read.tuple
    rfl
  | null | bool b | int i | float x | str s =>
    obtain ⟨x, y, shape, rfl, same, -, -⟩ := read
    cases x <;> cases shape
    cases y <;> cases same
    rfl
  | _ =>
    obtain ⟨x, y, shape, -⟩ := read
    cases x <;> cases shape

theorem authorityMappingListSnapshot_read {items : List Value} {name : String} (read : ReadAs v w)
    (made : authorityMappingListSnapshot v name = .ok items) :
    ∃ others, authorityMappingListSnapshot w name = .ok others := by
  simp only [authorityMappingListSnapshot, bind_ok_iff, refuseIf_ok_iff, pure_ok_iff] at made ⊢
  obtain ⟨items, taken, _, mappings, rfl⟩ := made
  obtain ⟨others, taken', reads⟩ := authorityListSnapshot_read read taken
  refine ⟨others, others, taken', (), ?_, rfl⟩
  rw [Bool.not_eq_false, List.all_eq_true] at mappings ⊢
  intro w member
  obtain ⟨i, inside, rfl⟩ := List.mem_iff_getElem.1 member
  have inside' : i < items.length := by rw [reads.length_eq]; exact inside
  exact (isMapping_read (reads.get inside' inside)).trans (mappings _ (List.getElem_mem _))

/-! ### Decisions -/

/-- A decision of the engine that is checked is kept with its fields as the check leaves them. -/
theorem SealedDecision.make_of_validated {literals : Literals} {d checked : GuardrailDecision}
    {entries : List Entry} {decidedAt : Value} {time : Points}
    (valid : d.validateContract = .ok checked) (mapping : d.decisionInputs = .dict entries)
    (timed : utcTimestamp literals.timestamps decidedAt "decided_at" = .ok time) :
    ∃ inputs, checked.decisionInputs = .dict inputs ∧
      make literals d.decision (.str d.reason) (.list (d.policyIds.map .str)) (.str d.policyVersion)
          (text d.rulesetHash) (.str d.approvalScope) .null (.list (d.redactions.map .str))
          d.decisionInputs decidedAt =
        .ok ⟨checked.decision, checked.reason, checked.policyIds, checked.policyVersion,
          Points.ofString checked.rulesetHash, checked.approvalScope, none, checked.redactions, inputs,
          time⟩ := by
  simp only [GuardrailDecision.validateContract, bind_ok_iff, refuseIf_ok_iff, pure_ok_iff] at valid
  obtain ⟨reason, h₁, ids, h₂, _, named, redacted, h₃, inputs, h₄, rfl⟩ := valid
  rw [mapping] at h₄ ⊢
  have shape := h₄
  rw [authorityContractSnapshot, mapError_ok_iff, validate_ok_iff] at shape
  obtain ⟨-, -, rfl⟩ := shape
  refine ⟨_, rfl, ?_⟩
  simp only [make, bind_ok_iff, refuseIf_ok_iff, pure_ok_iff]
  exact ⟨reason, h₁, ids, documentStringListSnapshot_texts h₂, (), named, _, rfl, _, rfl, _, rfl,
    redacted, documentStringListSnapshot_texts h₃, _, by
      simp only [authorityMappingSnapshot, bind_ok_iff]
      exact ⟨_, h₄, rfl⟩, time, timed, none, rfl, rfl⟩

/-- A decision and the one that is rebuilt from what is read back. -/
structure SealedDecision.ReadsAs (a b : SealedDecision) : Prop where
  same : b = { a with decisionInputs := b.decisionInputs }
  decisionInputs : ReadAs (.dict a.decisionInputs) (.dict b.decisionInputs)

namespace SealedDecision

theorem make_read {literals : Literals} {d : Decision} {a : SealedDecision}
    {reason policyIds policyVersion rulesetHash approvalScope expiresAt redactions decisionInputs
      decidedAt reason' policyIds' policyVersion' rulesetHash' approvalScope' expiresAt' redactions'
      decisionInputs' decidedAt' : Value}
    (r₁ : ReadAs reason reason') (r₂ : ReadAs policyIds policyIds')
    (r₃ : ReadAs policyVersion policyVersion') (r₄ : ReadAs rulesetHash rulesetHash')
    (r₅ : ReadAs approvalScope approvalScope') (r₆ : ReadAs expiresAt expiresAt')
    (r₇ : ReadAs redactions redactions') (r₈ : ReadAs decisionInputs decisionInputs')
    (r₉ : ReadAs decidedAt decidedAt')
    (made : make literals d reason policyIds policyVersion rulesetHash approvalScope expiresAt
      redactions decisionInputs decidedAt = .ok a) :
    ∃ b, make literals d reason' policyIds' policyVersion' rulesetHash' approvalScope' expiresAt'
      redactions' decisionInputs' decidedAt' = .ok b ∧ a.ReadsAs b := by
  simp only [make, bind_ok_iff, refuseIf_ok_iff, pure_ok_iff] at made ⊢
  obtain ⟨reasonText, h₁, ids, h₂, _, named, version, h₃, hash, h₄, scope, h₅, redacted, h₆, inputs, h₇,
    time, h₈, expiry, h₉, rfl⟩ := made
  obtain ⟨inputs', g₇, read⟩ := authorityMappingSnapshot_read r₈ h₇
  rw [requireText_read r₁, exactText_read r₃, exactText_read r₄, exactText_read r₅,
    utcTimestamp_read r₉, optionally_read r₆ (utcTimestamp_read r₆ _ _)]
  exact ⟨_, ⟨reasonText, h₁, ids, documentStringListSnapshot_read r₂ h₂, (), named, version, h₃, hash,
    h₄, scope, h₅, redacted, documentStringListSnapshot_read r₇ h₆, inputs', g₇, time, h₈, expiry, h₉,
    rfl⟩, rfl, read⟩

theorem fromDict_read {literals : Literals} {supply : Supply literals} {a : SealedDecision}
    (entries : EntriesReadAs es fs) (made : fromDict literals supply es = .ok a) :
    ∃ b, fromDict literals supply fs = .ok b ∧ a.ReadsAs b := by
  simp only [fromDict, bind_ok_iff, refuseIf_ok_iff, orRefuse_ok_iff] at made ⊢
  obtain ⟨level, h₁, d, h₂, _, named, reason, h₃, made⟩ := made
  obtain ⟨level', g₁, r₁⟩ := required_read entries h₁
  obtain ⟨reason', g₃, r₃⟩ := required_read entries h₃
  have texts (name : String) (s : String) := field_read entries name (readAs_text s)
  obtain ⟨b, made', reads⟩ := make_read r₃ (field_read entries _ readAs_nil) (texts _ _) (texts _ _)
    (texts _ _) (field_read entries _ readAs_null) (field_read entries _ readAs_nil)
    (field_read entries _ readAs_empty) (field_read entries _ (readAs_str supply.now)) made
  refine ⟨b, ⟨level', g₁, d, ?_, (), ?_, reason', g₃, made'⟩, reads⟩
  · rw [text?_read r₁]
    exact h₂
  · rw [Bool.not_eq_false] at named ⊢
    exact accepts_read entries named

private theorem readAs_texts (texts : List Points) :
    ReadAs (.list (texts.map .str)) (.list (texts.map .str)) := by
  apply readAs_list
  rw [List.forall₂_map_left_iff, List.forall₂_map_right_iff, List.forall₂_same]
  exact fun s _ => readAs_str s

private theorem readAs_optional (text : Option Points) :
    ReadAs ((text.map Value.str).getD .null) ((text.map Value.str).getD .null) := by
  cases text with
  | none => exact readAs_null
  | some s => exact readAs_str s

/-- The fields of `asdict`. -/
def parts (d : SealedDecision) : List (String × Value) := [
  ("decision", .member true (text d.decision.text)), ("reason", .str d.reason),
  ("policy_ids", .list (d.policyIds.map .str)), ("policy_version", .str d.policyVersion),
  ("ruleset_hash", .str d.rulesetHash), ("approval_scope", .str d.approvalScope),
  ("expires_at", (d.expiresAt.map .str).getD .null), ("redactions", .list (d.redactions.map .str)),
  ("decision_inputs", .dict d.decisionInputs), ("decided_at", .str d.decidedAt)]

private theorem ReadsAs.parts {a b : SealedDecision} (reads : a.ReadsAs b) :
    List.Forall₂ (fun f g => f.1 = g.1 ∧ Restates f.2 g.2) a.parts b.parts := by
  rw [reads.same]
  exact .cons ⟨rfl, restates_member _ _⟩ (.cons ⟨rfl, restates_str _⟩
    (.cons ⟨rfl, restates_of_read (readAs_texts _)⟩ (.cons ⟨rfl, restates_str _⟩
    (.cons ⟨rfl, restates_str _⟩ (.cons ⟨rfl, restates_str _⟩
    (.cons ⟨rfl, restates_of_read (readAs_optional _)⟩
    (.cons ⟨rfl, restates_of_read (readAs_texts _)⟩
    (.cons ⟨rfl, restates_of_read reads.decisionInputs⟩ (.cons ⟨rfl, restates_str _⟩ .nil)))))))))

/-- The durable form of the decision that is read back. -/
theorem ReadsAs.toDict {literals : Literals} {a b : SealedDecision} {n : Value}
    (reads : a.ReadsAs b) (made : a.toDict literals = .ok n) :
    ∃ m, b.toDict literals = .ok m ∧ ReadAs n m := by
  simp only [SealedDecision.toDict, bind_ok_iff, mapError_ok_iff] at made ⊢
  obtain ⟨checked, remade, normalized⟩ := made
  obtain ⟨checked', remade', again⟩ := make_read (readAs_str _) (readAs_texts _) (readAs_str _)
    (readAs_str _) (readAs_str _) (readAs_optional _) (readAs_texts _) reads.decisionInputs
    (readAs_str _) remade
  obtain ⟨m, normalized', read⟩ := restates_record again.parts (by simp [SealedDecision.parts]) n normalized
  refine ⟨m, ⟨checked', ?_, normalized'⟩, read⟩
  rw [reads.same]
  exact remade'

theorem lookup_of_canonical {literals : Literals} {a : SealedDecision} {n : Value} {raw : List Entry}
    (made : a.toDict literals = .ok n) (equal : n.equals (.dict raw) = true) :
    ∃ v, lookup "decided_at" raw = some v := by
  simp only [SealedDecision.toDict, bind_ok_iff, mapError_ok_iff] at made
  obtain ⟨checked, -, normalized⟩ := made
  obtain ⟨plain, fields, rfl⟩ := enumSafe_record.1
    (show (Value.dict (record checked.parts)).enumSafe = _ from normalized)
  apply Value.lookup_of_equals equal
  rw [← names_of_made fields]
  simp [parts]

end SealedDecision

namespace HarnessRequest

/-- The fields of `asdict`. -/
def parts (r : HarnessRequest) : List (String × Value) := [
  ("task", .str r.task), ("user_id", .str r.userId), ("workspace_id", .str r.workspaceId),
  ("request_id", .str r.requestId), ("task_type", .str r.taskType),
  ("sensitivity", .member true (text r.sensitivity.text)),
  ("allowed_tools", .list (r.allowedTools.map .str)),
  ("budget_limit_usd", (r.budgetLimitUsd.map .decimal).getD .null),
  ("inputs", .list (r.inputs.map ContentRef.asDict)), ("created_at", .str r.createdAt)]

/-- The durable form of a request is read back. -/
theorem readAs_toDict {r : HarnessRequest} {n : Value} (made : r.toDict = .ok n) : ReadAs n n := by
  have budget : Restates ((r.budgetLimitUsd.map Value.decimal).getD .null)
      ((r.budgetLimitUsd.map Value.decimal).getD .null) := by
    cases r.budgetLimitUsd with
    | none => exact restates_of_read readAs_null
    | some d => exact restates_decimal d
  have each : List.Forall₂ (fun f g => f.1 = g.1 ∧ Restates f.2 g.2) r.parts r.parts :=
    .cons ⟨rfl, restates_str _⟩ (.cons ⟨rfl, restates_str _⟩ (.cons ⟨rfl, restates_str _⟩
      (.cons ⟨rfl, restates_str _⟩ (.cons ⟨rfl, restates_str _⟩ (.cons ⟨rfl, restates_member _ _⟩
      (.cons ⟨rfl, restates_map restates_str⟩ (.cons ⟨rfl, budget⟩
      (.cons ⟨rfl, restates_map ContentRef.restates⟩ (.cons ⟨rfl, restates_str _⟩ .nil)))))))))
  obtain ⟨m, made', read⟩ := restates_record each (by simp [parts]) n made
  rw [show (Value.dict (record r.parts)).enumSafe = .ok n from made, Except.ok.injEq] at made'
  rwa [← made'] at read

theorem lookup_of_canonical {r : HarnessRequest} {n : Value} {raw : List Entry}
    (made : r.toDict = .ok n) (equal : n.equals (.dict raw) = true) :
    (∃ v, lookup "request_id" raw = some v) ∧ ∃ v, lookup "created_at" raw = some v := by
  obtain ⟨plain, fields, rfl⟩ :=
    enumSafe_record.1 (show (Value.dict (record r.parts)).enumSafe = _ from made)
  constructor <;> apply Value.lookup_of_equals equal <;> rw [← names_of_made fields] <;> simp [parts]

end HarnessRequest

/-! ### Evidence -/

/-- A field that is filled in when it is missing, now or later. -/
theorem field_supplied {β : Type} (entries : EntriesReadAs es fs) (name : String)
    {default : Value} (default' : Value) {f : Value → Except HarnessError β} {b : β}
    (same : ∀ v w, ReadAs v w → f w = f v) (fills : ∃ c, f default' = .ok c)
    (loaded : f (field es name default) = .ok b) : ∃ c, f (field fs name default') = .ok c := by
  have each := entries.lookup name
  unfold field at loaded ⊢
  generalize lookup name es = own at each loaded
  generalize lookup name fs = other at each ⊢
  cases each with
  | some read => exact ⟨b, (same _ _ read).trans loaded⟩
  | none => exact fills

namespace EvidenceRecord

theorem textOf_read (entries : EntriesReadAs es fs) (name default : String) :
    textOf fs name default = textOf es name default :=
  exactText_read (field_read entries name (readAs_text default)) name

theorem flag_read (read : ReadAs v w) : flag w = flag v :=
  read.view flag none (fun _ => rfl) (fun _ => rfl) (fun _ => rfl)

theorem signedDecimal_read (read : ReadAs v w) (literals : Literals) (name : String) :
    signedDecimal literals w name = signedDecimal literals v name :=
  read.view (signedDecimal literals · name) _ (fun _ => rfl) (fun _ => rfl) (fun _ => rfl)

theorem fresh_named {literals : Literals} (supply : Supply literals) (name : String) :
    requireText (.str supply.fresh) name = .ok supply.fresh := by
  simp only [requireText, Value.text?, bind_ok_iff, orRefuse_ok_iff, refuseIf_ok_iff]
  exact ⟨_, rfl, (), by rw [supply.named]; simp, rfl⟩

theorem now_timed {literals : Literals} (supply : Supply literals) (name : String) :
    ∃ t, utcTimestamp literals.timestamps (.str supply.now) name = .ok t := by
  obtain ⟨some, t, read⟩ := supply.timed
  simp only [utcTimestamp, Value.text?, bind_ok_iff, orRefuse_ok_iff, refuseIf_ok_iff]
  exact ⟨_, _, rfl, (), some, t, read, rfl⟩

/-- Evidence is rebuilt as before, whatever fills in what it leaves out. -/
theorem make_read {literals : Literals} {supply supply' : Supply literals} {r : Durable.EvidenceRecord}
    (entries : EntriesReadAs es fs) (made : make literals supply es = .ok r) :
    make literals supply' fs = .ok r := by
  have null (name : String) := field_read entries name readAs_null
  simp only [make, bind_ok_iff, refuseIf_ok_iff, orRefuse_ok_iff, checkAll_ok_iff,
    textOf_read entries] at made ⊢
  obtain ⟨_, accepted, request, h₁, action, h₂, decided, h₃, status, h₄, requestId, h₅, actionId, h₆, basis,
    h₇, _, known, decision, h₈, result, h₉, schema, h₁₀, version, h₁₁, _, h₁₂, _, texts, approver, h₁₃, ids,
    h₁₄, inputs, h₁₅, refs, h₁₆, cost, h₁₇, remaining, h₁₈, dry, h₁₉, _, h₂₀, approved, h₂₁, reconciled,
    h₂₂, rest⟩ := made
  obtain ⟨request', g₁, r₁⟩ := required_read entries h₁
  obtain ⟨action', g₂, r₂⟩ := required_read entries h₂
  obtain ⟨decided', g₃, r₃⟩ := required_read entries h₃
  obtain ⟨status', g₄, r₄⟩ := required_read entries h₄
  obtain ⟨id, g₁₂⟩ := field_supplied entries "record_id" (.str supply'.fresh)
    (f := (requireText · "record_id")) (fun v w read => requireText_read read _)
    ⟨_, fresh_named supply' _⟩ h₁₂
  obtain ⟨inputs', g₁₅, -⟩ := authorityMappingSnapshot_read (field_read entries _ readAs_empty) h₁₅
  obtain ⟨refs', g₁₆⟩ := authorityMappingListSnapshot_read (field_read entries _ readAs_nil) h₁₆
  obtain ⟨time, g₂₀⟩ := field_supplied entries "timestamp" (.str supply'.now)
    (f := (utcTimestamp literals.timestamps · "timestamp"))
    (fun v w read => utcTimestamp_read read _ _) (now_timed supply' _) h₂₀
  -- the checks left are of fields whose read value is the written one's
  refine ⟨(), ?_, request', g₁, action', g₂, decided', g₃, status', g₄, requestId, ?_, actionId, ?_, basis, h₇,
    (), known, decision, ?_, result, ?_, schema, ?_, version, ?_, id, g₁₂, (), texts, approver, ?_, ids, ?_,
    inputs', g₁₅, refs', g₁₆, cost, ?_, remaining, ?_, dry, ?_, time, g₂₀, approved, ?_, reconciled, ?_, rest⟩
  · rw [Bool.not_eq_false] at accepted ⊢
    exact accepts_read entries accepted
  · rw [requireText_read r₁]
    exact h₅
  · rw [requireText_read r₂]
    exact h₆
  · rw [text?_read r₃]
    exact h₈
  · rw [text?_read r₄]
    exact h₉
  · rw [requireText_read (field_read entries _ (readAs_text _))]
    exact h₁₀
  · rw [requireText_read (field_read entries _ (readAs_text _))]
    exact h₁₁
  · rw [optionally_read (null _) (exactText_read (null _) _)]
    exact h₁₃
  · exact documentStringListSnapshot_read (field_read entries _ readAs_nil) h₁₄
  · rw [moneyOf_read (field_read entries _ (readAs_text _))]
    exact h₁₇
  · rw [optionally_read (null _) (signedDecimal_read (null _) literals _)]
    exact h₁₈
  · rw [flag_read (field_read entries _ (readAs_bool _))]
    exact h₁₉
  · rw [optionally_read (null _) (utcTimestamp_read (null _) _ _)]
    exact h₂₁
  · rw [optionally_read (null _) (utcTimestamp_read (null _) _ _)]
    exact h₂₂

end EvidenceRecord

end Durable
end DefiantHarness
