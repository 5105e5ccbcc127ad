import Mathlib.Data.List.AList
import Mathlib.Data.List.Sort

/-! Insertion-ordered dictionaries: association lists with the order a program iterates in. -/
namespace Foundation

/-- A dictionary is an association list with distinct keys, in iteration order. -/
abbrev Dict (κ α : Type) := AList (fun _ : κ => α)

namespace Dict

variable {κ α : Type} [DecidableEq κ]

instance [DecidableEq α] : DecidableEq (Dict κ α) := fun a b =>
  decidable_of_iff (a.entries = b.entries) AList.ext_iff.symm

/-- Values in iteration order. -/
def values (d : Dict κ α) : List α := d.entries.map (·.2)

private theorem map_nodupKeys (k : κ) (v : α) (d : Dict κ α) :
    (d.entries.map fun e => if e.1 = k then (⟨k, v⟩ : Sigma fun _ : κ => α) else e).NodupKeys := by
  have same : (d.entries.map fun e => if e.1 = k then (⟨k, v⟩ : Sigma fun _ : κ => α) else e).keys =
      d.entries.keys := by
    simp only [List.keys, List.map_map]
    refine List.map_congr_left fun e _ => ?_
    by_cases equal : e.1 = k <;> simp [equal]
  rw [List.NodupKeys, same]
  exact d.nodupKeys

omit [DecidableEq κ] in
private theorem append_nodupKeys {k : κ} {v : α} {d : Dict κ α} (fresh : k ∉ d) :
    (d.entries ++ [(⟨k, v⟩ : Sigma fun _ : κ => α)]).NodupKeys := by
  have absent : k ∉ d.entries.keys := fresh
  rw [List.NodupKeys, List.keys, List.map_append, List.nodup_append]
  refine ⟨d.nodupKeys, by simp, ?_⟩
  intro a member b last equal
  simp only [List.map_cons, List.map_nil, List.mem_singleton] at last
  rw [equal, last] at member
  exact absent member

/-- `d[k] = v`: a present key keeps its place, a new key goes last. -/
def set (d : Dict κ α) (k : κ) (v : α) : Dict κ α :=
  if present : k ∈ d then
    ⟨d.entries.map fun e => if e.1 = k then ⟨k, v⟩ else e, map_nodupKeys k v d⟩
  else ⟨d.entries ++ [⟨k, v⟩], append_nodupKeys present⟩

theorem set_entries_of_absent {d : Dict κ α} {k : κ} {v : α} (fresh : k ∉ d) :
    (d.set k v).entries = d.entries ++ [⟨k, v⟩] := by
  rw [set, dif_neg fresh]

theorem set_values_of_absent {d : Dict κ α} {k : κ} {v : α} (fresh : k ∉ d) :
    (d.set k v).values = d.values ++ [v] := by
  simp [values, set_entries_of_absent fresh]

@[simp] theorem lookup_set (d : Dict κ α) (k : κ) (v : α) : (d.set k v).lookup k = some v := by
  rw [← Option.mem_def, AList.mem_lookup_iff]
  by_cases present : k ∈ d
  · rw [set, dif_pos present]
    obtain ⟨w, member⟩ := Option.isSome_iff_exists.1 (AList.lookup_isSome.2 present)
    exact List.mem_map.2 ⟨⟨k, w⟩, AList.mem_lookup_iff.1 member, by simp⟩
  · simp [set_entries_of_absent present]

theorem lookup_set_ne {d : Dict κ α} {k k' : κ} {v : α} (other : k' ≠ k) :
    (d.set k v).lookup k' = d.lookup k' := by
  refine Option.ext fun w => ?_
  rw [← Option.mem_def, ← Option.mem_def, AList.mem_lookup_iff, AList.mem_lookup_iff]
  by_cases present : k ∈ d
  · rw [set, dif_pos present]
    simp only [List.mem_map]
    constructor
    · rintro ⟨e, member, equal⟩
      by_cases same : e.1 = k
      · rw [if_pos same] at equal
        cases equal
        exact absurd rfl other
      · rw [if_neg same] at equal
        exact equal ▸ member
    · intro member
      exact ⟨_, member, if_neg other⟩
  · rw [set_entries_of_absent present]
    simp [other]

theorem mem_set_iff (d : Dict κ α) (k k' : κ) (v : α) : k' ∈ d.set k v ↔ k' = k ∨ k' ∈ d := by
  rw [← AList.lookup_isSome, ← AList.lookup_isSome]
  by_cases equal : k' = k
  · rw [equal, lookup_set]
    simp
  · simp [lookup_set_ne equal, equal]

theorem lookup_some_mem {d : Dict κ α} {k : κ} {v : α} (found : d.lookup k = some v) : v ∈ d.values :=
  List.mem_map.2 ⟨⟨k, v⟩, AList.mem_lookup_iff.1 found, rfl⟩

/-- Of the elements with one key, the last one is kept. -/
theorem lookup_foldl_set {β : Type} {key : β → κ} {value : β → α} {items : List β} {d : Dict κ α} {k : κ}
    {v : α} :
    (items.foldl (fun d e => d.set (key e) (value e)) d).lookup k = some v ↔
      (∃ before e after, items = before ++ e :: after ∧ key e = k ∧ value e = v ∧
        ∀ other ∈ after, key other ≠ k) ∨ (∀ e ∈ items, key e ≠ k) ∧ d.lookup k = some v := by
  -- the last item under the key is the one found; the dictionary at the start is any
  induction items generalizing d with
  | nil => simp
  | cons first items ih =>
    rw [List.foldl_cons, ih]
    constructor
    · rintro (⟨before, e, after, rfl, here, held, apart⟩ | ⟨apart, held⟩)
      · exact .inl ⟨first :: before, e, after, rfl, here, held, apart⟩
      · by_cases same : key first = k
        · rw [same, lookup_set, Option.some.injEq] at held
          exact .inl ⟨[], first, items, rfl, same, held, apart⟩
        · rw [lookup_set_ne (Ne.symm same)] at held
          exact .inr ⟨List.forall_mem_cons.2 ⟨same, apart⟩, held⟩
    · rintro (⟨before, e, after, split, here, held, apart⟩ | ⟨apart, held⟩)
      · rcases List.cons_eq_append_iff.1 split with ⟨rfl, tail⟩ | ⟨before, rfl, rfl⟩
        · obtain ⟨rfl, rfl⟩ := List.cons.inj tail
          rw [here, lookup_set, held]
          exact .inr ⟨apart, rfl⟩
        · exact .inl ⟨before, e, after, rfl, here, held, apart⟩
      · rw [List.forall_mem_cons] at apart
        rw [lookup_set_ne (Ne.symm apart.1)]
        exact .inr ⟨apart.2, held⟩

/-- Erasing a present key removes one value from the collection. -/
theorem values_erase_perm {d : Dict κ α} {k : κ} {v : α} (found : d.lookup k = some v) :
    d.values.Perm (v :: Dict.values (d.erase k)) := by
  have member : (⟨k, v⟩ : Sigma fun _ : κ => α) ∈ d.entries := AList.mem_lookup_iff.1 found
  have key : k ∈ d.entries.keys := List.mem_keys_of_mem member
  obtain ⟨w, front, back, absent, shape, erased⟩ := List.exists_of_kerase key
  have value : w = v := by
    have lookup : d.lookup k = some w := by
      rw [← Option.mem_def, AList.mem_lookup_iff, shape]
      simp
    exact Option.some.inj (lookup.symm.trans found)
  have entries : (d.erase k).entries = front ++ back := erased
  simp only [values, entries, shape, value, List.map_append, List.map_cons]
  exact List.perm_middle

variable [LinearOrder κ]

/-- The dictionary that re-reading a document with sorted keys gives. -/
def sorted (d : Dict κ α) : Dict κ α :=
  ⟨d.entries.insertionSort fun a b => a.1 ≤ b.1,
    (List.perm_nodupKeys (List.perm_insertionSort _ _)).2 d.nodupKeys⟩

omit [DecidableEq κ] in
theorem sorted_perm (d : Dict κ α) : d.sorted.entries.Perm d.entries := List.perm_insertionSort _ _

@[simp] theorem lookup_sorted (d : Dict κ α) (k : κ) : d.sorted.lookup k = d.lookup k :=
  AList.perm_lookup d.sorted_perm

omit [DecidableEq κ] in
@[simp] theorem mem_sorted (d : Dict κ α) (k : κ) : k ∈ d.sorted ↔ k ∈ d :=
  AList.mem_of_perm d.sorted_perm

omit [DecidableEq κ] in
theorem sorted_values_perm (d : Dict κ α) : d.sorted.values.Perm d.values := d.sorted_perm.map _

omit [DecidableEq κ] in
@[simp] theorem sorted_sorted (d : Dict κ α) : d.sorted.sorted = d.sorted := by
  have total : Std.Total fun a b : Sigma fun _ : κ => α => a.1 ≤ b.1 := ⟨fun a b => le_total a.1 b.1⟩
  have trans : IsTrans (Sigma fun _ : κ => α) fun a b => a.1 ≤ b.1 := ⟨fun _ _ _ => le_trans⟩
  refine AList.ext ?_
  exact List.Pairwise.insertionSort_eq (List.pairwise_insertionSort _ d.entries)

end Dict
end Foundation
