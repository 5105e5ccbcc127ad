import DefiantHarness.Reread

/-! Payloads that are frozen and thawed again: tuples become lists. -/
namespace DefiantHarness

open Foundation

namespace Value

mutual

/-- `_freeze_payload`: sequences become tuples. -/
def freezePayload : Value → Value
  | .dict entries => .dict (freezeEntries entries)
  | .list items => .tuple (freezeItems items)
  | .tuple items => .tuple (freezeItems items)
  | v => v

def freezeItems : List Value → List Value
  | [] => []
  | v :: vs => v.freezePayload :: freezeItems vs

def freezeEntries : List Entry → List Entry
  | [] => []
  | (k, v) :: es => (k, v.freezePayload) :: freezeEntries es

end

mutual

/-- `_thaw_payload`: tuples become lists. -/
def thawPayload : Value → Value
  | .dict entries => .dict (thawEntries entries)
  | .tuple items => .list (thawItems items)
  | v => v

def thawItems : List Value → List Value
  | [] => []
  | v :: vs => v.thawPayload :: thawItems vs

def thawEntries : List Entry → List Entry
  | [] => []
  | (k, v) :: es => (k, v.thawPayload) :: thawEntries es

end

private theorem freezeItems_eq (items : List Value) : freezeItems items = items.map freezePayload := by
  induction items with
  | nil => rfl
  | cons v vs ih => rw [freezeItems, ih, List.map_cons]

private theorem freezeEntries_eq (entries : List Entry) :
    freezeEntries entries = entries.map fun e => (e.1, e.2.freezePayload) := by
  induction entries with
  | nil => rfl
  | cons e es ih =>
    obtain ⟨k, v⟩ := e
    rw [freezeEntries, ih, List.map_cons]

private theorem thawItems_eq (items : List Value) : thawItems items = items.map thawPayload := by
  induction items with
  | nil => rfl
  | cons v vs ih => rw [thawItems, ih, List.map_cons]

private theorem thawEntries_eq (entries : List Entry) :
    thawEntries entries = entries.map fun e => (e.1, e.2.thawPayload) := by
  induction entries with
  | nil => rfl
  | cons e es ih =>
    obtain ⟨k, v⟩ := e
    rw [thawEntries, ih, List.map_cons]

/-- A payload with its tuples turned into lists. -/
def listed (v : Value) : Value := v.freezePayload.thawPayload

theorem listed_list (items : List Value) : (list items).listed = list (items.map listed) := by
  rw [listed, freezePayload, thawPayload, freezeItems_eq, thawItems_eq, List.map_map]
  rfl

theorem listed_tuple (items : List Value) : (tuple items).listed = list (items.map listed) := by
  rw [listed, freezePayload, thawPayload, freezeItems_eq, thawItems_eq, List.map_map]
  rfl

theorem listed_dict (entries : List Entry) :
    (dict entries).listed = dict (entries.map fun e => (e.1, e.2.listed)) := by
  rw [listed, freezePayload, thawPayload, freezeEntries_eq, thawEntries_eq, List.map_map]
  rfl

@[simp] theorem listed_ofData (x : Data) : (ofData x).listed = ofData x := by
  induction x using Data.induction_on with
  | arr items ih =>
    rw [ofData, ofItems_eq, listed_list, List.map_map]
    exact congrArg list (List.map_congr_left ih)
  | obj fields ih =>
    rw [ofData, ofFields_eq, listed_dict, List.map_map]
    apply congrArg dict
    apply List.map_congr_left
    intro f member
    rw [Function.comp_apply, ih f member]
  | null => rfl
  | bool b => rfl
  | int i => rfl
  | float x => rfl
  | str s => rfl

example : ((tuple [.tuple [], .null]).listed.written canonicalText).text = "[[],null]".toList := by
  decide +kernel

/-- Turning tuples into lists keeps the document. -/
theorem written_listed (money : Decimal → PlainDecimal) (v : Value) :
    v.listed.written money = v.written money := by
  induction v using Value.induction_on with
  | list items ih =>
    rw [listed_list, written, written, writtenItems_eq, writtenItems_eq, List.map_map]
    exact congrArg Data.arr (List.map_congr_left ih)
  -- a tuple is written as the list it becomes
  | tuple items ih =>
    rw [listed_tuple, written, written, writtenItems_eq, writtenItems_eq, List.map_map]
    exact congrArg Data.arr (List.map_congr_left ih)
  | dict entries ih =>
    have each : writtenEntries money (entries.map fun e => (e.1, e.2.listed)) =
        writtenEntries money entries := by
      rw [writtenEntries_eq, writtenEntries_eq, List.map_map]
      apply List.map_congr_left
      intro e member
      rw [Function.comp_apply, (ih e member).2]
    rw [listed_dict, written, written, each]
  | member mixed v ih => rfl
  | null => rfl
  | bool b => rfl
  | int i => rfl
  | float x => rfl
  | nonFinite => rfl
  | str s => rfl
  | decimal d => rfl
  | foreign => rfl

theorem Bounded.listed {v : Value} (bounded : v.Bounded) : v.listed.Bounded := by
  induction v using Value.induction_on with
  | list items ih =>
    rw [listed_list, Bounded, boundedItems_iff, List.forall_mem_map]
    exact fun v member => ih v member (boundedItems_iff.1 bounded v member)
  | tuple items ih =>
    rw [listed_tuple, Bounded, boundedItems_iff, List.forall_mem_map]
    exact fun v member => ih v member (boundedItems_iff.1 bounded v member)
  | dict entries ih =>
    obtain ⟨count, keyed, values⟩ := bounded
    have keys : (entries.map fun e => (e.1, e.2.listed)).map (·.1) = entries.map (·.1) := by
      rw [List.map_map]
      rfl
    rw [listed_dict]
    refine ⟨by rw [List.length_map]; exact count, by rw [keys]; exact keyed, ?_⟩
    rw [boundedEntries_iff, List.forall_mem_map]
    exact fun e member => (ih e member).2 (boundedEntries_iff.1 values e member)
  | member mixed v ih => exact bounded
  | null => trivial
  | bool b => trivial
  | int i => exact bounded
  | float x => exact bounded
  | str s => exact bounded
  | decimal d => exact bounded
  | nonFinite => exact bounded.elim
  | foreign => exact bounded.elim

end Value
end DefiantHarness
