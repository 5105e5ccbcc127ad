import Mathlib.Data.List.Forall2
import Mathlib.Data.List.Sort
import Mathlib.Order.Defs.LinearOrder

/-! Lists whose elements are related one by one, and lists in the order of distinct keys. -/
namespace Foundation

/-! ### Related lists -/

theorem related_of_mem {α β : Type} {R : α → β → Prop} {as : List α} {bs : List β}
    (each : List.Forall₂ R as bs) {a : α} (member : a ∈ as) : ∃ b ∈ bs, R a b := by
  induction each with
  | nil => cases member
  | cons first rest ih =>
    rcases List.mem_cons.1 member with rfl | later
    · exact ⟨_, List.mem_cons_self, first⟩
    · obtain ⟨b, inside, related⟩ := ih later
      exact ⟨b, List.mem_cons_of_mem _ inside, related⟩

theorem related_from_mem {α β : Type} {R : α → β → Prop} {as : List α} {bs : List β}
    (each : List.Forall₂ R as bs) {b : β} (member : b ∈ bs) : ∃ a ∈ as, R a b :=
  related_of_mem each.flip member

theorem zipped_of_mem {α β : Type} {R : α → β → Prop} {as : List α} {bs : List β}
    (each : List.Forall₂ R as bs) {a : α} (member : a ∈ as) : ∃ b, (b, a) ∈ bs.zip as := by
  induction each with
  | nil => cases member
  | cons _ _ ih =>
    rcases List.mem_cons.1 member with rfl | later
    · exact ⟨_, List.mem_cons_self⟩
    · obtain ⟨b, inside⟩ := ih later
      exact ⟨b, List.mem_cons_of_mem _ inside⟩

theorem exists_related {α β : Type} {R : α → β → Prop} {as : List α}
    (each : ∀ a ∈ as, ∃ b, R a b) : ∃ bs, List.Forall₂ R as bs := by
  induction as with
  | nil => exact ⟨[], .nil⟩
  | cons a as ih =>
    rw [List.forall_mem_cons] at each
    obtain ⟨b, first⟩ := each.1
    obtain ⟨bs, rest⟩ := ih each.2
    exact ⟨b :: bs, .cons first rest⟩

/-- What holds of any two results holds of whatever two elements lead to. -/
theorem pairwise_left {α β γ : Type} {R : α → β → Prop} {S : α → γ → Prop} {f : β → γ}
    {P : γ → γ → Prop} {as : List α} {bs : List β} (each : List.Forall₂ R as bs)
    (leads : ∀ a b c, R a b → S a c → c = f b) (results : bs.Pairwise fun x y => P (f x) (f y)) :
    as.Pairwise fun a b => ∀ x y, S a x → S b y → P x y := by
  induction each with
  | nil => exact .nil
  | cons first rest ih =>
    rw [List.pairwise_cons] at results ⊢
    refine ⟨fun a later x y left right => ?_, ih results.2⟩
    obtain ⟨b, member, own⟩ := related_of_mem rest later
    rw [leads _ _ _ first left, leads _ _ _ own right]
    exact results.1 b member

theorem pairwise_right {α β γ : Type} {R : α → β → Prop} {S : α → γ → Prop} {f : β → γ}
    {P : γ → γ → Prop} {as : List α} {bs : List β} (each : List.Forall₂ R as bs)
    (leads : ∀ a b, R a b → S a (f b))
    (elements : as.Pairwise fun a b => ∀ x y, S a x → S b y → P x y) :
    bs.Pairwise fun x y => P (f x) (f y) := by
  induction each with
  | nil => exact .nil
  | cons first rest ih =>
    rw [List.pairwise_cons] at elements ⊢
    refine ⟨fun b later => ?_, ih elements.2⟩
    obtain ⟨a, member, own⟩ := related_from_mem rest later
    exact elements.1 a member _ _ (leads _ _ first) (leads _ _ own)

/-- Lists related item by item are equal where related items are. -/
theorem eq_of_related {α : Type} {R : α → α → Prop} {as bs : List α}
    (each : List.Forall₂ R as bs) (apart : ∀ a ∈ as, ∀ b ∈ bs, R a b → a = b) : as = bs := by
  induction each with
  | nil => rfl
  | cons first rest ih =>
    rw [apart _ List.mem_cons_self _ List.mem_cons_self first, ih fun a inside b inside' =>
      apart a (List.mem_cons_of_mem _ inside) b (List.mem_cons_of_mem _ inside')]

/-! ### Lists in the order of distinct keys -/

/-- Sorting by keys that are all distinct. -/
theorem sorted_by_key {α κ : Type} [LinearOrder κ] {key : α → κ} {items : List α}
    (distinct : (items.map key).Nodup) :
    (items.insertionSort fun a b => key a ≤ key b).Pairwise fun a b => key a < key b := by
  have total : Std.Total fun a b : α => key a ≤ key b := ⟨fun a b => le_total (key a) (key b)⟩
  have trans : IsTrans α fun a b => key a ≤ key b := ⟨fun _ _ _ => le_trans⟩
  have ordered := List.pairwise_insertionSort (fun a b : α => key a ≤ key b) items
  have apart : (items.insertionSort fun a b => key a ≤ key b).Pairwise fun a b => key a ≠ key b := by
    rw [← List.pairwise_map]
    exact (((List.perm_insertionSort _ _).map key).nodup_iff).2 distinct
  exact (ordered.and apart).imp fun both => lt_of_le_of_ne both.1 both.2

/-- Lists in the order of distinct keys are one where they have the same elements. -/
theorem eq_of_keys {α κ : Type} [LinearOrder κ] {key : α → κ} {as bs : List α}
    (left : as.Pairwise fun a b => key a < key b) (right : bs.Pairwise fun a b => key a < key b)
    (same : ∀ a, a ∈ as ↔ a ∈ bs) : as = bs := by
  have irrefl : Std.Irrefl fun a b : α => key a < key b := ⟨fun a => lt_irrefl (key a)⟩
  have antisymm : Std.Antisymm fun a b : α => key a < key b :=
    ⟨fun _ _ below above => absurd (below.trans above) (lt_irrefl _)⟩
  exact left.eq_of_mem_iff right same

end Foundation
