import Mathlib.Data.List.Forall2
import Mathlib.Data.List.Induction

/-! Hash chains: records that each carry the hash of their own content and of the record before. -/
namespace Foundation

/-- The hashes of a record: the two that it carries and the one that its content has. -/
structure HashChain (R H : Type) where
  back : R → Option H
  own : R → Option H
  content : R → Option H

namespace HashChain

variable {R H : Type} (chain : HashChain R H)

/-- Each record carries the hash before it and the hash of its own content. -/
def Linked : H → List R → Prop
  | _, [] => True
  | previous, r :: rs => chain.back r = some previous ∧
      ∃ hash, chain.content r = some hash ∧ chain.own r = some hash ∧ Linked hash rs

/-- The hash that the next record has to carry. -/
def head (genesis : H) (rs : List R) : Option H :=
  match rs.getLast? with
  | some r => chain.own r
  | none => some genesis

/-- A hash that a chain can have as its head. -/
def Carried (genesis hash : H) : Prop := hash = genesis ∨ ∃ r, chain.content r = some hash

variable {chain}

@[simp] theorem head_concat (genesis : H) (rs : List R) (r : R) :
    chain.head genesis (rs ++ [r]) = chain.own r := by
  simp [head]

theorem linked_append {previous : H} {rs ss : List R} :
    chain.Linked previous (rs ++ ss) ↔ chain.Linked previous rs ∧
      ∃ hash, chain.head previous rs = some hash ∧ chain.Linked hash ss := by
  induction rs generalizing previous with
  | nil => simp [Linked, head]
  | cons r rs ih =>
    have last (hash : H) (own : chain.own r = some hash) :
        chain.head previous (r :: rs) = chain.head hash rs := by
      cases rs with
      | nil => simp [head, own]
      | cons s ss =>
        rw [head, head, List.getLast?_cons_cons]
        cases found : (s :: ss).getLast? with
        | none => simp at found
        | some t => rfl
    simp only [List.cons_append, Linked, ih]
    constructor
    · rintro ⟨back, hash, content, own, links, rest⟩
      exact ⟨⟨back, hash, content, own, links⟩, by rwa [last hash own]⟩
    · rintro ⟨⟨back, hash, content, own, links⟩, rest⟩
      exact ⟨back, hash, content, own, links, by rwa [last hash own] at rest⟩

/-- A record extends a chain when it is linked to its head. -/
theorem linked_concat {previous : H} {rs : List R} {r : R} :
    chain.Linked previous (rs ++ [r]) ↔ chain.Linked previous rs ∧
      chain.back r = chain.head previous rs ∧ chain.content r = chain.own r ∧
        (chain.head previous rs).isSome = true ∧ (chain.own r).isSome = true := by
  simp only [linked_append, Linked, and_true, Option.isSome_iff_exists]
  constructor
  · rintro ⟨links, hash, head, back, own, content, carried⟩
    exact ⟨links, by rw [back, head], by rw [content, carried], ⟨hash, head⟩, own, carried⟩
  · rintro ⟨links, back, content, ⟨hash, head⟩, own, carried⟩
    exact ⟨links, hash, head, by rw [back, head], own, by rw [content, carried], carried⟩

theorem Linked.carried {genesis hash : H} {rs : List R} (links : chain.Linked genesis rs)
    (head : chain.head genesis rs = some hash) : chain.Carried genesis hash := by
  cases rs using List.reverseRecOn with
  | nil => exact .inl (Option.some.inj head).symm
  | append_singleton rs r =>
    rw [head_concat] at head
    obtain ⟨-, -, content, -, -⟩ := linked_concat.1 links
    exact .inr ⟨r, content.trans head⟩

/-- Chains with one head are the same record by record, when a hash binds a record and the hash that
it carries for the one before, and none is the hash before the first record. -/
theorem Linked.unique {genesis : H} {same : R → R → Prop}
    (binds : ∀ r s hash p q, chain.content r = some hash → chain.own r = some hash →
      chain.content s = some hash → chain.own s = some hash →
      chain.back r = some p → chain.back s = some q →
      chain.Carried genesis p → chain.Carried genesis q → p = q ∧ same r s)
    (fresh : ∀ r, chain.content r ≠ some genesis) {rs ss : List R}
    (left : chain.Linked genesis rs) (right : chain.Linked genesis ss)
    (head : chain.head genesis rs = chain.head genesis ss) : List.Forall₂ same rs ss := by
  -- the last records are bound by the head, and the heads before them by their back links
  induction rs using List.reverseRecOn generalizing ss with
  | nil =>
    cases ss using List.reverseRecOn with
    | nil => exact .nil
    | append_singleton ss s =>
      obtain ⟨-, -, content, -, -⟩ := linked_concat.1 right
      rw [head_concat] at head
      exact absurd (content.trans head.symm) (fresh s)
  | append_singleton rs r ih =>
    obtain ⟨links, back, content, before, carried⟩ := linked_concat.1 left
    cases ss using List.reverseRecOn with
    | nil =>
      rw [head_concat] at head
      exact absurd (content.trans head) (fresh r)
    | append_singleton ss s =>
      obtain ⟨links', back', content', before', -⟩ := linked_concat.1 right
      rw [head_concat, head_concat] at head
      obtain ⟨hash, own⟩ := Option.isSome_iff_exists.1 carried
      obtain ⟨p, first⟩ := Option.isSome_iff_exists.1 before
      obtain ⟨q, second⟩ := Option.isSome_iff_exists.1 before'
      obtain ⟨rfl, record⟩ := binds r s hash p q (content.trans own) own
        (content'.trans (head.symm.trans own)) (head.symm.trans own) (back.trans first)
        (back'.trans second) (links.carried first) (links'.carried second)
      exact List.rel_append (ih links links' (first.trans second.symm)) (.cons record .nil)

end HashChain
end Foundation
