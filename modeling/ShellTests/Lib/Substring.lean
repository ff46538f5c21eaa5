import Mathlib.Data.List.Infix

/-!
# Searching a text made of pieces

A word that is looked for lies within one piece of a text if what stands
between the pieces is not a part of it.
-/

namespace Substring

variable {α : Type} {needle as bs : List α} {x : α}

theorem prefix_append_cons_iff (hx : x ∉ needle) :
    needle <+: as ++ x :: bs ↔ needle <+: as := by
  refine ⟨fun h => ?_, fun h => h.trans (List.prefix_append _ _)⟩
  induction needle generalizing as with
  | nil => exact List.nil_prefix
  | cons c cs ih =>
    simp only [List.mem_cons, not_or] at hx
    cases as with
    | nil => exact absurd (List.cons_prefix_cons.mp h).1 (Ne.symm hx.1)
    | cons a as =>
      obtain ⟨rfl, htail⟩ := List.cons_prefix_cons.mp h
      exact List.cons_prefix_cons.mpr ⟨rfl, ih hx.2 htail⟩

theorem infix_append_cons_iff (hx : x ∉ needle) :
    needle <:+: as ++ x :: bs ↔ needle <:+: as ∨ needle <:+: bs := by
  induction as with
  | nil =>
    have hprefix := @prefix_append_cons_iff _ needle [] bs x hx
    simp only [List.nil_append] at hprefix
    simp only [List.nil_append, List.infix_cons_iff, hprefix, List.prefix_nil, List.infix_nil]
  | cons a as ih =>
    have hprefix := @prefix_append_cons_iff _ needle (a :: as) bs x hx
    rw [List.cons_append] at hprefix ⊢
    rw [List.infix_cons_iff, List.infix_cons_iff, hprefix, ih, or_assoc]

theorem infix_cons_of_not_mem (hne : needle ≠ []) (hx : x ∉ needle) :
    needle <:+: x :: bs ↔ needle <:+: bs := by
  simpa [hne] using @infix_append_cons_iff _ needle [] bs x hx

theorem infix_append_of_head (has : h ∉ as) : h :: cs <:+: as ++ bs ↔ h :: cs <:+: bs := by
  induction as with
  | nil => rfl
  | cons a as ih =>
    simp only [List.mem_cons, not_or] at has
    rw [List.cons_append, List.infix_cons_iff, ih has.2, List.cons_prefix_cons]
    exact or_iff_right fun hc => has.1 hc.1

/-- Each piece stands in what is joined of them. -/
theorem infix_intercalate (sep : List α) {piece : List α} {pieces : List (List α)}
    (h : piece ∈ pieces) : piece <:+: sep.intercalate pieces := by
  obtain ⟨k, hk⟩ := List.getElem?_of_mem h
  refine List.infix_of_mem_flatten (List.mem_of_getElem? (i := 2 * k) ?_)
  rw [List.getElem?_intersperse_two_mul, hk]

end Substring
