import Mathlib.Data.List.TakeWhile

/-!
# A list at its last separator

A list with an element in `p` comes apart at the last of them. What is before
it holds all the pieces of the list but the last.
-/

namespace LastSeparator

variable {α : Type} {p : α → Bool} {a b l : List α} {sep : α}

/-- What comes before the last separator. -/
def beforeLast (p : α → Bool) (l : List α) : List α :=
  ((l.reverse.dropWhile (!p ·)).drop 1).reverse

theorem beforeLast_append (hsep : p sep) (hb : ∀ x ∈ b, p x = false) :
    beforeLast p (a ++ sep :: b) = a := by
  have hall : ∀ x ∈ b.reverse, (!p x) = true := by simpa using hb
  simp [beforeLast, List.dropWhile_append_of_pos hall, hsep]

theorem length_beforeLast (p : α → Bool) (l : List α) :
    (beforeLast p l).length ≤ l.length - 1 := by
  have h := (l.reverse.dropWhile_sublist (!p ·)).length_le
  simp only [List.length_reverse] at h
  simp only [beforeLast, List.length_reverse, List.length_drop]
  omega

theorem last_cases (p : α → Bool) (l : List α) :
    (∀ x ∈ l, p x = false) ∨
      ∃ a sep b, l = a ++ sep :: b ∧ p sep = true ∧ ∀ x ∈ b, p x = false := by
  induction l with
  | nil => exact .inl (by simp)
  | cons x l ih =>
    obtain hnone | ⟨a, sep, b, rfl, hsep, hb⟩ := ih
    · cases hx : p x with
      | true => exact .inr ⟨[], x, l, rfl, hx, hnone⟩
      | false => exact .inl (by simpa [hx] using hnone)
    · exact .inr ⟨x :: a, sep, b, rfl, hsep, hb⟩

/-- The last piece comes after the last separator, and the others before it. -/
theorem splitOnP_eq_concat (h : l.splitOnP p = ds ++ [d]) (hds : ds ≠ []) :
    ∃ a sep, l = a ++ sep :: d ∧ p sep = true ∧ a.splitOnP p = ds ∧ ∀ x ∈ d, p x = false := by
  obtain hnone | ⟨a, sep, b, rfl, hsep, hb⟩ := last_cases p l
  · rw [List.splitOnP_eq_singleton hnone] at h
    have hl : [] ++ [l] = ds ++ [d] := h
    exact absurd (List.append_inj_left' hl rfl).symm hds
  · rw [List.splitOnP_append_cons _ _ hsep, List.splitOnP_eq_singleton hb] at h
    obtain ⟨rfl, hd⟩ := List.append_inj' h rfl
    cases hd
    exact ⟨a, sep, rfl, hsep, rfl, hb⟩

end LastSeparator
