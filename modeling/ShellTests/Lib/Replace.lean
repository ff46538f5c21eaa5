import Mathlib.Data.List.Infix

/-!
# Replacing a word in a text

Occurrences are replaced from the left to the right. What stands between them
is the same in both texts; and when no occurrence can overlap a replacement,
the new text has none.
-/

namespace Replace

variable {α : Type}

section
variable [DecidableEq α]

/-- The rest of a text; its first `skip` items are of an occurrence that is replaced already. -/
def replaceFrom (old new : List α) : (skip : Nat) → List α → List α
  | _, [] => []
  | skip + 1, _ :: rest => replaceFrom old new skip rest
  | 0, a :: rest =>
    if old.isPrefixOf (a :: rest) then new ++ replaceFrom old new (old.length - 1) rest
    else a :: replaceFrom old new 0 rest

/-- `text.replace(old, new)`, of a word that is not empty. -/
def replace (old new text : List α) : List α := replaceFrom old new 0 text

variable {old new text rest : List α}

theorem replaceFrom_eq (skip : Nat) (text : List α) :
    replaceFrom old new skip text = replace old new (text.drop skip) := by
  induction text generalizing skip with
  | nil => cases skip <;> rfl
  | cons a text ih =>
    cases skip with
    | zero => rfl
    | succ skip => exact ih skip

theorem replace_append (hold : old ≠ []) (rest : List α) :
    replace old new (old ++ rest) = new ++ replace old new rest := by
  obtain ⟨a, word, rfl⟩ := List.exists_cons_of_ne_nil hold
  have hprefix : (a :: word).isPrefixOf (a :: (word ++ rest)) = true :=
    List.isPrefixOf_iff_prefix.mpr (List.prefix_append _ _)
  rw [replace, List.cons_append, replaceFrom, if_pos hprefix, replaceFrom_eq]
  simp

theorem replace_cons (h : ¬ old <+: a :: rest) :
    replace old new (a :: rest) = a :: replace old new rest := by
  rw [replace, replaceFrom, if_neg (mt List.isPrefixOf_iff_prefix.mp h)]
  rfl

theorem replace_of_not_infix (h : ¬ old <:+: text) : replace old new text = text := by
  induction text with
  | nil => rfl
  | cons a text ih =>
    rw [List.infix_cons_iff, not_or] at h
    rw [replace_cons h.1, ih h.2]

/-- The two texts are the same pieces, none of which has the word, with the
word between them and with its replacement. -/
theorem replace_pieces (hold : old ≠ []) (new text : List α) :
    ∃ pieces, pieces ≠ [] ∧ text = old.intercalate pieces ∧
      replace old new text = new.intercalate pieces ∧ ∀ piece ∈ pieces, ¬ old <:+: piece := by
  induction hn : text.length using Nat.strongRecOn generalizing text with
  | ind n ih =>
    subst hn
    by_cases hprefix : old <+: text
    · obtain ⟨rest, rfl⟩ := hprefix
      have hlt : rest.length < (old ++ rest).length := by
        have := List.length_pos_iff.mpr hold
        rw [List.length_append]
        omega
      obtain ⟨pieces, hne, hrest, hreplace, hfree⟩ := ih _ hlt rest rfl
      obtain ⟨piece, pieces, rfl⟩ := List.exists_cons_of_ne_nil hne
      refine ⟨[] :: piece :: pieces, by simp, ?_, ?_,
        List.forall_mem_cons.mpr ⟨by simpa using hold, hfree⟩⟩
      · rw [List.intercalate_cons_cons, ← hrest]
        rfl
      · rw [replace_append hold, hreplace, List.intercalate_cons_cons]
        rfl
    · cases text with
      | nil => exact ⟨[[]], by simp, by simp, by simp [replace, replaceFrom], by simpa using hold⟩
      | cons a rest =>
        obtain ⟨pieces, hne, hrest, hreplace, hfree⟩ := ih _ (by simp) rest rfl
        obtain ⟨piece, pieces, rfl⟩ := List.exists_cons_of_ne_nil hne
        obtain ⟨hpiece, hfree⟩ := List.forall_mem_cons.mp hfree
        have hstart : piece <+: rest := by
          rw [hrest]
          cases pieces with
          | nil => simp
          | cons _ _ =>
            rw [List.intercalate_cons_cons, List.append_assoc]
            exact List.prefix_append _ _
        refine ⟨(a :: piece) :: pieces, by simp, ?_, ?_,
          List.forall_mem_cons.mpr ⟨fun hin => ?_, hfree⟩⟩
        · rw [List.intercalate_cons_cons_left, ← hrest]
        · rw [replace_cons hprefix, hreplace, List.intercalate_cons_cons_left]
        · rcases List.infix_cons_iff.mp hin with hin | hin
          · exact hprefix (hin.trans (List.cons_prefix_cons.mpr ⟨rfl, hstart⟩))
          · exact hpiece hin

end

/-- No occurrence of one word can overlap one of the other. -/
structure Apart (old new : List α) : Prop where
  not_in : ¬ old <:+: new
  not_around : ¬ new <:+: old
  not_into : ∀ part, part <:+ new → part <+: old → part = []
  not_out : ∀ part, part <:+ old → part <+: new → part = []

section
variable {old new as bs : List α}

theorem Apart.infix_append (hapart : Apart old new) (h : old <:+: as ++ (new ++ bs)) :
    old <:+: as ∨ old <:+: bs := by
  obtain ⟨before, after, heq⟩ := h
  rw [List.append_assoc] at heq
  rcases List.append_eq_append_iff.mp heq with ⟨gap, has, hrest⟩ | ⟨gap, -, hrest⟩
  -- it begins before the replacement
  · rcases List.append_eq_append_iff.mp hrest with ⟨tail, hgap, -⟩ | ⟨part, hold, hnew⟩
    · exact .inl ⟨before, tail, by rw [has, hgap, List.append_assoc]⟩
    · rcases List.append_eq_append_iff.mp hnew with ⟨tail, hpart, -⟩ | ⟨tail, hword, -⟩
      · exact absurd ⟨gap, tail, by rw [hold, hpart, List.append_assoc]⟩ hapart.not_around
      · have hempty : part = [] := hapart.not_out part ⟨gap, hold.symm⟩ ⟨tail, hword.symm⟩
        refine .inl ⟨before, [], ?_⟩
        rw [has, hold, hempty, List.append_nil, List.append_nil]
  -- it begins in the replacement, or after it
  · rcases List.append_eq_append_iff.mp hrest with ⟨tail, -, hbs⟩ | ⟨part, hnew, hold⟩
    · exact .inr ⟨tail, after, by rw [hbs, List.append_assoc]⟩
    · rcases List.append_eq_append_iff.mp hold with ⟨tail, hpart, -⟩ | ⟨tail, hword, hbs⟩
      · exact absurd ⟨gap, tail, by rw [hnew, hpart, List.append_assoc]⟩ hapart.not_in
      · have hempty : part = [] := hapart.not_into part ⟨gap, hnew.symm⟩ ⟨tail, hword.symm⟩
        refine .inr ⟨[], after, ?_⟩
        rw [List.nil_append, hbs, hword, hempty, List.nil_append]

theorem Apart.ne_nil (hapart : Apart old new) : old ≠ [] := by
  rintro rfl
  exact hapart.not_in List.nil_infix

theorem Apart.not_infix_intercalate (hapart : Apart old new) {pieces : List (List α)}
    (h : ∀ piece ∈ pieces, ¬ old <:+: piece) : ¬ old <:+: new.intercalate pieces := by
  induction pieces with
  | nil => simpa using hapart.ne_nil
  | cons piece pieces ih =>
    obtain ⟨hpiece, hrest⟩ := List.forall_mem_cons.mp h
    cases pieces with
    | nil => simpa using hpiece
    | cons next pieces =>
      rw [List.intercalate_cons_cons, List.append_assoc]
      intro hin
      rcases hapart.infix_append hin with hin | hin
      · exact hpiece hin
      · exact ih hrest hin

variable [DecidableEq α]

/-- No seam of the new text has the word. -/
theorem Apart.not_infix_replace (hapart : Apart old new) (text : List α) :
    ¬ old <:+: replace old new text := by
  obtain ⟨pieces, -, -, hreplace, hfree⟩ := replace_pieces hapart.ne_nil new text
  rw [hreplace]
  exact hapart.not_infix_intercalate hfree

theorem replace_replace (hapart : Apart old new) (text : List α) :
    replace old new (replace old new text) = replace old new text :=
  replace_of_not_infix (hapart.not_infix_replace text)

end

end Replace
