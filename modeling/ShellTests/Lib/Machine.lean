import Mathlib.Logic.Function.Basic
import Mathlib.Logic.Relation

/-!
# Machines

A machine is a partial step function on states. Its runs are the lists of
actions that can be taken one after the other; `Reach` is what such runs
reach when every step meets a guard. Concurrent code is a machine whose
actions name the thread that moves, so a run is one interleaving.
-/

namespace Machine

variable {σ α : Type*}

/-- The state after the actions, if each can be taken where it comes. -/
def run (step : σ → α → Option σ) : σ → List α → Option σ
  | s, [] => some s
  | s, a :: as => (step s a).bind fun s' => run step s' as

theorem run_append (step : σ → α → Option σ) (s : σ) (as bs : List α) :
    run step s (as ++ bs) = (run step s as).bind fun t => run step t bs := by
  induction as generalizing s with
  | nil => rfl
  | cons a as ih =>
    rw [List.cons_append, run, run, Option.bind_assoc]
    exact congrArg _ (funext ih)

/-- Every step of the run meets the guard `ok` in the state it is taken in. -/
def Guarded (step : σ → α → Option σ) (ok : σ → α → Prop) : σ → List α → Prop
  | _, [] => True
  | s, a :: as => ok s a ∧ match step s a with
    | some s' => Guarded step ok s' as
    | none => True

instance {step : σ → α → Option σ} {ok : σ → α → Prop} [∀ s a, Decidable (ok s a)] :
    ∀ s as, Decidable (Guarded step ok s as)
  | _, [] => .isTrue trivial
  | s, a :: as =>
    have : Decidable (match step s a with | some s' => Guarded step ok s' as | none => True) :=
      match step s a with
      | some s' => instDecidableGuarded s' as
      | none => .isTrue trivial
    inferInstanceAs (Decidable (_ ∧ _))

/-- No guard at all: every interleaving. -/
def free : σ → α → Prop := fun _ _ => True

/-- The states that guarded runs reach from an initial one. -/
inductive Reach (step : σ → α → Option σ) (ok : σ → α → Prop) (init : σ → Prop) : σ → Prop
  | init {s} : init s → Reach step ok init s
  | step {s a s'} : Reach step ok init s → ok s a → step s a = some s' → Reach step ok init s'

variable {step : σ → α → Option σ} {ok : σ → α → Prop} {init Inv : σ → Prop}

/-- The invariant rule. -/
theorem Reach.invariant (h0 : ∀ s, init s → Inv s)
    (hstep : ∀ s a s', Inv s → ok s a → step s a = some s' → Inv s')
    (h : Reach step ok init s) : Inv s := by
  induction h with
  | init hi => exact h0 _ hi
  | step _ hok hs ih => exact hstep _ _ _ ih hok hs

theorem Reach.append (h : Reach step ok init s) (hr : run step s as = some s')
    (hg : Guarded step ok s as) : Reach step ok init s' := by
  induction as generalizing s with
  | nil =>
    obtain rfl := Option.some.inj hr
    exact h
  | cons a as ih =>
    obtain ⟨t, ht, hr⟩ := Option.bind_eq_some_iff.mp hr
    obtain ⟨hok, hg⟩ := hg
    rw [ht] at hg
    exact ih (.step h hok ht) hr hg

theorem Reach.of_run (as : List α) (hi : init s) (hr : run step s as = some s')
    (hg : Guarded step ok s as) : Reach step ok init s' := (Reach.init hi).append hr hg

/-- The invariant rule for what is said about a state and the run that led to it. -/
theorem run_invariant {Inv : List α → σ → Prop}
    (hstep : ∀ as s a s', Inv as s → step s a = some s' → Inv (as ++ [a]) s')
    (h0 : Inv pre s) (h : run step s as = some s') : Inv (pre ++ as) s' := by
  induction as generalizing pre s with
  | nil =>
    obtain rfl := Option.some.inj h
    simpa using h0
  | cons a as ih =>
    obtain ⟨t, ht, hr⟩ := Option.bind_eq_some_iff.mp h
    simpa using ih (hstep pre s a t h0 ht) hr

theorem guarded_free (s : σ) (as : List α) : Guarded step free s as := by
  induction as generalizing s with
  | nil => trivial
  | cons a as ih =>
    refine ⟨trivial, ?_⟩
    split
    · exact ih _
    · trivial

theorem Reach.of_free_run (as : List α) (hi : init s) (hr : run step s as = some s') :
    Reach step free init s' := .of_run as hi hr (guarded_free _ _)

/-- Steps taken one after the other, whichever actions they are. -/
def Steps (step : σ → α → Option σ) : σ → σ → Prop :=
  Relation.ReflTransGen fun s s' => ∃ a, step s a = some s'

theorem Steps.one (h : step s a = some s') : Steps step s s' := .single ⟨a, h⟩

theorem Steps.trans (h : Steps step s s') (h' : Steps step s' s'') : Steps step s s'' :=
  Relation.ReflTransGen.trans h h'

theorem Reach.of_steps (hi : init s) (h : Steps step s s') : Reach step free init s' := by
  induction h with
  | refl => exact .init hi
  | tail _ ht ih =>
    obtain ⟨a, ha⟩ := ht
    exact .step ih trivial ha

-- ---------------------------------------------------------------------------
-- Threads: a map of local states of which a step changes one
-- ---------------------------------------------------------------------------

section
variable {ι β : Type*} [DecidableEq ι] {P : β → Prop} {f : ι → β} {t : ι} {b : β}

/-- What is there after a step was put there by it, or was there before. -/
theorem update_eq_some {f : ι → Option β} (h : Function.update f t (some b) u = some c) :
    u = t ∧ b = c ∨ u ≠ t ∧ f u = some c := by
  by_cases hut : u = t
  · subst hut
    exact .inl ⟨rfl, by simpa using h⟩
  · exact .inr ⟨hut, by simpa [hut] using h⟩

theorem update_keeps {c : β} (h : f u = c) (ht : f t ≠ c) : Function.update f t b u = c := by
  have hut : u ≠ t := by
    rintro rfl
    exact ht h
  rwa [Function.update_of_ne hut]

theorem exists_update_self (hb : P b) : ∃ u, P (Function.update f t b u) :=
  ⟨t, by simpa using hb⟩

theorem exists_update_of_imp (h : ∃ u, P (f u)) (hb : P (f t) → P b) :
    ∃ u, P (Function.update f t b u) := by
  obtain ⟨u, hu⟩ := h
  by_cases hut : u = t
  · subst hut
    exact exists_update_self (hb hu)
  · exact ⟨u, by simpa [hut] using hu⟩

theorem exists_of_exists_update (h : ∃ u, P (Function.update f t b u)) (hb : ¬ P b) :
    ∃ u, P (f u) := by
  obtain ⟨u, hu⟩ := h
  by_cases hut : u = t
  · subst hut
    exact absurd (by simpa using hu) hb
  · exact ⟨u, by simpa [hut] using hu⟩

theorem forall_update (hb : P b) (h : ∀ u, P (f u)) (u : ι) : P (Function.update f t b u) := by
  by_cases hut : u = t
  · subst hut
    simpa using hb
  · simpa [hut] using h u

end

end Machine
