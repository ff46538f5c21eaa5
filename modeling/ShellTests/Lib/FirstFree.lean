import Mathlib.Data.Set.Finite.Basic
import Mathlib.Logic.Function.Iterate

/-!
# The first free value of an iteration

A step that never comes back to where it was makes infinitely many values, and
so leaves every finite set.
-/

namespace FirstFree

variable {α : Type} {g : α → α}

/-- No value comes back: all values of an iteration are different. -/
theorem iterate_injective (h : ∀ a n, g^[n + 1] a ≠ a) (a : α) :
    Function.Injective fun n => g^[n] a := by
  have hlt (i n : Nat) : g^[i + n + 1] a ≠ g^[i] a := by
    rw [show i + n + 1 = (n + 1) + i by omega, Function.iterate_add_apply]
    exact h _ n
  intro i j heq
  rcases Nat.lt_trichotomy i j with hij | rfl | hij
  · obtain ⟨n, rfl⟩ := Nat.exists_eq_add_of_lt hij
    exact absurd heq.symm (hlt i n)
  · rfl
  · obtain ⟨n, rfl⟩ := Nat.exists_eq_add_of_lt hij
    exact absurd heq (hlt j n)

/-- `n` steps lead to the first value outside of `taken`. -/
def IsFirst (g : α → α) (taken : Finset α) (a : α) (n : Nat) : Prop :=
  g^[n] a ∉ taken ∧ ∀ i < n, g^[i] a ∈ taken

theorem exists_isFirst [DecidableEq α] {a : α} (h : Function.Injective fun n => g^[n] a)
    (taken : Finset α) : ∃ n, IsFirst g taken a n := by
  have hfree : ∃ n, g^[n] a ∉ taken := by
    obtain ⟨_, ⟨n, rfl⟩, hn⟩ := (Set.infinite_range_of_injective h).exists_notMem_finset taken
    exact ⟨n, hn⟩
  refine ⟨Nat.find hfree, Nat.find_spec hfree, fun i hi => ?_⟩
  exact not_not.mp (Nat.find_min hfree hi)

theorem IsFirst.pred (h : IsFirst g taken a (n + 1)) : IsFirst g taken (g a) n :=
  ⟨h.1, fun i hi => h.2 (i + 1) (by omega)⟩

end FirstFree
