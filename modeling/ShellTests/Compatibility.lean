import ShellTests.ParseConfig

/-!
# The versions that the gate lets in

`_is_compatible_version` compares tuples of numbers. A tuple that goes on where
the other ends is the greater one, even if it goes on with zeros.
-/

namespace ShellTests.Compatibility

open ParseConfig

-- ---------------------------------------------------------------------------
-- Numbers in components
-- ---------------------------------------------------------------------------

/-- A number is not greater than the other; missing components are zero. -/
def AtMost : (as bs : List Nat) → Prop
  | [], _ => True
  | a :: as, [] => a = 0 ∧ AtMost as []
  | a :: as, b :: bs => a < b ∨ a = b ∧ AtMost as bs

theorem atMost_nil (as : List Nat) : AtMost as [] ↔ ∃ n, as = List.replicate n 0 := by
  induction as with
  | nil => exact ⟨fun _ => ⟨0, rfl⟩, fun _ => trivial⟩
  | cons a as ih =>
    rw [AtMost, ih]
    constructor
    · rintro ⟨rfl, n, rfl⟩
      exact ⟨n + 1, rfl⟩
    · rintro ⟨n, heq⟩
      cases n with
      | zero => cases heq
      | succ n =>
        obtain ⟨rfl, rfl⟩ := List.cons.inj heq
        exact ⟨rfl, n, rfl⟩

theorem AtMost.refl (as : List Nat) : AtMost as as := by
  induction as with
  | nil => trivial
  | cons a as ih => exact .inr ⟨rfl, ih⟩

theorem atMost_zero_left (as bs : List Nat) : AtMost (as ++ [0]) bs ↔ AtMost as bs := by
  induction as generalizing bs with
  | nil => cases bs <;> simp [AtMost]; omega
  | cons a as ih => cases bs <;> simp [AtMost, ih]

theorem atMost_zero_right (as bs : List Nat) : AtMost as (bs ++ [0]) ↔ AtMost as bs := by
  induction as generalizing bs with
  | nil => simp [AtMost]
  | cons a as ih =>
    cases bs with
    | nil => simp [AtMost]
    | cons b bs => simp [AtMost, ih]

theorem atMost_zeros_left (as bs : List Nat) (n : Nat) :
    AtMost (as ++ List.replicate n 0) bs ↔ AtMost as bs := by
  induction n with
  | zero => rw [List.replicate_zero, List.append_nil]
  | succ n ih => rw [List.replicate_succ', ← List.append_assoc, atMost_zero_left, ih]

theorem atMost_zeros_right (as bs : List Nat) (n : Nat) :
    AtMost as (bs ++ List.replicate n 0) ↔ AtMost as bs := by
  induction n with
  | zero => rw [List.replicate_zero, List.append_nil]
  | succ n ih => rw [List.replicate_succ', ← List.append_assoc, atMost_zero_right, ih]

/-- The order of tuples is that of the numbers, but for zeros at the end. -/
theorem tuple_lt_iff (as bs : List Nat) :
    bs.map Int.ofNat < as.map Int.ofNat ↔
      ¬ AtMost as bs ∨ ∃ n, as = bs ++ List.replicate (n + 1) 0 := by
  induction as generalizing bs with
  | nil => simp [AtMost]
  | cons a as ih =>
    cases bs with
    | nil =>
      by_cases hzero : AtMost (a :: as) []
      · obtain ⟨n, heq⟩ := (atMost_nil _).mp hzero
        cases n with
        | zero => cases heq
        | succ n => simpa [hzero] using ⟨n, heq⟩
      · simp [hzero]
    | cons b bs =>
      rw [List.map_cons, List.map_cons, List.cons_lt_cons_iff, ih, AtMost]
      rcases Nat.lt_trichotomy a b with hlt | rfl | hgt
      · simp; omega
      · simp
      · simp; omega

-- ---------------------------------------------------------------------------
-- What the gate is to do
-- ---------------------------------------------------------------------------

/-- `version.split(".")` -/
def components (version : String) : List (List Char) := version.toList.splitOn '.'

def IsDecimal (part : List Char) : Prop := part ≠ [] ∧ part.all Char.isDigit

instance (part : List Char) : Decidable (IsDecimal part) := inferInstanceAs (Decidable (_ ∧ _))

def decimal (part : List Char) : Nat :=
  part.foldl (fun n c => 10 * n + (c.toNat - '0'.toNat)) 0

def number (version : String) : List Nat := (components version).map decimal

def Dotted (version : String) : Prop := ∀ part ∈ components version, IsDecimal part

instance (version : String) : Decidable (Dotted version) :=
  inferInstanceAs (Decidable (∀ part ∈ components version, IsDecimal part))

def InRange (version : String) : Prop :=
  AtMost (number minCompatibleConfVer) (number version) ∧
    AtMost (number version) (number maxCompatibleConfVer)

section
variable (int : String → Except String Int)

/-- `int` of decimal digits is their number. -/
def ReadsDecimals : Prop :=
  ∀ part, IsDecimal part → int (String.ofList part) = .ok (decimal part)

def Accepts (version : String) : Prop := isCompatibleVersion int version = .ok version

end

section
variable {int : String → Except String Int} {version : String}

theorem strVersionToTuple_eq (hint : ReadsDecimals int) (h : Dotted version) :
    strVersionToTuple int version = .ok ((number version).map Int.ofNat) := by
  rw [Dotted] at h
  rw [strVersionToTuple, number, ← components]
  generalize components version = parts at h ⊢
  induction parts with
  | nil => rfl
  | cons part parts ih =>
    obtain ⟨hpart, hparts⟩ := List.forall_mem_cons.mp h
    rw [List.mapM_cons, ih hparts, hint part hpart]
    rfl

theorem dotted_min : Dotted minCompatibleConfVer := by decide +kernel
theorem dotted_max : Dotted maxCompatibleConfVer := by decide +kernel
theorem number_min : number minCompatibleConfVer = [0, 13] := by decide +kernel
theorem number_max : number maxCompatibleConfVer = [0, 16] := by decide +kernel

theorem number_min_ne (ns : List Nat) :
    ¬ ∃ n, number minCompatibleConfVer = ns ++ List.replicate (n + 1) 0 := by
  rintro ⟨n, heq⟩
  rw [number_min, List.replicate_succ', ← List.append_assoc] at heq
  have hlast := congrArg List.getLast? heq
  rw [List.getLast?_concat] at hlast
  cases hlast

theorem accepts_tuples (hint : ReadsDecimals int) (h : Dotted version) :
    Accepts int version ↔
      ¬ (number version).map Int.ofNat < (number minCompatibleConfVer).map Int.ofNat ∧
      ¬ (number maxCompatibleConfVer).map Int.ofNat < (number version).map Int.ofNat := by
  simp only [Accepts, isCompatibleVersion, strVersionToTuple_eq hint h,
    strVersionToTuple_eq hint dotted_min, strVersionToTuple_eq hint dotted_max, bind, Except.bind]
  split
  next hlow => exact ⟨nofun, fun hin => absurd hlow hin.1⟩
  next hlow =>
    split
    next hhigh => exact ⟨nofun, fun hin => absurd hhigh hin.2⟩
    next hhigh => exact ⟨fun _ => ⟨hlow, hhigh⟩, fun _ => rfl⟩

/-- The gate lets in what is in its range, but not with zeros behind its greatest version. -/
theorem accepts_iff (hint : ReadsDecimals int) (h : Dotted version) :
    Accepts int version ↔ InRange version ∧
      ¬ ∃ n, number version = number maxCompatibleConfVer ++ List.replicate (n + 1) 0 := by
  rw [accepts_tuples hint h, tuple_lt_iff, tuple_lt_iff, or_iff_left (number_min_ne _), not_not,
    not_or, not_not, ← and_assoc, InRange]

-- ---------------------------------------------------------------------------
-- A zero more
-- ---------------------------------------------------------------------------

theorem components_zero (version : String) :
    components (version ++ ".0") = components version ++ [['0']] := by
  have htext : (version ++ ".0").toList = version.toList ++ '.' :: ['0'] := by
    rw [String.toList_append]
    rfl
  rw [components, htext, List.splitOn_append_cons_self]
  rfl

theorem number_zero (version : String) : number (version ++ ".0") = number version ++ [0] := by
  rw [number, components_zero, List.map_append]
  rfl

theorem Dotted.zero (h : Dotted version) : Dotted (version ++ ".0") := by
  rw [Dotted, components_zero]
  intro part hpart
  rcases List.mem_append.mp hpart with hpart | hpart
  · exact h part hpart
  · rw [List.mem_singleton.mp hpart]
    decide

theorem inRange_zero : InRange (version ++ ".0") ↔ InRange version := by
  rw [InRange, number_zero, atMost_zero_left, atMost_zero_right, InRange]

theorem inRange_zeros (h : number version = number maxCompatibleConfVer ++ List.replicate n 0) :
    InRange version := by
  rw [InRange, h, atMost_zeros_left, atMost_zeros_right, number_min, number_max]
  exact ⟨.inr ⟨rfl, .inl (by decide)⟩, .refl _⟩

theorem number_zero_eq (ns : List Nat) (n : Nat) :
    number (version ++ ".0") = ns ++ List.replicate (n + 1) 0 ↔
      number version = ns ++ List.replicate n 0 := by
  rw [number_zero, List.replicate_succ', ← List.append_assoc, List.append_left_inj]

/-- The gate goes by the number of a version but where zeros follow its greatest
version; so a zero more makes a difference for that version alone. -/
theorem isCompatibleVersion_iff (hint : ReadsDecimals int) (h : Dotted version) :
    ((Accepts int version ↔ InRange version) ↔
      ¬ ∃ n, number version = number maxCompatibleConfVer ++ List.replicate (n + 1) 0) ∧
    ((Accepts int version ↔ Accepts int (version ++ ".0")) ↔
      number version ≠ number maxCompatibleConfVer) := by
  rw [accepts_iff hint h, accepts_iff hint h.zero, inRange_zero]
  simp only [number_zero_eq]
  constructor
  · rw [and_iff_left_iff_imp]
    refine ⟨fun hin hzeros => ?_, fun hno _ => hno⟩
    obtain ⟨n, heq⟩ := hzeros
    exact hin (inRange_zeros heq) ⟨n, heq⟩
  · constructor
    · intro hsame heq
      have hzero : number version = number maxCompatibleConfVer ++ List.replicate 0 0 := by
        rw [heq, List.replicate_zero, List.append_nil]
      refine (hsame.mp ⟨inRange_zeros hzero, ?_⟩).2 ⟨0, hzero⟩
      rintro ⟨n, hzeros⟩
      have hlength := congrArg List.length (heq.symm.trans hzeros)
      simp at hlength
    · intro hne
      refine and_congr_right fun _ => not_congr ⟨fun ⟨n, heq⟩ => ⟨n + 1, heq⟩, fun ⟨n, heq⟩ => ?_⟩
      cases n with
      | zero => exact absurd (heq.trans (List.append_nil _)) hne
      | succ n => exact ⟨n, heq⟩

end

def intOfDigits (text : String) : Except String Int :=
  if IsDecimal text.toList then .ok (decimal text.toList)
  else .error ("invalid literal for int() with base 10: '" ++ text ++ "'")

theorem intOfDigits_reads : ReadsDecimals intOfDigits := by
  intro part h
  rw [intOfDigits, String.toList_ofList, if_pos h]

theorem isCompatibleVersion_iff_patch :
    ((Accepts intOfDigits "0.15.2" ↔ InRange "0.15.2") ↔
      ¬ ∃ n, number "0.15.2" = number maxCompatibleConfVer ++ List.replicate (n + 1) 0) ∧
    ((Accepts intOfDigits "0.15.2" ↔ Accepts intOfDigits ("0.15.2" ++ ".0")) ↔
      number "0.15.2" ≠ number maxCompatibleConfVer) :=
  isCompatibleVersion_iff intOfDigits_reads (by decide +kernel)

/-- The greatest version is let in, but not with a zero more. -/
theorem isCompatibleVersion_zero :
    InRange "0.16.0" ∧ ¬ Accepts intOfDigits "0.16.0" ∧ Accepts intOfDigits "0.16" := by
  have hnumber : number "0.16.0" = number maxCompatibleConfVer ++ List.replicate 1 0 := by
    decide +kernel
  refine ⟨inRange_zeros hnumber, fun h => ?_, ?_⟩
  · exact ((accepts_iff intOfDigits_reads (by decide +kernel)).mp h).2 ⟨0, hnumber⟩
  · rw [accepts_tuples intOfDigits_reads (by decide +kernel)]
    decide +kernel

end ShellTests.Compatibility
