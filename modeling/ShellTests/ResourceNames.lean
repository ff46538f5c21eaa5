import ShellTests.Lib.FirstFree
import ShellTests.CloudShell

/-!
# New names for taken ones

`create_resource` and `rename_resource` try one name after the other until the
CloudShell takes one. Each name is made of the one before it by counting up the
number at its end.
-/

namespace ShellTests

open Prog FirstFree

namespace ResourceNames

-- the value of a decimal digit that is not in ASCII
variable (unicodeDigit : Char → Option (Fin 10))

/-- The value of a character that `\d` matches. -/
def digit? (c : Char) : Option Nat :=
  if c.isDigit then some (c.toNat - '0'.toNat)
  else if c.toNat < 0x80 then none
  else (unicodeDigit c).map (·.val)

def isDigit (c : Char) : Bool := (digit? unicodeDigit c).isSome

/-- `int(text)`, for a text of digits. CPython's limit on the number of digits
that `int` and `str` convert is left out. -/
def intOf (text : List Char) : Nat :=
  text.foldl (fun n c => 10 * n + (digit? unicodeDigit c).getD 0) 0

/-- What `$` ends: the text, or the text before a line break at its end. -/
def line (name : String) : List Char :=
  if name.toList.getLast? = some '\n' then name.toList.dropLast else name.toList

/-- The groups of `re.search(r"^(?P<name>.+)-(?P<v>\d+)$", name)`: the last dash
of the one line that there may be, digits behind it and something before it. -/
def splitVersion (name : String) : Option (String × Nat) :=
  let digits := ((line name).reverse.takeWhile (isDigit unicodeDigit)).reverse
  match (line name).reverse.dropWhile (isDigit unicodeDigit) with
  | '-' :: headReversed =>
    if digits ≠ [] ∧ headReversed ≠ [] ∧ '\n' ∉ headReversed then
      some (String.ofList headReversed.reverse, intOf unicodeDigit digits)
    else none
  | _ => none

/-- `f"{name}-{version}"` -/
def withVersion (name : String) (version : Nat) : String := name ++ "-" ++ version.repr

def generateNewResourceName (name : String) : String :=
  match splitVersion unicodeDigit name with
  | some (head, version) => withVersion head (version + 1)
  | none => withVersion name (0 + 1)

-- ---------------------------------------------------------------------------
-- What is made is read back
-- ---------------------------------------------------------------------------

section
variable {unicodeDigit}

theorem digit?_of_isDigit (h : c.isDigit) :
    digit? unicodeDigit c = some (c.toNat - '0'.toNat) := if_pos h

theorem isDigit_dash : isDigit unicodeDigit '-' = false := rfl

theorem isDigit_newline : isDigit unicodeDigit '\n' = false := rfl

theorem isDigit_repr (n : Nat) : ∀ c ∈ n.repr.toList, isDigit unicodeDigit c := by
  intro c hc
  rw [Nat.toList_repr] at hc
  simp [isDigit, digit?_of_isDigit (Nat.isDigit_of_mem_toDigits (by decide) (by decide) hc)]

theorem intOf_repr (n : Nat) : intOf unicodeDigit n.repr.toList = n := by
  have hfold : ∀ (cs : List Char) (m : Nat), (∀ c ∈ cs, c.isDigit) →
      cs.foldl (fun n c => 10 * n + (digit? unicodeDigit c).getD 0) m =
        Nat.ofDigitChars 10 cs m := by
    intro cs
    induction cs with
    | nil => simp
    | cons c cs ih =>
      intro m hcs
      rw [List.forall_mem_cons] at hcs
      rw [List.foldl_cons, digit?_of_isDigit hcs.1, Option.getD_some, ih _ hcs.2,
        Nat.ofDigitChars_cons]
  rw [Nat.toList_repr, intOf, hfold _ _ fun c hc => Nat.isDigit_of_mem_toDigits (by decide)
    (by decide) hc, Nat.ofDigitChars_ten_toDigits]

def Plain (head : String) : Prop := head ≠ "" ∧ '\n' ∉ head.toList

instance : DecidablePred Plain := fun head =>
  inferInstanceAs (Decidable (head ≠ "" ∧ '\n' ∉ head.toList))

theorem withVersion_reverse (name : String) (version : Nat) :
    (withVersion name version).toList.reverse =
      version.repr.toList.reverse ++ '-' :: name.toList.reverse := by
  simp [withVersion]

theorem getLast?_withVersion (name : String) (version : Nat) :
    (withVersion name version).toList.getLast? ≠ some '\n' := by
  rw [← List.head?_reverse, withVersion_reverse]
  intro h
  cases hrev : version.repr.toList.reverse with
  | nil =>
    rw [List.reverse_eq_nil_iff, Nat.toList_repr] at hrev
    exact absurd hrev Nat.toDigits_ne_nil
  | cons c cs =>
    have hdigit : isDigit (fun _ => none) c :=
      isDigit_repr version c (List.mem_reverse.mp (hrev ▸ List.mem_cons_self))
    rw [hrev, List.cons_append, List.head?_cons, Option.some.injEq] at h
    subst h
    rw [isDigit_newline] at hdigit
    cases hdigit

theorem splitVersion_withVersion (name : String) (version : Nat) :
    splitVersion unicodeDigit (withVersion name version) =
      if Plain name then some (name, version) else none := by
  have hdigits : ∀ c ∈ version.repr.toList.reverse, isDigit unicodeDigit c := fun c hc =>
    isDigit_repr version c (List.mem_reverse.mp hc)
  have hline : line (withVersion name version) = (withVersion name version).toList :=
    if_neg (getLast?_withVersion name version)
  have htake : ((withVersion name version).toList.reverse.takeWhile
      (isDigit unicodeDigit)).reverse = version.repr.toList := by
    rw [withVersion_reverse, List.takeWhile_append_of_pos hdigits, List.takeWhile_cons_of_neg,
      List.append_nil, List.reverse_reverse]
    simp [isDigit_dash]
  have hdrop : (withVersion name version).toList.reverse.dropWhile (isDigit unicodeDigit) =
      '-' :: name.toList.reverse := by
    rw [withVersion_reverse, List.dropWhile_append_of_pos hdigits, List.dropWhile_cons_of_neg]
    simp [isDigit_dash]
  simp only [splitVersion, hline, htake, hdrop, List.reverse_reverse, String.ofList_toList,
    intOf_repr]
  refine if_congr ?_ rfl rfl
  simp [Plain]

theorem plain_of_splitVersion (h : splitVersion unicodeDigit name = some (head, version)) :
    Plain head := by
  simp only [splitVersion] at h
  split at h
  · split at h
    · rename_i hconds
      obtain ⟨rfl, -⟩ := Prod.mk.inj (Option.some.inj h)
      obtain ⟨-, hne, hnewline⟩ := hconds
      exact ⟨by simpa using hne, by simpa using hnewline⟩
    · cases h
  · cases h

theorem withVersion_ne_empty (name : String) (version : Nat) : withVersion name version ≠ "" := by
  intro h
  have hlength := congrArg String.length h
  simp [withVersion] at hlength

theorem generate_withVersion (h : Plain name) (version : Nat) :
    generateNewResourceName unicodeDigit (withVersion name version) =
      withVersion name (version + 1) := by
  rw [generateNewResourceName, splitVersion_withVersion, if_pos h]

theorem iterate_withVersion (h : Plain name) (version n : Nat) :
    (generateNewResourceName unicodeDigit)^[n] (withVersion name version) =
      withVersion name (version + n) := by
  induction n generalizing version with
  | zero => rfl
  | succ n ih =>
    rw [Function.iterate_succ_apply, generate_withVersion h, ih, Nat.add_assoc, Nat.add_comm 1 n]

theorem iterate_of_newline (hnewline : '\n' ∈ name.toList)
    (hnone : splitVersion unicodeDigit name = none) (n : Nat) :
    name.toList.length + n ≤ ((generateNewResourceName unicodeDigit)^[n] name).toList.length := by
  induction n generalizing name with
  | zero => rfl
  | succ n ih =>
    have hgenerate : generateNewResourceName unicodeDigit name = withVersion name 1 := by
      rw [generateNewResourceName, hnone]
    have hplain : ¬ Plain name := fun h => h.2 hnewline
    have hmem : '\n' ∈ (withVersion name 1).toList := by
      simp [withVersion, hnewline]
    have hsplit : splitVersion unicodeDigit (withVersion name 1) = none := by
      rw [splitVersion_withVersion, if_neg hplain]
    have hlength : name.toList.length + 1 ≤ (withVersion name 1).toList.length := by
      simp [withVersion]
    rw [Function.iterate_succ_apply, hgenerate]
    have := ih hmem hsplit
    omega

theorem generate_never_back (name : String) (n : Nat) :
    (generateNewResourceName unicodeDigit)^[n + 1] name ≠ name := by
  intro heq
  rw [Function.iterate_succ_apply] at heq
  cases hsplit : splitVersion unicodeDigit name with
  | some split =>
    obtain ⟨head, version⟩ := split
    have hplain := plain_of_splitVersion hsplit
    rw [show generateNewResourceName unicodeDigit name = withVersion head (version + 1) by
      rw [generateNewResourceName, hsplit], iterate_withVersion hplain] at heq
    -- the number at the end would have to be two numbers
    have hback : splitVersion unicodeDigit (withVersion head (version + 1 + n)) = _ :=
      splitVersion_withVersion head (version + 1 + n)
    rw [heq, hsplit, if_pos hplain] at hback
    simp at hback
    omega
  | none =>
    have hgenerate : generateNewResourceName unicodeDigit name = withVersion name 1 := by
      rw [generateNewResourceName, hsplit]
    by_cases hplain : Plain name
    · rw [hgenerate, iterate_withVersion hplain] at heq
      have hback : splitVersion unicodeDigit (withVersion name (1 + n)) = _ :=
        splitVersion_withVersion name (1 + n)
      rw [heq, hsplit, if_pos hplain] at hback
      cases hback
    · by_cases hempty : name = ""
      · subst hempty
        rw [← Function.iterate_succ_apply, Function.iterate_succ_apply'] at heq
        unfold generateNewResourceName at heq
        split at heq
        · exact withVersion_ne_empty _ _ heq
        · exact withVersion_ne_empty _ _ heq
      · have hnewline : '\n' ∈ name.toList := by
          by_contra h
          exact hplain ⟨hempty, h⟩
        have hlength := iterate_of_newline hnewline hsplit (n + 1)
        rw [Function.iterate_succ_apply, heq] at hlength
        omega

end

-- ---------------------------------------------------------------------------
-- The loops
-- ---------------------------------------------------------------------------

/-- The `while True` of both methods, to a number of turns: `none` is not done
yet. A name that is taken (code 114) makes way for the next one, or ends the
loop where no new names are to be made. -/
def tryNames (attempt : String → Prog σ Exn ν Unit) (createNew : Bool) :
    (turns : Nat) → (name : String) → Prog σ Exn ν (Option String)
  | 0, _ => pure none
  | turns + 1, name =>
    tryCatch
      (do
        attempt name
        pure (some name))
      fun e => match e with
        | .cloudShellApi code _ =>
          if code ≠ "114" then throw e
          else if createNew then
            tryNames attempt createNew turns (generateNewResourceName unicodeDigit name)
          else pure (some name)
        | _ => throw e

/-- `CloudShellHandler.create_resource` -/
def createResource (api : Api) (turns : Nat) (name model address family parentPath : String)
    (createNewResourcesIfExists : Bool) : Cs σ (Option String) :=
  tryNames unicodeDigit
    (fun name => Prog.call (api.createResource · family model name address parentPath)
      (.createResource family model name address parentPath))
    createNewResourcesIfExists turns name

structure RenameEvent where
  currentName : String
  newName : String
  r : Except Exn Unit

/-- `CloudShellHandler.rename_resource`, with what `RenameResource` answers. -/
def renameResource (reply : List RenameEvent → String → String → Except Exn Unit) (turns : Nat)
    (currentName newName : String) : Prog σ Exn RenameEvent (Option String) :=
  tryNames unicodeDigit
    (fun newName => Prog.call (reply · currentName newName) (⟨currentName, newName, ·⟩))
    true turns newName

/-- Without new names the loop is the `create_resource` that the handlers call. -/
theorem createResource_without_new (api : Api) (turns : Nat)
    (name model address family parentPath : String) (s : σ) (log : List Event) :
    createResource unicodeDigit api (turns + 1) name model address family parentPath false s log =
      (do
        let name ← CloudShellHandler.createResource api name model address family parentPath
        pure (some name)) s log := by
  simp only [createResource, tryNames, CloudShellHandler.createResource, run_bind, run_tryCatch,
    run_call]
  cases api.createResource log family model name address parentPath with
  | ok _ => rfl
  | error e =>
    cases e with
    | cloudShellApi code message =>
      by_cases hcode : code = "114"
      · simp [hcode]
      · simp [hcode]
    | _ => rfl

/-- The CloudShell answers code 114 exactly for a name that is taken. -/
def AnswersTaken (taken : Finset String) (reply : List ν → String → Except Exn Unit) : Prop :=
  ∀ log name, (name ∈ taken → ∃ msg, reply log name = .error (.cloudShellApi "114" msg)) ∧
    (name ∉ taken → reply log name = .ok ())

section
variable {unicodeDigit}

theorem tryNames_run {reply : List ν → String → Except Exn Unit}
    {event : String → Except Exn Unit → ν} {taken : Finset String} (h : AnswersTaken taken reply)
    {n : Nat} (hn : IsFirst (generateNewResourceName unicodeDigit) taken name n)
    (hturns : n < turns) (s : σ) (log : List ν) :
    ∃ answers : Nat → Except Exn Unit,
      tryNames unicodeDigit (fun name => Prog.call (reply · name) (event name)) true turns name s
          log =
        (.ok (some ((generateNewResourceName unicodeDigit)^[n] name)), s,
          log ++ (List.range (n + 1)).map fun i =>
            event ((generateNewResourceName unicodeDigit)^[i] name) (answers i)) := by
  induction n generalizing name turns log with
  | zero =>
    obtain ⟨turns, rfl⟩ := Nat.exists_eq_succ_of_ne_zero (Nat.ne_zero_of_lt hturns)
    have hfree : reply log name = .ok () := (h log name).2 hn.1
    refine ⟨fun _ => .ok (), ?_⟩
    simp [tryNames, run_tryCatch, run_bind, hfree]
  | succ n ih =>
    obtain ⟨turns, rfl⟩ := Nat.exists_eq_succ_of_ne_zero (Nat.ne_zero_of_lt hturns)
    obtain ⟨msg, htaken⟩ := (h log name).1 (hn.2 0 (Nat.succ_pos n))
    obtain ⟨answers, hrun⟩ := ih hn.pred (Nat.lt_of_succ_lt_succ hturns)
      (log ++ [event name (.error (.cloudShellApi "114" msg))])
    refine ⟨fun i => if i = 0 then .error (.cloudShellApi "114" msg) else answers (i - 1), ?_⟩
    rw [List.range_succ_eq_map]
    simp [tryNames, run_tryCatch, run_bind, htaken, hrun]

/-- Both methods end, having tried the iterated names in their order, all of
them different, up to the first that is free, which they return. -/
theorem new_names_end {api : Api} {rename : List RenameEvent → String → String → Except Exn Unit}
    {taken : Finset String} (model address family parentPath currentName : String)
    (hcreate : AnswersTaken taken fun log name =>
      api.createResource log family model name address parentPath)
    (hrename : AnswersTaken taken fun log name => rename log currentName name) (name : String) :
    let names (i : Nat) := (generateNewResourceName unicodeDigit)^[i] name
    Function.Injective names ∧
      ∃ n, names n ∉ taken ∧ (∀ i < n, names i ∈ taken) ∧
        ∀ turns > n, ∀ s : σ,
          (∀ log, ∃ answers : Nat → Except Exn Unit,
            createResource unicodeDigit api turns name model address family parentPath true s log =
              (.ok (some (names n)), s, log ++ (List.range (n + 1)).map fun i =>
                .createResource family model (names i) address parentPath (answers i))) ∧
          ∀ log, ∃ answers : Nat → Except Exn Unit,
            renameResource unicodeDigit rename turns currentName name s log =
              (.ok (some (names n)), s, log ++ (List.range (n + 1)).map fun i =>
                ⟨currentName, names i, answers i⟩) := by
  have hinj : Function.Injective fun n => (generateNewResourceName unicodeDigit)^[n] name :=
    iterate_injective generate_never_back name
  obtain ⟨n, hn⟩ := exists_isFirst hinj taken
  refine ⟨hinj, n, hn.1, hn.2, fun turns hturns s => ⟨fun log => ?_, fun log => ?_⟩⟩
  · exact tryNames_run hcreate hn hturns s log
  · exact tryNames_run hrename hn hturns s log

end

def takenApi (taken : Finset String) : Api :=
  { Api.obliging with
    createResource := fun _ _ _ name _ _ =>
      if name ∈ taken then .error (.cloudShellApi "114" "taken") else .ok () }

def takenRename (taken : Finset String) (_ : List RenameEvent) (_ newName : String) :
    Except Exn Unit :=
  if newName ∈ taken then .error (.cloudShellApi "114" "taken") else .ok ()

theorem answersTaken_rename (taken : Finset String) (currentName : String) :
    AnswersTaken taken fun log name => takenRename taken log currentName name := by
  refine fun log name => ⟨fun h => ⟨"taken", ?_⟩, fun h => ?_⟩
  · simp [takenRename, h]
  · simp [takenRename, h]

theorem answersTaken_create (taken : Finset String) (family model address parentPath : String) :
    AnswersTaken taken fun log name =>
      (takenApi taken).createResource log family model name address parentPath :=
  fun _ name => answersTaken_rename taken "" [] name

theorem new_names_end_taken :
    ∃ n, (generateNewResourceName fun _ => none)^[n] "r-01" ∉ ({"r-01", "r-2"} : Finset String) ∧
      ∀ i < n, (generateNewResourceName fun _ => none)^[i] "r-01" ∈
        ({"r-01", "r-2"} : Finset String) := by
  obtain ⟨-, n, hn, hbefore, -⟩ := new_names_end (σ := Unit) "" "" "" "" "old"
    (answersTaken_create {"r-01", "r-2"} "" "" "" "")
    (answersTaken_rename {"r-01", "r-2"} "old") "r-01"
  exact ⟨n, hn, hbefore⟩

example : (createResource (fun _ => none) (takenApi {"r-01", "r-2"}) 5 "r-01" "" "" "" "" true ()
    []).1 = .ok (some "r-3") := by decide

end ResourceNames

end ShellTests
