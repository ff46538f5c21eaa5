import Mathlib.Logic.Function.Basic
import ShellTests.Handlers

/-!
# Installing a shell

`install_shell` adds a shell, and where CloudShell has one of its name it reads
that name from the refusal and updates the shell instead. The shells that
CloudShell has are a table of the packages that they were last installed from.
-/

namespace ShellTests.InstallShell

open Prog

-- ---------------------------------------------------------------------------
-- The name in the refusal
-- ---------------------------------------------------------------------------

def refusal (opening name : String) : String := opening ++ "named '" ++ name ++ "' already exists"

theorem greedyBefore_short {tail cs : List Char} (h : cs.length ≤ tail.length) :
    greedyBefore tail cs = none := by
  induction cs with
  | nil => rfl
  | cons c cs ih =>
    rw [List.length_cons] at h
    have hnot : ¬ tail <+: cs := fun hp => absurd hp.length_le (by omega)
    unfold greedyBefore
    rw [ih (Nat.le_of_succ_le h)]
    simp [hnot]

theorem greedyBefore_append {tail name : List Char} (hne : name ≠ []) (hline : '\n' ∉ name) :
    greedyBefore tail (name ++ tail) = some name := by
  induction name with
  | nil => exact absurd rfl hne
  | cons c cs ih =>
    rw [List.mem_cons, not_or] at hline
    rw [List.cons_append, greedyBefore, if_neg (Ne.symm hline.1)]
    cases cs with
    | nil =>
      rw [List.nil_append, greedyBefore_short (le_refl _)]
      simp
    | cons c' cs' => rw [ih (by simp) hline.2]

/-- A text that begins in `opening` does not begin the head, so that the search
comes to the head at its end. -/
theorem searchBetween_append {head tail opening rest : List Char}
    (hopening : ∀ suffix, suffix <:+ opening → suffix ≠ [] → ¬ head <+: suffix ++ rest) :
    searchBetween head tail (opening ++ rest) = searchBetween head tail rest := by
  induction opening with
  | nil => rfl
  | cons c opening ih =>
    have hhere : ¬ head <+: c :: (opening ++ rest) :=
      hopening (c :: opening) List.suffix_rfl (by simp)
    rw [List.cons_append, searchBetween]
    simp only [List.isPrefixOf_iff_prefix, hhere, if_false]
    exact ih fun suffix hs => hopening suffix (hs.trans (List.suffix_cons _ _))

def head : List Char := "named '".toList

theorem head_borderless (h : head = front ++ back) (hfront : front ≠ []) (hback : back ≠ []) :
    ¬ back <+: head := by
  have hall : ∀ k < 7, 0 < k → ¬ head.drop k <+: head := by decide
  have hlength := congrArg List.length h
  rw [List.length_append] at hlength
  have hpos := List.length_pos_iff.mpr hback
  have hdrop : back = head.drop front.length := by rw [h, List.drop_left]
  have hhead : head.length = 7 := rfl
  rw [hdrop]
  exact hall _ (by omega) (List.length_pos_iff.mpr hfront)

theorem not_head_prefix {opening : List Char} (hopening : ¬ head <:+: opening)
    (hs : suffix <:+ opening) (hne : suffix ≠ []) (rest : List Char) :
    ¬ head <+: suffix ++ (head ++ rest) := by
  rintro ⟨post, heq⟩
  obtain ⟨more, rfl, -⟩ | ⟨back, hhead, hrest⟩ := List.append_eq_append_iff.mp heq
  · exact hopening ((List.prefix_append head more).isInfix.trans hs.isInfix)
  · cases back with
    | nil =>
      rw [List.append_nil] at hhead
      exact hopening (hhead ▸ hs.isInfix)
    | cons c back =>
      have hshort : (c :: back).length ≤ head.length := by
        rw [hhead, List.length_append]
        omega
      have hp : c :: back <+: head ++ rest := ⟨post, hrest.symm⟩
      exact head_borderless hhead hne (by simp)
        (List.prefix_of_prefix_length_le hp (List.prefix_append head rest) hshort)

theorem existingShellName_refusal {opening name : String}
    (hopening : mentions "named '" opening = false) (hne : name ≠ "")
    (hline : '\n' ∉ name.toList) : existingShellName (refusal opening name) = some name := by
  have hinfix : ¬ head <:+: opening.toList := of_decide_eq_false hopening
  have htext : (refusal opening name).toList =
      opening.toList ++ (head ++ (name.toList ++ "' already exists".toList)) := by
    simp [refusal, head]
  change (searchBetween head "' already exists".toList _).map String.ofList = _
  rw [htext, searchBetween_append fun suffix hs hs' => not_head_prefix hinfix hs hs' _]
  have hname : name.toList ≠ [] := by simpa using hne
  have hgroup : searchBetween head "' already exists".toList
      (head ++ (name.toList ++ "' already exists".toList)) = some name.toList := by
    have hcons : head ++ (name.toList ++ "' already exists".toList) =
        'n' :: ("amed '".toList ++ (name.toList ++ "' already exists".toList)) := rfl
    rw [hcons, searchBetween, ← hcons]
    simp [greedyBefore_append hname hline]
  rw [hgroup]
  simp

-- ---------------------------------------------------------------------------
-- The shells of CloudShell
-- ---------------------------------------------------------------------------

/-- The package that each shell was last installed from. -/
abbrev Shells := String → Option String

section
variable (nameOf : String → String)

/-- The shells after a call; a call that fails is taken to have changed none. -/
def Shells.after (shells : Shells) : Event → Shells
  | .addShell path (.ok ()) => Function.update shells (nameOf path) (some path)
  | .updateShell path name (.ok ()) => Function.update shells name (some path)
  | .deleteShell name (.ok ()) => Function.update shells name none
  | _ => shells

def Shells.run (shells : Shells) (evs : List Event) : Shells :=
  evs.foldl (Shells.after nameOf) shells

/-- What CloudShell does: a refusal of a shell that is there names it. -/
structure NamesExisting (api : Api) (opening : String) : Prop where
  noHead : mentions "named '" opening = false
  valid : ∀ path, nameOf path ≠ "" ∧ '\n' ∉ (nameOf path).toList
  refuses : ∀ log path e msg, api.addShell log path = .error e → e.firstArg = some msg →
    mentions "already exists" msg = true → msg = refusal opening (nameOf path)

end

def Event.isAddShell : Event → Bool
  | .addShell _ _ => true
  | _ => false

/-- What an installation comes to: the package is in and all else as before, or
no shell has changed. -/
structure Installed (nameOf : String → String) (path : String) (r : Except Exn Unit)
    (evs : List Event) : Prop where
  ok : r = .ok () → ∀ shells : Shells,
    shells.run nameOf evs = Function.update shells (nameOf path) (some path)
  error : ∀ e, r = .error e → ∀ shells : Shells, shells.run nameOf evs = shells

section
variable {nameOf : String → String} {api : Api} {opening path : String} {σ : Type}

@[simp] theorem Shells.run_append (shells : Shells) (evs evs' : List Event) :
    shells.run nameOf (evs ++ evs') = (shells.run nameOf evs).run nameOf evs' :=
  List.foldl_append

theorem Installed.frame (hok : Installed nameOf path r evs') (h : ∀ shells : Shells,
    shells.run nameOf evs = shells) : Installed nameOf path r (evs ++ evs') where
  ok hr shells := by rw [Shells.run_append, h, hok.ok hr]
  error e hr shells := by rw [Shells.run_append, h, hok.error e hr]

theorem installShellOnce_triple (h : NamesExisting nameOf api opening) (path : String) (s : σ) :
    Triple (CloudShellHandler.installShellOnce api path) s fun r s' evs =>
      s' = s ∧ Installed nameOf path r evs ∧ evs.countP Event.isAddShell = 1 := by
  have hadd : Triple (Prog.call (api.addShell · path) (.addShell path) : Cs σ Unit) s
      fun r s' evs => s' = s ∧ evs = [.addShell path r] ∧ ∀ e msg, r = .error e →
        e.firstArg = some msg → mentions "already exists" msg = true →
          msg = refusal opening (nameOf path) :=
    fun log => ⟨_, _, _, rfl, rfl, rfl, fun e msg he => h.refuses log path e msg he⟩
  refine .tryCatch' hadd ?_ ?_
  · rintro ⟨⟩ s' evs ⟨rfl, rfl, -⟩
    exact ⟨rfl, ⟨fun _ _ => rfl, nofun⟩, rfl⟩
  rintro e s' evs ⟨rfl, rfl, hrefused⟩
  have hraised : Installed nameOf path (.error e) [.addShell path (.error e)] :=
    ⟨nofun, fun _ _ _ => rfl⟩
  have hended (e' : Exn) : Installed nameOf path (.error e') [.addShell path (.error e)] :=
    ⟨nofun, fun _ _ _ => rfl⟩
  split
  · beta_reduce
    split
    · exact .throw' ⟨rfl, hended _, rfl⟩
    split
    · rename_i msg hmsg hexists
      rw [hrefused e msg rfl hmsg hexists,
        existingShellName_refusal h.noHead (h.valid path).1 (h.valid path).2]
      refine .call' fun r => ⟨rfl, .frame ?_ (hraised.error e rfl), rfl⟩
      cases r with
      | ok _ => exact ⟨fun _ _ => rfl, nofun⟩
      | error e' => exact ⟨nofun, fun _ _ _ => rfl⟩
    · exact .throw' ⟨rfl, hraised, rfl⟩
  · exact .throw' ⟨rfl, hraised, rfl⟩

theorem retry_installs (h : NamesExisting nameOf api opening) (path : String) (n : Nat) (s : σ) :
    Triple (retry CloudShellHandler.retryOnInvalidDriver
        (CloudShellHandler.installShellOnce api path) n) s fun r s' evs =>
      s' = s ∧ Installed nameOf path r evs ∧ evs.countP Event.isAddShell ≤ n + 1 ∧
        ∀ e, r = .error e → CloudShellHandler.retryOnInvalidDriver e →
          evs.countP Event.isAddShell = n + 1 := by
  induction n generalizing s with
  | zero =>
    refine (installShellOnce_triple h path s).mono fun r s' evs hevs => ?_
    exact ⟨hevs.1, hevs.2.1, hevs.2.2.le, fun _ _ _ => hevs.2.2⟩
  | succ n ih =>
    refine .tryCatch' (installShellOnce_triple h path s) ?_ ?_
    · rintro _ s' evs ⟨rfl, hinstalled, hcount⟩
      exact ⟨rfl, hinstalled, by omega, nofun⟩
    · rintro e s' evs ⟨rfl, hinstalled, hcount⟩
      split
      · refine (ih s').mono ?_
        rintro r s'' evs' ⟨rfl, hinstalled', hle, hall⟩
        refine ⟨rfl, hinstalled'.frame (hinstalled.error e rfl), ?_, fun e' he' hagain => ?_⟩
        · rw [List.countP_append]
          omega
        · have hlast := hall e' he' hagain
          rw [List.countP_append]
          omega
      · rename_i hagain
        refine .throw' ⟨rfl, by simpa using hinstalled, by simp [hcount], ?_⟩
        rintro _ ⟨⟩ he'
        exact absurd he' hagain

/-- An installation puts the package in under the name of its shell, whether
the shell is new or not, or changes no shell at all; it asks at most seven
times, and seven times where an invalid driver is the end of it. -/
theorem installShell_upserts (h : NamesExisting nameOf api opening) (path : String) (s : σ) :
    Triple (CloudShellHandler.installShell api path) s fun r s' evs =>
      s' = s ∧ Installed nameOf path r evs ∧ evs.countP Event.isAddShell ≤ 7 ∧
        ∀ e, r = .error e → CloudShellHandler.retryOnInvalidDriver e →
          evs.countP Event.isAddShell = 7 :=
  retry_installs h path 6 s

def Api.taken : Api := { Api.obliging with
  addShell := fun _ _ => .error (.other (refusal "A shell " "Shell"))
  updateShell := fun log _ _ =>
    if log.length < 2 then .error (.other "Invalid driver") else .ok () }

theorem namesExisting_taken : NamesExisting (fun _ => "Shell") Api.taken "A shell " where
  noHead := by decide
  valid _ := by decide
  refuses := by
    rintro log path e msg ⟨⟩ ⟨⟩ -
    rfl

theorem installShell_upserts_taken : ∃ evs,
    CloudShellHandler.installShell Api.taken "s.zip" () [] = (.ok (), (), evs) ∧
      evs.countP Event.isAddShell ≤ 7 ∧ ∀ shells : Shells,
        shells.run (fun _ => "Shell") evs = Function.update shells "Shell" (some "s.zip") := by
  obtain ⟨r, s', evs, hrun, -, hinstalled, hle, -⟩ :=
    installShell_upserts namesExisting_taken "s.zip" () []
  have hok : (CloudShellHandler.installShell Api.taken "s.zip" () []).1 = .ok () := by
    decide +kernel
  rw [hrun] at hok
  obtain rfl : r = .ok () := hok
  exact ⟨evs, hrun, hle, hinstalled.ok rfl⟩

end

end ShellTests.InstallShell
