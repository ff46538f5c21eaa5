import ShellTests.Creation
import ShellTests.InstallShell
import ShellTests.Ownership

/-!
# The shells that a storage leaves behind

The table of shells over the creation of one handler, over the reads of the
properties, and over `finish`. A session that ends well leaves CloudShell with
the shells that it had, less those it removed and with those whose removal
CloudShell refused.
-/

namespace ShellTests.InstallShell

open Prog HandlerStorage

/-- What `finish` of a shell passes over. -/
def passedOver : Exn → Bool
  | .shellNotFound => true
  | e => e.isException && mentions "This shell is used" e.str

def Event.onShells : Event → Bool
  | .addShell .. | .updateShell .. | .deleteShell .. => true
  | _ => false

-- ---------------------------------------------------------------------------
-- One shell
-- ---------------------------------------------------------------------------

section
variable {nameOf : String → String} {api : Api} {opening : String} {σ : Type}
  {conf : ShellConfig} {definition : ShellDefinition}

/-- A removal tries to delete the shell; it is gone if that is answered well. -/
structure Removal (nameOf : String → String) (name : String) (evs : List Event) : Prop where
  tries : .deleteShell name ∈ releases evs
  gone : .deleteShell name (.ok ()) ∈ evs → ∀ shells : Shells,
    shells.run nameOf evs = Function.update shells name none
  refused : .deleteShell name (.ok ()) ∉ evs → ∀ shells : Shells, shells.run nameOf evs = shells

/-- The shell is not there, or its removal was refused in a way that is passed over. -/
def Removed (nameOf : String → String) (name : String) (evs : List Event) : Prop :=
  (∀ shells : Shells, shells.run nameOf evs name = none) ∨
    ∃ e, .deleteShell name (.error e) ∈ evs ∧ passedOver e

theorem run_of_others (h : ∀ e ∈ evs, Event.onShells e = false) (shells : Shells) :
    shells.run nameOf evs = shells := by
  induction evs generalizing shells with
  | nil => rfl
  | cons e evs ih =>
    have hother := h e (by simp)
    have hafter : shells.after nameOf e = shells := by
      cases e
      case addShell => cases hother
      case updateShell => cases hother
      case deleteShell => cases hother
      all_goals rfl
    calc Shells.run nameOf shells (e :: evs)
      _ = Shells.run nameOf (shells.after nameOf e) evs := rfl
      _ = shells := by rw [hafter, ih fun e' he' => h e' (by simp [he'])]

section
variable {evs : List Event} (answer : Except Exn Unit) (name : String)
  (h : ∀ e ∈ evs, Event.onShells e = false)
include h

theorem deleteShell_mem (answer' : Except Exn Unit) :
    Event.deleteShell name answer' ∈ .deleteShell name answer :: evs ↔ answer' = answer := by
  constructor
  · rintro (_ | ⟨_, hmem⟩)
    · rfl
    · exact absurd (h _ hmem) (by simp [Event.onShells])
  · rintro rfl
    simp

theorem removal_cons : Removal nameOf name (.deleteShell name answer :: evs) where
  tries := List.mem_filterMap.mpr ⟨_, List.mem_cons_self, rfl⟩
  gone hok shells := by
    obtain rfl := (deleteShell_mem answer name h _).mp hok
    exact run_of_others h _
  refused hno shells := by
    cases answer with
    | ok _ => exact absurd List.mem_cons_self hno
    | error e => exact run_of_others h shells

theorem removed_cons (hanswer : ∀ e, answer = .error e → passedOver e) :
    Removed nameOf name (.deleteShell name answer :: evs) := by
  cases answer with
  | ok _ =>
    refine .inl fun shells => ?_
    have hremoval : Removal nameOf name _ := removal_cons (.ok ()) name h
    rw [hremoval.gone List.mem_cons_self, Function.update_self]
  | error e => exact .inr ⟨e, List.mem_cons_self, hanswer e rfl⟩

end

variable (nameOf) in
theorem finish_removes (hasSmb : Bool) (h : ShellHandler) (s : σ) :
    Triple (ShellHandler.finish api hasSmb h) s fun r s' evs =>
      s' = s ∧ Removal nameOf h.csShellName evs ∧
        (r = .ok () → Removed nameOf h.csShellName evs) := by
  have hquietly : Triple (ShellHandler.removeQuietly api h) s fun r s' evs =>
      s' = s ∧ ∃ answer, evs = [.deleteShell h.csShellName answer] ∧
        (r = .ok () → ∀ e, answer = .error e → passedOver e) := by
    refine .tryCatch' (Q := fun r s' evs => s' = s ∧ evs = [.deleteShell h.csShellName r])
      (.call' fun r => ⟨rfl, rfl⟩) ?_ ?_
    · rintro _ s' evs ⟨rfl, rfl⟩
      exact ⟨rfl, _, rfl, fun _ => by simp⟩
    · rintro e s' evs ⟨rfl, rfl⟩
      split
      · exact .pure' ⟨rfl, _, rfl, by rintro - _ ⟨⟩; rfl⟩
      split
      · rename_i hused
        refine .pure' ⟨rfl, _, rfl, ?_⟩
        rintro - _ ⟨⟩
        unfold passedOver
        split <;> simp [hused]
      · exact .throw' ⟨rfl, _, rfl, by simp⟩
  refine .bind hquietly ?_ ?_
  · rintro _ s' evs ⟨rfl, answer, rfl, hanswer⟩
    split
    · refine .call' fun r => ⟨rfl, removal_cons answer _ ?_, fun _ => ?_⟩
      · simp [Event.onShells]
      · exact removed_cons answer _ (by simp [Event.onShells]) (hanswer rfl)
    · exact .pure' ⟨rfl, removal_cons answer _ (by simp), fun _ =>
        removed_cons answer _ (by simp) (hanswer rfl)⟩
  · rintro e s' evs ⟨rfl, answer, rfl, -⟩
    exact ⟨rfl, removal_cons answer _ (by simp), by simp⟩

theorem tryPrepare_installs (hapi : NamesExisting nameOf api opening) (hasSmb : Bool)
    (h : ShellHandler) (s : σ) :
    Triple (do ShellHandler.storeExtraFiles api hasSmb h
               CloudShellHandler.installShell api h.conf.path) s fun r s' evs =>
      s' = s ∧ Installed nameOf h.conf.path r evs := by
  have hextra : Triple (ShellHandler.storeExtraFiles api hasSmb h) s fun _ s' evs =>
      s' = s ∧ ∀ e ∈ evs, Event.onShells e = false :=
    h.storeExtraFiles_emits api hasSmb (fun _ _ => rfl) (fun _ _ => rfl) s
  refine .bind hextra ?_ fun e s' evs ⟨hs, hevs⟩ => ⟨hs, nofun, fun _ _ => run_of_others hevs⟩
  rintro _ s' evs ⟨rfl, hevs⟩
  refine (retry_installs hapi h.conf.path 6 s').mono ?_
  rintro r s'' evs' ⟨rfl, hinstalled, -⟩
  exact ⟨rfl, hinstalled.frame (run_of_others hevs)⟩

/-- What a creation comes to: the package is in, or the shell of that name is
removed, whoever installed it, unless the removal was refused or not tried. -/
structure Created (nameOf : String → String) (conf : ShellConfig) (name : String)
    (r : Except Exn ShellHandler) (evs : List Event) : Prop where
  ok : ∀ h, r = .ok h → h.csShellName = name ∧ ∀ shells : Shells,
    shells.run nameOf evs = Function.update shells name (some conf.path)
  tries : ∀ e, r = .error e → e.isException → .deleteShell name ∈ releases evs
  gone : ∀ e, r = .error e → .deleteShell name (.ok ()) ∈ evs → ∀ shells : Shells,
    shells.run nameOf evs = Function.update shells name none
  kept : ∀ e, r = .error e → .deleteShell name (.ok ()) ∉ evs → ∀ shells : Shells,
    shells.run nameOf evs = shells

theorem create_created (hapi : NamesExisting nameOf api opening) (hasSmb : Bool)
    (hdef : conf.definition = some definition)
    (hname : nameOf conf.path = definition.templateName) (s : σ) :
    Triple (ShellHandler.create api hasSmb conf) s fun r s' evs =>
      s' = s ∧ Created nameOf conf definition.templateName r evs := by
  let handler : ShellHandler := ⟨conf, definition.model, definition.templateName⟩
  have hprepare : Triple (ShellHandler.prepare api hasSmb handler) s fun r s' evs =>
      s' = s ∧ Created nameOf conf definition.templateName (r.map fun _ => handler) evs := by
    refine .tryCatch' ((tryPrepare_installs hapi hasSmb handler s).and
      ((ShellHandler.tryPrepare_emits api hasSmb handler fun _ _ he => he).events s)) ?_ ?_
    · rintro _ s' evs ⟨⟨rfl, hinstalled⟩, -⟩
      refine ⟨rfl, ?_, by simp [Except.map], by simp [Except.map], by simp [Except.map]⟩
      rintro _ ⟨⟩
      exact ⟨rfl, hname ▸ hinstalled.ok rfl⟩
    · rintro e s' evs ⟨⟨rfl, hinstalled⟩, hquiet⟩
      have hnone (answer : Except Exn Unit) :
          Event.deleteShell definition.templateName answer ∉ evs :=
        fun hmem => by simpa [Event.release?] using hquiet _ hmem
      have hremoval {evs' : List Event} (r : Except Exn Unit) (e' : Exn) (hr : r = .error e')
          (h : Removal nameOf definition.templateName evs') :
          Created nameOf conf definition.templateName (r.map fun _ => handler) (evs ++ evs') := by
        subst hr
        refine ⟨by simp [Except.map], fun _ _ _ => ?_, fun _ _ hmem shells => ?_,
          fun _ _ hmem shells => ?_⟩
        · rw [releases_append]
          exact List.mem_append_right _ h.tries
        · have hmem' := (List.mem_append.mp hmem).resolve_left (hnone _)
          rw [Shells.run_append, hinstalled.error e rfl, h.gone hmem']
        · have hmem' := fun hm => hmem (List.mem_append_right _ hm)
          rw [Shells.run_append, hinstalled.error e rfl, h.refused hmem']
      split
      · refine .bind (finish_removes nameOf hasSmb handler s') ?_ ?_
        · rintro _ s'' evs' ⟨rfl, h, -⟩
          refine .throw' ⟨rfl, ?_⟩
          simpa using hremoval (.error e) e rfl h
        · rintro e' s'' evs' ⟨rfl, h, -⟩
          exact ⟨rfl, hremoval (.error e') e' rfl h⟩
      · rename_i hnot
        refine .throw' ⟨rfl, ?_⟩
        rw [List.append_nil]
        refine ⟨by simp [Except.map], ?_, fun _ _ hmem => absurd hmem (hnone _), fun _ _ _ => ?_⟩
        · rintro _ ⟨⟩ he
          exact absurd he hnot
        · exact hinstalled.error e rfl
  unfold ShellHandler.create
  rw [hdef]
  refine .bind hprepare ?_ ?_
  · rintro _ s' evs ⟨rfl, h⟩
    exact .pure' ⟨rfl, by rw [List.append_nil]; exact h⟩
  · rintro e s' evs ⟨rfl, h⟩
    exact ⟨rfl, h⟩

end

-- ---------------------------------------------------------------------------
-- All shells
-- ---------------------------------------------------------------------------

/-- A shell is as it was, or removed, or one of `names`. -/
def Leaves (nameOf : String → String) (names : List String) (evs : List Event) : Prop :=
  ∀ (shells : Shells) name,
    shells.run nameOf evs name = shells name ∨ shells.run nameOf evs name = none ∨ name ∈ names

def Shells.install (shells : Shells) (nameOf : String → String) (path : String) : Shells :=
  Function.update shells (nameOf path) (some path)

section
variable {nameOf : String → String} {evs evs' : List Event} {names names' : List String}

theorem leaves_of_run (h : ∀ shells : Shells, shells.run nameOf evs = shells) :
    Leaves nameOf names evs := fun shells name => .inl (by rw [h])

theorem Leaves.mono (h : Leaves nameOf names evs) (hsub : names ⊆ names') :
    Leaves nameOf names' evs := fun shells name => (h shells name).imp id (·.imp id (hsub ·))

theorem Leaves.append (h : Leaves nameOf names evs) (h' : Leaves nameOf names' evs') :
    Leaves nameOf (names ++ names') (evs ++ evs') := by
  intro shells name
  rw [Shells.run_append, List.mem_append]
  obtain hsame | hnone | hmem := h' (shells.run nameOf evs) name
  · rw [hsame]
    exact (h shells name).imp id (·.imp id .inl)
  · exact .inr (.inl hnone)
  · exact .inr (.inr (.inr hmem))

theorem leaves_of_removal (h : ∀ shells : Shells,
    shells.run nameOf evs = shells ∨ shells.run nameOf evs = Function.update shells name none) :
    Leaves nameOf [] evs := by
  intro shells other
  obtain hsame | hgone := h shells
  · exact .inl (by rw [hsame])
  · rw [hgone, Function.update_apply]
    by_cases ho : other = name
    · exact .inr (.inl (if_pos ho))
    · exact .inl (if_neg ho)

theorem Removal.leaves (h : Removal nameOf name evs) : Leaves nameOf [] evs := by
  by_cases hok : Event.deleteShell name (.ok ()) ∈ evs
  · exact leaves_of_removal fun shells => .inr (h.gone hok shells)
  · exact leaves_of_run (h.refused hok)

theorem Created.leaves {conf : ShellConfig} (h : Created nameOf conf name r evs) :
    Leaves nameOf (r.toOption.toList.map ShellHandler.csShellName) evs := by
  cases r with
  | ok handler =>
    intro shells other
    obtain ⟨hname, hrun⟩ := h.ok handler rfl
    rw [hrun, Function.update_apply]
    by_cases ho : other = name
    · exact .inr (.inr (by simp [Except.toOption, hname, ho]))
    · exact .inl (if_neg ho)
  | error e =>
    by_cases hok : Event.deleteShell name (.ok ()) ∈ evs
    · exact leaves_of_removal fun shells => .inr (h.gone e rfl hok shells)
    · exact leaves_of_run (h.kept e rfl hok)

theorem handlersOf_cons (r : Except Exn η) (futures : List (Except Exn η)) :
    handlersOf (r :: futures) = r.toOption.toList ++ handlersOf futures := by
  cases r <;> rfl

/-- The archives are what they are named after. -/
def Named (nameOf : String → String) (confs : List ShellConfig) : Prop :=
  ∀ conf ∈ confs, ∀ definition, conf.definition = some definition →
    nameOf conf.path = definition.templateName

theorem create_shells {api : Api} (hapi : NamesExisting nameOf api opening) (hasSmb : Bool)
    {conf : ShellConfig} (hnamed : Named nameOf [conf]) (s : σ) :
    Triple (ShellHandler.create api hasSmb conf) s fun r _ evs =>
      Leaves nameOf (r.toOption.toList.map ShellHandler.csShellName) evs ∧
        ((∃ h, r = .ok h) → ∀ shells : Shells,
          shells.run nameOf evs = shells.install nameOf conf.path) := by
  cases hdef : conf.definition with
  | none =>
    unfold ShellHandler.create
    rw [hdef]
    exact .throw' ⟨leaves_of_run fun _ => rfl, nofun⟩
  | some definition =>
    have hname := hnamed conf (by simp) definition hdef
    refine (create_created hapi hasSmb hdef hname s).mono ?_
    rintro r s' evs ⟨-, h⟩
    refine ⟨h.leaves, ?_⟩
    rintro ⟨handler, rfl⟩ shells
    rw [(h.ok handler rfl).2, Shells.install, hname]

theorem submit_shells {api : Nat → Api}
    (hapi : ∀ i, ∃ opening, NamesExisting nameOf (api i) opening)
    (confs : List ShellConfig) (hnamed : Named nameOf confs) (i : Nat) (st : HandlerStorage) :
    Triple (shells.submit api i confs) st fun r st' evs =>
      st' = st ∧ ∃ futures, r = .ok futures ∧
        Leaves nameOf ((handlersOf futures).map ShellHandler.csShellName) evs ∧
        ((∀ future ∈ futures, ∃ h, future = .ok h) → ∀ shells : Shells,
          shells.run nameOf evs =
            (confs.map ShellConfig.path).foldl (·.install nameOf) shells) := by
  induction confs generalizing i with
  | nil => exact .pure' ⟨rfl, [], rfl, leaves_of_run fun _ => rfl, fun _ _ => rfl⟩
  | cons conf confs ih =>
    have hhead : Named nameOf [conf] := by
      rintro c hc
      obtain rfl := List.mem_singleton.mp hc
      exact hnamed c (by simp)
    refine .bind (Q := fun r st' evs => r = .ok () ∧ st = st' ∧ evs = []) (.pure' ⟨rfl, rfl, rfl⟩)
      ?_ (by nofun)
    rintro _ _ _ ⟨-, rfl, rfl⟩
    refine .bind (.get' (Q := fun r st' evs => r = .ok st ∧ st = st' ∧ evs = []) ⟨rfl, rfl, rfl⟩)
      ?_ (by nofun)
    rintro _ _ _ ⟨⟨⟩, rfl, rfl⟩
    obtain ⟨opening, hnames⟩ := hapi i
    have hspawn : Triple (spawn (shells.create (api i) st conf ())) st fun r st' evs =>
        st' = st ∧ ∃ future, r = .ok future ∧
          Leaves nameOf (future.toOption.toList.map ShellHandler.csShellName) evs ∧
          ((∃ h, future = .ok h) → ∀ shells : Shells,
            shells.run nameOf evs = shells.install nameOf conf.path) :=
      .spawn' (create_shells hnames st.conf.hasCsSmb hhead ()) fun r evs h => ⟨rfl, r, rfl, h⟩
    refine .bind hspawn ?_ (by rintro _ _ _ ⟨-, _, ⟨⟩, -⟩)
    rintro _ _ evs ⟨rfl, future, ⟨⟩, hleaves, hin⟩
    refine .bind (ih (fun c hc => hnamed c (by simp [hc])) (i + 1)) ?_ ?_
    · rintro _ _ evs' ⟨rfl, futures, ⟨⟩, hleaves', hin'⟩
      refine .pure' ⟨rfl, _, rfl, ?_, fun hall shells => ?_⟩
      · rw [handlersOf_cons, List.map_append, List.append_nil]
        exact hleaves.append hleaves'
      · obtain ⟨hfuture, hfutures⟩ := List.forall_mem_cons.mp hall
        simp only [List.nil_append, List.append_nil]
        rw [Shells.run_append, hin hfuture, hin' hfutures]
        rfl
    · rintro _ _ _ ⟨-, _, ⟨⟩, -⟩

-- ---------------------------------------------------------------------------
-- The release of what is held
-- ---------------------------------------------------------------------------

theorem Removed.append (h : Removed nameOf name evs) (h' : Leaves nameOf [] evs') :
    Removed nameOf name (evs ++ evs') := by
  obtain hnone | ⟨e, hmem, he⟩ := h
  · refine .inl fun shells => ?_
    rw [Shells.run_append]
    obtain hsame | hnone' | hmem := h' (shells.run nameOf evs) name
    · rw [hsame, hnone]
    · exact hnone'
    · simp at hmem
  · exact .inr ⟨e, List.mem_append_left _ hmem, he⟩

theorem Removed.prepend (evs : List Event) (h : Removed nameOf name evs') :
    Removed nameOf name (evs ++ evs') := by
  obtain hnone | ⟨e, hmem, he⟩ := h
  · exact .inl fun shells => by rw [Shells.run_append, hnone]
  · exact .inr ⟨e, List.mem_append_right _ hmem, he⟩

variable (nameOf) in
theorem heldFinish_shells (api : Api) (hasSmb : Bool) (h : Held) (s : σ) :
    Triple (h.finish api hasSmb) s fun r s' evs =>
      s' = s ∧ Leaves nameOf [] evs ∧
        (r = .ok () → ∀ x, h = .shell x → Removed nameOf x.csShellName evs) := by
  cases h with
  | sandbox h =>
    refine (endReservation_emits api h.reservationId true (P := fun e => Event.onShells e = false)
      (fun _ => rfl) (fun _ => rfl) s).mono fun r s' evs ⟨hs, hevs⟩ => ?_
    exact ⟨hs, leaves_of_run (run_of_others hevs), by nofun⟩
  | resource h =>
    refine .call' fun r => ⟨rfl, leaves_of_run fun _ => rfl, by nofun⟩
  | shell h =>
    refine (finish_removes nameOf hasSmb h s).mono fun r s' evs ⟨hs, hgone, hok⟩ => ?_
    refine ⟨hs, hgone.leaves, ?_⟩
    rintro hr _ ⟨⟩
    exact hok hr

variable (nameOf) in
theorem eachHeld_shells (api : Api) (hasSmb : Bool) (hs : List Held) (s : σ) :
    Triple (each (Held.finish api hasSmb) hs) s fun r s' evs =>
      s' = s ∧ Leaves nameOf [] evs ∧
        (r = .ok () → ∀ x, .shell x ∈ hs → Removed nameOf x.csShellName evs) := by
  induction hs with
  | nil => exact .pure' ⟨rfl, leaves_of_run fun _ => rfl, by simp⟩
  | cons h hs ih =>
    refine .bind (heldFinish_shells nameOf api hasSmb h s) ?_
      fun _ _ _ ⟨hs, hleaves, _⟩ => ⟨hs, hleaves, by nofun⟩
    rintro _ s' evs ⟨rfl, hleaves, hhead⟩
    refine ih.mono ?_
    rintro r s'' evs' ⟨rfl, hleaves', htail⟩
    refine ⟨rfl, hleaves.append hleaves', fun hr x hx => ?_⟩
    obtain hx | hx := List.mem_cons.mp hx
    · exact (hhead rfl x hx.symm).append hleaves'
    · exact (htail hr x hx).prepend evs

def heldShells (st : HandlerStorage) : List String :=
  (st.shellMemo.getD []).map ShellHandler.csShellName

variable (nameOf) in
theorem finish_shells (api : Api) (st : HandlerStorage) :
    Triple (finish api) st fun r st' evs =>
      st' = st ∧ Leaves nameOf [] evs ∧
        (r = .ok () → ∀ name ∈ heldShells st, Removed nameOf name evs) := by
  have hloop : Triple (do each (Held.finish api st.conf.hasCsSmb) st.held
                          finishVcenter api st) st fun r st' evs =>
      st' = st ∧ Leaves nameOf [] evs ∧
        (r = .ok () → ∀ name ∈ heldShells st, Removed nameOf name evs) := by
    refine .bind (eachHeld_shells nameOf api st.conf.hasCsSmb st.held st) ?_
      fun _ _ _ ⟨hs, hleaves, _⟩ => ⟨hs, hleaves, by nofun⟩
    rintro _ st' evs ⟨rfl, hleaves, hremoved⟩
    have hvcenter : Emits (fun e => Event.onShells e = false) (finishVcenter api st') := by
      unfold finishVcenter
      split
      · exact .call' fun _ => rfl
      · exact .pure' ()
    refine (hvcenter st').mono fun r st'' evs' ⟨hst, hevs⟩ => ?_
    have hquiet : Leaves nameOf [] evs' := leaves_of_run (run_of_others hevs)
    refine ⟨hst, hleaves.append hquiet, fun _ name hname => ?_⟩
    obtain ⟨x, hx, rfl⟩ := List.mem_map.mp hname
    refine (hremoved rfl x ?_).append hquiet
    exact List.mem_append_right _ (List.mem_map_of_mem hx)
  intro log
  rw [finish_eq]
  exact hloop log

-- ---------------------------------------------------------------------------
-- The reads
-- ---------------------------------------------------------------------------

theorem lastException_eq_none {futures : List (Except Exn η)} :
    lastException futures = none ↔ ∀ future ∈ futures, ∃ h, future = .ok h := by
  induction futures with
  | nil => simp [lastException]
  | cons future futures ih => cases future <;> simp [lastException, ih]

variable (nameOf) in
theorem conclude_shells (api : Api) (done : List (Except Exn ShellHandler)) (st : HandlerStorage) :
    Triple (shells.conclude api done) st fun r st' evs =>
      st' = { st with shellMemo := some (handlersOf done) } ∧ Leaves nameOf [] evs ∧
        ∀ handlers, r = .ok handlers → evs = [] ∧ lastException done = none := by
  unfold Section.conclude
  refine .bind (.modify' (Q := fun r st' evs =>
    r = .ok ⟨⟩ ∧ { st with shellMemo := some (handlersOf done) } = st' ∧ evs = [])
    ⟨rfl, rfl, rfl⟩) ?_ (by nofun)
  rintro _ _ _ ⟨-, rfl, rfl⟩
  split
  · rename_i e hlast
    refine .bind (finish_shells nameOf api _) ?_ ?_
    · rintro _ _ evs ⟨rfl, hleaves, -⟩
      exact .throw' ⟨rfl, by simpa using hleaves, nofun⟩
    · rintro e' _ evs ⟨rfl, hleaves, -⟩
      exact ⟨rfl, hleaves, nofun⟩
  · rename_i hlast
    exact .pure' ⟨rfl, leaves_of_run fun _ => rfl, fun _ _ => ⟨rfl, hlast⟩⟩

theorem firstRead_run (w : World)
    (hapi : ∀ i, ∃ opening, NamesExisting nameOf (w.shells.api i) opening)
    (hmemo : st.shellMemo = none) (hnamed : Named nameOf st.conf.shellsConf) :
    Triple (shellHandlers w) st fun r st' evs => ∃ futures submitted concluded,
      evs = submitted ++ concluded ∧
      st' = { st with shellMemo := some (handlersOf (w.shells.iterate futures)) } ∧
      Leaves nameOf ((handlersOf futures).map ShellHandler.csShellName) submitted ∧
      Leaves nameOf [] concluded ∧
      ((∀ future ∈ futures, ∃ h, future = .ok h) → ∀ shells : Shells,
        shells.run nameOf submitted =
          (st.conf.shellsConf.map ShellConfig.path).foldl (·.install nameOf) shells) ∧
      ∀ handlers, r = .ok handlers →
        concluded = [] ∧ lastException (w.shells.iterate futures) = none := by
  intro log
  rw [shellHandlers, Section.read_first (p := shells) hmemo]
  refine Triple.bind (submit_shells hapi st.conf.shellsConf hnamed 0 _) ?_ ?_ log
  · rintro futures _ evs ⟨rfl, futures', hfutures, hleaves, hin⟩
    obtain rfl : futures = futures' := by simpa using hfutures
    refine (conclude_shells nameOf w.api (w.shells.iterate futures) _).mono ?_
    rintro r st' evs' ⟨rfl, hleaves', hok⟩
    exact ⟨futures, evs, evs', rfl, rfl, hleaves, hleaves', hin, hok⟩
  · rintro _ _ _ ⟨-, _, ⟨⟩, -⟩

theorem foldl_install_of_notMem {paths : List String} (h : name ∉ paths.map nameOf)
    (shells : Shells) : paths.foldl (·.install nameOf) shells name = shells name := by
  induction paths generalizing shells with
  | nil => rfl
  | cons path paths ih =>
    rw [List.map_cons, List.mem_cons, not_or] at h
    rw [List.foldl_cons, ih h.2, Shells.install, Function.update_of_ne h.1]

theorem foldl_install_of_mem {paths : List String} (hdistinct : (paths.map nameOf).Nodup)
    (hpath : path ∈ paths) (shells : Shells) :
    paths.foldl (·.install nameOf) shells (nameOf path) = some path := by
  induction paths generalizing shells with
  | nil => cases hpath
  | cons first paths ih =>
    obtain ⟨hfirst, hrest⟩ := List.nodup_cons.mp hdistinct
    rw [List.foldl_cons]
    obtain rfl | hpath := List.mem_cons.mp hpath
    · rw [foldl_install_of_notMem hfirst, Shells.install, Function.update_self]
    · exact ih hrest hpath _

/-- A first read of the shells that returns has installed the package of each
conf, if their shells have different names, and changed no other shell. -/
theorem firstRead_installs (w : World)
    (hapi : ∀ i, ∃ opening, NamesExisting nameOf (w.shells.api i) opening)
    (st : HandlerStorage) (hmemo : st.shellMemo = none)
    (hnamed : Named nameOf st.conf.shellsConf)
    (hdistinct : ((st.conf.shellsConf.map ShellConfig.path).map nameOf).Nodup) :
    Triple (shellHandlers w) st fun r _ evs => ∀ handlers, r = .ok handlers →
      ∀ shells : Shells,
        (∀ path ∈ st.conf.shellsConf.map ShellConfig.path,
          shells.run nameOf evs (nameOf path) = some path) ∧
        ∀ name ∉ (st.conf.shellsConf.map ShellConfig.path).map nameOf,
          shells.run nameOf evs name = shells name := by
  refine (firstRead_run w hapi hmemo hnamed).mono ?_
  rintro r _ _ ⟨futures, evs, concluded, rfl, -, -, -, hin, hok⟩ handlers hr shells
  obtain ⟨rfl, hlast⟩ := hok handlers hr
  have hrun := hin (fun future hfuture => lastException_eq_none.mp hlast future
    ((w.shells.perm futures).mem_iff.mpr hfuture)) shells
  rw [List.append_nil, hrun]
  exact ⟨fun path hpath => foldl_install_of_mem hdistinct hpath shells,
    fun name hname => foldl_install_of_notMem hname shells⟩

def twoShells : MainConfig where
  shellsConf := [{ name := "s", path := "s.zip", definition := some ⟨"Model", "Shell"⟩ },
    { name := "t", path := "t.zip", definition := some ⟨"Model", "Other"⟩ }]
  resourcesConf := []

def twoNames (path : String) : String := if path = "s.zip" then "Shell" else "Other"

theorem named_twoShells : Named twoNames twoShells.shellsConf := by
  simp [Named, twoShells, twoNames]

def Api.used : Api := { Api.obliging with
  deleteShell := fun _ name =>
    if name = "Shell" then .error (.other "This shell is used") else .ok () }

theorem namesExisting_used : NamesExisting twoNames Api.used "" where
  noHead := by decide
  valid path := by
    unfold twoNames
    split <;> decide
  refuses := by nofun

theorem firstRead_installs_two : ∃ handlers st evs,
    shellHandlers (.of Api.used) { conf := twoShells } [] = (.ok handlers, st, evs) ∧
      ∀ shells : Shells, shells.run twoNames evs "Shell" = some "s.zip" ∧
        shells.run twoNames evs "Other" = some "t.zip" := by
  obtain ⟨r, st, evs, hrun, hin⟩ := firstRead_installs (.of Api.used)
    (fun _ => ⟨"", namesExisting_used⟩) { conf := twoShells } rfl named_twoShells (by decide) []
  obtain ⟨handlers, hok⟩ : ∃ handlers,
      (shellHandlers (.of Api.used) { conf := twoShells } []).1 = .ok handlers := ⟨_, rfl⟩
  rw [hrun] at hok
  refine ⟨handlers, st, evs, by rw [hrun, ← hok]; rfl, fun shells => ?_⟩
  have hall := (hin handlers hok shells).1
  exact ⟨hall "s.zip" (by decide), hall "t.zip" (by decide)⟩

/-- What is left installed is held. -/
def Holds (nameOf : String → String) (conf : MainConfig) (st : HandlerStorage)
    (log : List Event) : Prop :=
  st.conf = conf ∧ Leaves nameOf (heldShells st) log

section
variable {conf : MainConfig} {w : World}
  (hapi : ∀ i, ∃ opening, NamesExisting nameOf (w.shells.api i) opening)
  (hnamed : Named nameOf conf.shellsConf)

theorem Holds.append (h : Holds nameOf conf st log) (hevs : Leaves nameOf [] evs) :
    Holds nameOf conf st (log ++ evs) := ⟨h.1, by simpa using h.2.append hevs⟩

theorem finish_holds (api : Api) :
    Hoare (Holds nameOf conf) (finish api) fun _ => Holds nameOf conf := by
  refine .of_triple (finish_shells nameOf api) ?_
  rintro st log r _ evs h ⟨rfl, hleaves, -⟩
  exact h.append hleaves

include hapi hnamed

theorem shellHandlers_holds :
    Hoare (Holds nameOf conf) (shellHandlers w) fun _ => Holds nameOf conf := by
  rintro st log ⟨rfl, hleft⟩
  cases hmemo : st.shellMemo with
  | some handlers =>
    refine ⟨.ok handlers, st, [], ?_, rfl, by simpa using hleft⟩
    rw [shellHandlers, Section.read_again (p := shells) hmemo, List.append_nil]
  | none =>
    obtain ⟨r, _, _, hrun, futures, evs, evs', rfl, rfl, hleaves, hleaves', -⟩ :=
      firstRead_run w hapi hmemo hnamed log
    refine ⟨r, _, _, hrun, rfl, ?_⟩
    have hnone : heldShells st = [] := by simp [heldShells, hmemo]
    have hall := hleft.append (hleaves.append hleaves')
    refine hall.mono ?_
    rw [hnone, List.nil_append, List.append_nil]
    have hperm := ((w.shells.perm futures).filterMap Except.toOption).map ShellHandler.csShellName
    exact hperm.symm.subset

theorem resourceHandlers_holds :
    Hoare (Holds nameOf conf) (resourceHandlers w) fun _ => Holds nameOf conf := by
  have hlookup (c : ResourceConfig) :
      Hoare (Holds nameOf conf) (lookupShell w c) fun _ => Holds nameOf conf := by
    refine .bind (shellHandlers_holds hapi hnamed) (fun handlers => ?_) fun _ _ _ h => h
    split
    · exact .pure' fun _ _ h => h
    · exact .throw' fun _ _ h => h
  refine Section.read_keeps (G := fun _ _ => True) hlookup
    (fun api st c shell => ResourceHandler.create_spec api c shell ()) (fun _ _ _ _ => trivial) ?_
    (fun st log handlers h _ => h) finish_holds w.api w.resources
  intro _ _ _ _ _ st log r evs h ⟨_, hevs⟩
  refine ⟨h.append (leaves_of_run (run_of_others fun e he => ?_)), fun _ _ => trivial⟩
  have hresource := hevs e he
  cases e <;> first | rfl | exact hresource.elim

theorem read_holds (property : Property) :
    Hoare (Holds nameOf conf) (property.read w) fun _ => Holds nameOf conf := by
  cases property with
  | shells =>
    exact .bind (shellHandlers_holds hapi hnamed) (fun _ => .pure' fun _ _ h => h) fun _ _ _ h => h
  | resources =>
    exact .bind (resourceHandlers_holds hapi hnamed) (fun _ => .pure' fun _ _ h => h)
      fun _ _ _ h => h
  | sandboxes =>
    have hread : Hoare (Holds nameOf conf) (sandboxHandlers w) fun _ => Holds nameOf conf := by
      refine Section.read_keeps (T := fun _ _ evs => ∀ e ∈ evs, Event.OfReservation e)
        (G := fun _ _ => True)
        (fun _ => .pure' (Q := fun _ => Holds nameOf conf) fun _ _ h => h)
        (fun api st c _ => (SandboxHandler.create_emits api c 120).events ())
        (fun _ _ _ _ => trivial) ?_ (fun st log handlers h _ => h) finish_holds w.api w.sandboxes
      intro _ _ _ _ _ st log r evs h hevs
      refine ⟨h.append (leaves_of_run (run_of_others fun e he => ?_)), fun _ _ => trivial⟩
      have hreservation := hevs e he
      cases e <;> first | rfl | exact hreservation.elim
    exact .bind hread (fun _ => .pure' fun _ _ h => h) fun _ _ _ h => h

/-- Whatever is read and raises on the way, a session that ends well leaves
each shell as it was before, or removed, or with its removal refused. The tasks
of a read are those of `Section.submit`, one after the other. -/
theorem session_leaves (hasVcenter : Bool) (reads : List Property)
    (hrun : session w reads { conf, hasVcenter } [] = (.ok (), st, log)) (shells : Shells)
    (name : String) :
    shells.run nameOf log name = shells name ∨ shells.run nameOf log name = none ∨
      ∃ e, .deleteShell name (.error e) ∈ log ∧ passedOver e := by
  have hreads : Hoare (Holds nameOf conf) (sweep (Property.read w) reads) fun _ =>
      Holds nameOf conf := by
    refine .each' fun property _ => ?_
    exact .tryCatch' (read_holds hapi hnamed property) (fun _ _ _ h => h) fun _ =>
      .pure' fun _ _ h => h
  obtain ⟨r, st₁, evs, hsweep, -, hleft⟩ :=
    hreads { conf, hasVcenter } [] ⟨rfl, leaves_of_run fun _ => rfl⟩
  cases r with
  | error e =>
    rw [session, run_bind_error hsweep] at hrun
    cases hrun
  | ok _ =>
    obtain ⟨r', _, evs', hfinish, rfl, hgone, hremoved⟩ :=
      finish_shells nameOf w.api st₁ ([] ++ evs)
    rw [session, run_bind_ok hsweep, hfinish] at hrun
    obtain ⟨rfl, -, rfl⟩ := Prod.mk.inj hrun |>.imp id Prod.mk.inj
    obtain hsame | hnone | hmem := (hleft.append hgone) shells name
    · exact .inl hsame
    · exact .inr (.inl hnone)
    rw [List.append_nil] at hmem
    obtain hnone | hrefused := (hremoved rfl name hmem).prepend ([] ++ evs)
    · exact .inr (.inl (hnone shells))
    · exact .inr (.inr hrefused)

end

/-- The first shell stays, with its removal refused, and the other one is gone. -/
theorem session_leaves_used : ∃ st log,
    session (.of Api.used) [.shells] { conf := twoShells } [] = (.ok (), st, log) ∧
      ∀ (shells : Shells) name, shells.run twoNames log name = shells name ∨
        shells.run twoNames log name = none ∨
        ∃ e, .deleteShell name (.error e) ∈ log ∧ passedOver e := by
  rcases hrun : session (.of Api.used) [.shells] { conf := twoShells } [] with ⟨r, st, log⟩
  have hok : (session (.of Api.used) [.shells] { conf := twoShells } []).1 = .ok () := rfl
  rw [hrun] at hok
  obtain rfl : r = .ok () := hok
  refine ⟨st, log, rfl, ?_⟩
  exact session_leaves (w := .of Api.used) (fun _ => ⟨"", namesExisting_used⟩) named_twoShells
    false [.shells] hrun

end

end ShellTests.InstallShell
