import ShellTests.Ownership

/-!
# What a failed creation leaves behind

A read of `resource_handlers` creates a resource for each conf whose shell is
known, up to the first unknown one. A resource is held only through the
handler that its task returns, so it is forgotten when the task raises after
CreateResource, or when a later conf has no shell.
-/

namespace ShellTests

open Prog

/-- The resources that are still there of those that a log created: a creation
adds its name, a DeleteResource that succeeds takes the name away. -/
def leftoverAfter (names : List String) : Event → List String
  | .createResource _ _ name _ _ (.ok ()) => name :: names
  | .deleteResource name (.ok ()) => names.filter (· ≠ name)
  | _ => names

def leftover (log : List Event) : List String := log.foldl leftoverAfter []

theorem mem_leftoverAfter (names : List String) (e : Event) (h : name ∈ leftoverAfter names e) :
    name ∈ names ∨ e.created? = some name := by
  unfold leftoverAfter at h
  split at h
  · simpa [Event.created?, eq_comm, or_comm] using h
  · exact .inl (List.mem_filter.mp h).1
  · exact .inl h

theorem leftoverAfter_keeps (names : List String) (e : Event)
    (h : name ∈ names ∨ e.created? = some name) (he : e.release? ≠ some (.deleteResource name)) :
    name ∈ leftoverAfter names e := by
  unfold leftoverAfter
  split
  · simpa [Event.created?, eq_comm, or_comm] using h
  · simp_all [Event.created?, Event.release?, eq_comm]
  · rename_i hcreate _
    refine h.resolve_right fun hsome => ?_
    unfold Event.created? at hsome
    split at hsome
    · exact hcreate _ _ _ _ _ rfl
    · cases hsome

theorem mem_foldl_leftoverAfter (log : List Event) (names : List String)
    (h : name ∈ log.foldl leftoverAfter names) : name ∈ names ∨ name ∈ created log := by
  induction log generalizing names with
  | nil => exact .inl h
  | cons e log ih =>
    rcases ih _ h with h | h
    · rcases mem_leftoverAfter names e h with h | h
      · exact .inl h
      · exact .inr (mem_created_cons.mpr (.inl h))
    · exact .inr (mem_created_cons.mpr (.inr h))

theorem foldl_leftoverAfter_keeps (log : List Event) (names : List String)
    (h : name ∈ names ∨ name ∈ created log) (hlog : .deleteResource name ∉ releases log) :
    name ∈ log.foldl leftoverAfter names := by
  induction log generalizing names with
  | nil => simpa [created] using h
  | cons e log ih =>
    obtain ⟨he, hlog⟩ := not_mem_releases_cons.mp hlog
    refine ih _ ?_ hlog
    by_cases hlater : name ∈ created log
    · exact .inr hlater
    · refine .inl (leftoverAfter_keeps names e ?_ he)
      exact h.imp id fun hmem => (mem_created_cons.mp hmem).resolve_right hlater

/-- Where only held names are deleted, nothing is forgotten just when every
created name is held. -/
theorem leftover_held {held : List String}
    (hdeletes : ∀ name, .deleteResource name ∈ releases log → name ∈ held) :
    (∀ name ∈ leftover log, name ∈ held) ↔ ∀ name ∈ created log, name ∈ held := by
  constructor
  · intro h name hname
    by_cases hdelete : .deleteResource name ∈ releases log
    · exact hdeletes name hdelete
    · exact h name (foldl_leftoverAfter_keeps log [] (.inr hname) hdelete)
  · intro h name hname
    exact h name ((mem_foldl_leftoverAfter log [] hname).resolve_left (by simp))

namespace HandlerStorage

-- ---------------------------------------------------------------------------
-- The tasks of resource_handlers
-- ---------------------------------------------------------------------------

structure Task where
  api : Api
  conf : ResourceConfig
  shell : ShellHandler

namespace Task

variable (t : Task)

def createAnswer : Except Exn Unit :=
  t.api.createResource [] "" t.shell.model t.conf.name (ResourceHandler.address t.conf) ""

def attributesAnswer : Except Exn Unit :=
  t.api.setAttributesValues [ResourceHandler.createEvent t.conf t.shell t.createAnswer] t.conf.name
    (ResourceHandler.sentAttributes t.conf t.shell)

def Creates : Prop := t.createAnswer = .ok ()

def Succeeds : Prop :=
  nameAccepted t.createAnswer ∧ (t.conf.attributes = [] ∨ t.attributesAnswer = .ok ())

def outcome : Except Exn ResourceHandler := (ResourceHandler.create t.api t.conf t.shell () []).1

def events : List Event := (ResourceHandler.create t.api t.conf t.shell () []).2.2

theorem releases_events : releases t.events = [] := by
  obtain ⟨r, s', evs, hrun, -, hevs⟩ := ResourceHandler.create_spec t.api t.conf t.shell () []
  simpa [events, hrun] using releases_of_resource hevs

theorem created_events :
    created t.events = if t.createAnswer = .ok () then [t.conf.name] else [] := by
  have hrun := ResourceHandler.create_run t.api t.conf t.shell () [] (r := t.createAnswer) rfl
  have hevent (r : Except Exn Unit) : (ResourceHandler.createEvent t.conf t.shell r).created? =
      if r = .ok () then some t.conf.name else none := by
    rcases r with e | _ <;> simp [ResourceHandler.createEvent, Event.created?]
  have hcons (evs : List Event) (hevs : created evs = []) :
      created (ResourceHandler.createEvent t.conf t.shell t.createAnswer :: evs) =
        if t.createAnswer = .ok () then [t.conf.name] else [] := by
    unfold created at hevs
    simp only [created, List.filterMap_cons, hevent, hevs]
    by_cases hok : t.createAnswer = .ok () <;> simp [hok]
  rw [events, hrun]
  split
  · split
    · exact hcons [] rfl
    · exact hcons [_] rfl
  · exact hcons [] rfl

theorem outcome_ok (h : ResourceHandler) (hok : t.outcome = .ok h) : h.name = t.conf.name := by
  obtain ⟨r, s', evs, hrun, hspec, -⟩ := ResourceHandler.create_spec t.api t.conf t.shell () []
  refine (hspec h ?_).1
  rw [← hok, outcome, hrun]

theorem outcome_ok_iff : (∃ h, t.outcome = .ok h) ↔ t.Succeeds := by
  have hrun := ResourceHandler.create_run t.api t.conf t.shell () [] (r := t.createAnswer) rfl
  rw [outcome, hrun, Succeeds]
  split
  · rename_i hok
    split
    · rename_i hattr
      simp [hok, hattr]
    · rename_i hattr
      simp only [hok, hattr, true_and, false_or]
      change _ ↔ t.attributesAnswer = _
      simp only [attributesAnswer, List.nil_append]
      rcases t.api.setAttributesValues _ _ _ with e | _ <;> simp [Except.map]
  · rename_i hok
    rcases hr : t.createAnswer with e | _
    · rw [hr] at hok
      simp [Except.map, hok]
    · rw [hr] at hok
      exact absurd rfl hok

end Task

/-- The tasks that are submitted: those of the confs before the first one whose
shell is unknown. -/
def submitted (api : Nat → Api) (loaded : List ShellHandler) : Nat → List ResourceConfig → List Task
  | _, [] => []
  | i, conf :: confs =>
    match shellNamed conf.shellName loaded with
    | some shell => ⟨api i, conf, shell⟩ :: submitted api loaded (i + 1) confs
    | none => []

def unknown (loaded : List ShellHandler) (confs : List ResourceConfig) : Option ResourceConfig :=
  confs.find? fun conf => (shellNamed conf.shellName loaded).isNone

theorem lookupShell_run (w : World) (conf : ResourceConfig) (hloaded : st.shellMemo = some loaded)
    (log : List Event) :
    lookupShell w conf st log =
      (match shellNamed conf.shellName loaded with
        | some shell => .ok shell
        | none => .error (.key conf.shellName), st, log) := by
  have hread : shellHandlers w st log = (.ok loaded, st, log) := by
    simp only [shellHandlers, Section.read, HandlerStorage.shells, run_bind, run_get, hloaded,
      run_pure]
  rw [lookupShell, run_bind_ok hread]
  cases shellNamed conf.shellName loaded <;> rfl

theorem submit_run (w : World) (hloaded : st.shellMemo = some loaded) (api : Nat → Api) (i : Nat)
    (confs : List ResourceConfig) (log : List Event) :
    (resources w).submit api i confs st log =
      (match unknown loaded confs with
        | some conf => .error (.key conf.shellName)
        | none => .ok ((submitted api loaded i confs).map Task.outcome), st,
        log ++ (submitted api loaded i confs).flatMap Task.events) := by
  induction confs generalizing i log with
  | nil => simp [Section.submit, submitted, unknown]
  | cons conf confs ih =>
    have hlookup := lookupShell_run w conf hloaded log
    simp only [Section.submit, run_bind, run_get, run_spawn, submitted, unknown, List.find?_cons,
      show (resources w).lookup = lookupShell w from rfl, hlookup]
    cases hshell : shellNamed conf.shellName loaded with
    | none => simp
    | some shell =>
      simp only [ih, Option.isNone_some, List.flatMap_cons, List.append_assoc, List.map_cons]
      simp only [unknown]
      cases confs.find? fun conf => (shellNamed conf.shellName loaded).isNone with
      | some c => rfl
      | none => rfl

-- ---------------------------------------------------------------------------
-- A read of resource_handlers
-- ---------------------------------------------------------------------------

def heldNames (st : HandlerStorage) : List String := (st.resourceMemo.getD []).map (·.name)

theorem finish_spec (api : Api) (st : HandlerStorage) :
    Triple (finish api) st fun _ st' evs =>
      st' = st ∧ created evs = [] ∧ ∀ name, .deleteResource name ∈ releases evs →
        name ∈ st.heldNames := by
  intro log
  let I (st' : HandlerStorage) (log' : List Event) : Prop :=
    st' = st ∧ ∃ evs, log' = log ++ evs ∧ created evs = [] ∧
      ∀ name, Release.deleteResource name ∈ releases evs → name ∈ st.heldNames
  have hfinish : Hoare I (finish api) fun _ => I := by
    refine finish_keeps ?_ ?_ api
    · rintro st' _ ⟨rfl, evs, rfl, hcreated, hdeletes⟩ h hh evs' hevs' hnone
      refine ⟨rfl, evs ++ evs', by simp, by simp [hcreated, hnone], ?_⟩
      intro name hname
      rw [releases_append, hevs', List.mem_append, List.mem_singleton] at hname
      refine hname.elim (hdeletes name) fun hrelease => ?_
      cases h with
      | resource h =>
        obtain rfl : name = h.name := by simpa [Held.release] using hrelease
        exact List.mem_map_of_mem (by simpa [held] using hh)
      | sandbox h => simp [Held.release] at hrelease
      | shell h => simp [Held.release] at hrelease
    · rintro st' _ evs' ⟨rfl, evs, rfl, hcreated, hdeletes⟩ hevs' hnone
      exact ⟨rfl, evs ++ evs', by simp, by simp [hcreated, hnone], by simpa [hevs'] using hdeletes⟩
  obtain ⟨r, st', evs, hrun, rfl, evs', hevs, hcreated, hdeletes⟩ :=
    hfinish st log ⟨rfl, [], by simp, rfl, by simp⟩
  obtain rfl := List.append_cancel_left hevs
  exact ⟨r, st', evs, hrun, rfl, hcreated, hdeletes⟩

def Section.conclude (p : Section κ ρ η) (api : Api) (done : List (Except Exn η)) :
    Cs HandlerStorage (List η) := do
  modify (p.setMemo (handlersOf done))
  match lastException done with
  | some e => do
    finish api
    throw e
  | none => pure (handlersOf done)

theorem Section.read_first {p : Section κ ρ η} (hmemo : p.memo st = none) (api : Api)
    (pool : Pool η)
    (log : List Event) :
    p.read api pool st log =
      (do let futures ← p.submit pool.api 0 (p.confs (p.setMemo [] st).conf)
          p.conclude api (pool.iterate futures) : Cs HandlerStorage (List η))
            (p.setMemo [] st) log := by
  rw [Section.read, run_bind_ok (run_get st log)]
  simp only
  rw [hmemo]
  simp only
  rw [run_bind_ok (run_modify _ _ _), run_bind_ok (run_get _ _)]
  rfl

theorem Section.read_again {p : Section κ ρ η} (hmemo : p.memo st = some handlers) (api : Api)
    (pool : Pool η) (log : List Event) : p.read api pool st log = (.ok handlers, st, log) := by
  rw [Section.read, run_bind_ok (run_get st log)]
  simp only
  rw [hmemo]
  rfl

theorem Section.conclude_ok {p : Section κ ρ η} (hlast : lastException done = none) (api : Api)
    (st : HandlerStorage) (log : List Event) :
    p.conclude api done st log = (.ok (handlersOf done), p.setMemo (handlersOf done) st, log) := by
  rw [conclude, run_bind_ok (run_modify _ _ _), hlast]
  rfl

theorem Section.conclude_error {p : Section κ ρ η} (hlast : lastException done = some e) (api : Api)
    (st : HandlerStorage) (log : List Event) :
    p.conclude api done st log =
      (do finish api; throw e : Cs HandlerStorage (List η))
      (p.setMemo (handlersOf done) st) log := by
  rw [conclude, run_bind_ok (run_modify _ _ _), hlast]

theorem Section.read_ok {p : Section κ ρ η} (hset : ∀ hs st, p.memo (p.setMemo hs st) = some hs)
    {api : Api} {pool : Pool η} (h : p.read api pool st log = (.ok handlers, st', log')) :
    p.memo st' = some handlers := by
  cases hmemo : p.memo st with
  | some memo =>
    rw [read_again hmemo, Prod.mk.injEq, Prod.mk.injEq, Except.ok.injEq] at h
    obtain ⟨rfl, rfl, -⟩ := h
    exact hmemo
  | none =>
    rw [read_first hmemo, run_bind] at h
    rcases hsubmit : p.submit pool.api 0 (p.confs (p.setMemo [] st).conf) (p.setMemo [] st) log with
      ⟨r, st₁, log₁⟩
    rw [hsubmit] at h
    cases r with
    | error e => simp at h
    | ok futures =>
      simp only at h
      cases hlast : lastException (pool.iterate futures) with
      | none =>
        rw [conclude_ok hlast, Prod.mk.injEq, Prod.mk.injEq, Except.ok.injEq] at h
        obtain ⟨rfl, rfl, -⟩ := h
        exact hset _ _
      | some e =>
        rw [conclude_error hlast, run_bind] at h
        split at h <;> simp at h

theorem shellHandlers_spec (w : World) (hmemo : st.resourceMemo = some []) :
    Triple (shellHandlers w) st fun r st' evs =>
      st'.resourceMemo = some [] ∧ st'.conf = st.conf ∧ created evs = [] ∧
      (∀ name, .deleteResource name ∉ releases evs) ∧
      ∀ loaded, r = .ok loaded → st'.shellMemo = some loaded := by
  intro log
  let I (st' : HandlerStorage) (log' : List Event) : Prop :=
    st'.resourceMemo = some [] ∧ st'.conf = st.conf ∧ ∃ evs, log' = log ++ evs ∧ created evs = [] ∧
      ∀ name, Release.deleteResource name ∉ releases evs
  have hfinish (api : Api) : Hoare I (finish api) fun _ => I := by
    refine .of_triple (finish_spec api) ?_
    rintro st' _ r _ evs' ⟨hst, hconf, evs, rfl, hcreated, hdeletes⟩ ⟨rfl, hnone, hheld⟩
    refine ⟨hst, hconf, evs ++ evs', by simp, by simp [hcreated, hnone], ?_⟩
    intro name hname
    rw [releases_append, List.mem_append] at hname
    refine hname.elim (hdeletes name) fun hname => ?_
    simpa [heldNames, hst] using hheld name hname
  have hread : Hoare I (shellHandlers w) fun _ => I := by
    refine Section.read_keeps (p := shells) (G := fun _ _ => True)
      (fun _ => .pure' (Q := fun _ => I) fun _ _ h => h)
      (fun api st c _ => ShellHandler.create_spec api _ c ()) (fun _ _ _ _ => trivial) ?_
      (fun st log handlers h _ => h) hfinish w.api w.shells
    rintro - - - c - st' _ r evs' ⟨hst, hconf, evs, rfl, hcreated, hdeletes⟩ ⟨-, hevs'⟩
    refine ⟨⟨hst, hconf, evs ++ evs', by simp, ?_, ?_⟩, fun _ _ => trivial⟩
    · have hnone : created evs' = [] := by
        refine List.filterMap_eq_nil_iff.mpr fun e he => ?_
        obtain ⟨name, -, hof⟩ := hevs' e he
        exact created_of_shell e hof
      simp [hcreated, hnone]
    · intro name hname
      rw [releases_append, List.mem_append] at hname
      refine hname.elim (hdeletes name) fun hname => ?_
      obtain ⟨_, -, hx⟩ := releases_of_shell hevs' _ hname
      cases hx
  obtain ⟨r, st', evs, hrun, hst, hconf, evs', hevs, hcreated, hdeletes⟩ :=
    hread st log ⟨hmemo, rfl, [], by simp, rfl, by simp⟩
  obtain rfl := List.append_cancel_left hevs
  refine ⟨r, st', evs, hrun, hst, hconf, hcreated, hdeletes, ?_⟩
  rintro loaded rfl
  exact Section.read_ok (p := shells) (fun _ _ => rfl) hrun

theorem lookupShell_error (w : World) (conf : ResourceConfig)
    (h : shellHandlers w st log = (.error e, st', log')) :
    lookupShell w conf st log = (.error e, st', log') := run_bind_error h

theorem lookupShell_ok (w : World) (conf : ResourceConfig)
    (h : shellHandlers w st log = (.ok loaded, st', log')) :
    lookupShell w conf st log = lookupShell w conf st' log' := by
  have hloaded : st'.shellMemo = some loaded := Section.read_ok (p := shells) (fun _ _ => rfl) h
  rw [lookupShell_run w conf hloaded, lookupShell, run_bind_ok h]
  cases shellNamed conf.shellName loaded <;> rfl

theorem submit_error (w : World) (api : Nat → Api) (i : Nat) (conf : ResourceConfig)
    (confs : List ResourceConfig) (h : shellHandlers w st log = (.error e, st', log')) :
    (resources w).submit api i (conf :: confs) st log = (.error e, st', log') :=
  run_bind_error (lookupShell_error w conf h)

theorem submit_ok (w : World) (api : Nat → Api) (i : Nat) (conf : ResourceConfig)
    (confs : List ResourceConfig) (h : shellHandlers w st log = (.ok loaded, st', log')) :
    (resources w).submit api i (conf :: confs) st log =
      (resources w).submit api i (conf :: confs) st' log' := by
  have hlookup : (resources w).lookup conf st log = (resources w).lookup conf st' log' :=
    lookupShell_ok w conf h
  rw [Section.submit, run_bind, run_bind, hlookup]

section
variable (ts : List Task)

theorem releases_tasks : releases (ts.flatMap Task.events) = [] := by
  induction ts with
  | nil => rfl
  | cons t ts ih => simp [ih, t.releases_events]

theorem mem_created_tasks :
    name ∈ created (ts.flatMap Task.events) ↔ ∃ t ∈ ts, t.Creates ∧ t.conf.name = name := by
  induction ts with
  | nil => simp [created]
  | cons t ts ih =>
    rw [List.flatMap_cons, created_append, List.mem_append, ih, t.created_events]
    by_cases hcreates : t.createAnswer = .ok ()
    · simp [Task.Creates, hcreates, eq_comm]
    · simp [Task.Creates, hcreates]

theorem mem_held_tasks (pool : Pool ResourceHandler) :
    name ∈ (handlersOf (pool.iterate (ts.map Task.outcome))).map (·.name) ↔
      ∃ t ∈ ts, t.conf.name = name ∧ t.Succeeds := by
  simp only [List.mem_map, handlersOf, List.mem_filterMap, (pool.perm _).mem_iff]
  constructor
  · rintro ⟨h, ⟨_, ⟨t, ht, rfl⟩, hok⟩, rfl⟩
    have hout : t.outcome = .ok h := by
      cases hout : t.outcome <;> simp_all [Except.toOption]
    exact ⟨t, ht, (t.outcome_ok h hout).symm, t.outcome_ok_iff.mp ⟨h, hout⟩⟩
  · rintro ⟨t, ht, rfl, hsucceeds⟩
    obtain ⟨h, hout⟩ := t.outcome_ok_iff.mpr hsucceeds
    exact ⟨h, ⟨_, ⟨t, ht, rfl⟩, by rw [hout]; rfl⟩, t.outcome_ok h hout⟩

end

-- ---------------------------------------------------------------------------
-- Which created resources are forgotten
-- ---------------------------------------------------------------------------

/-- Of the resources that a read of `resource_handlers` creates, all that are
still there when it ends are held. -/
def ForgetsNone (w : World) (st : HandlerStorage) (log : List Event) : Prop :=
  ∀ name ∈ leftover (newEvents (resourceHandlers w) st log),
    name ∈ (resourceHandlers w st log).2.1.heldNames

/-- If a resource is created, then every conf has a known shell, and the task of
a conf with that resource's name succeeds. -/
def CreatedSucceed (w : World) (loaded : List ShellHandler) (confs : List ResourceConfig) : Prop :=
  ∀ t ∈ submitted w.resources.api loaded 0 confs, t.Creates →
    unknown loaded confs = none ∧
      ∃ t' ∈ submitted w.resources.api loaded 0 confs, t'.conf.name = t.conf.name ∧ t'.Succeeds

theorem forgetsNone_of_run {ts : List Task} (w : World) (st : HandlerStorage) (log : List Event)
    (hrun : resourceHandlers w st log =
      (r, st', log ++ (before ++ ts.flatMap Task.events ++ after)))
    (hbefore : created before = []) (hafter : created after = [])
    (hdeletes : ∀ name, .deleteResource name ∉ releases before)
    (hheld : ∀ name, .deleteResource name ∈ releases after → name ∈ st'.heldNames) :
    ForgetsNone w st log ↔ ∀ t ∈ ts, t.Creates → t.conf.name ∈ st'.heldNames := by
  rw [ForgetsNone, newEvents_of_run hrun, hrun, leftover_held]
  · simp only [created_append, hbefore, hafter, List.nil_append, List.append_nil, mem_created_tasks]
    constructor
    · intro h t ht hcreates
      exact h _ ⟨t, ht, hcreates, rfl⟩
    · rintro h _ ⟨t, ht, hcreates, rfl⟩
      exact h t ht hcreates
  · intro name hname
    simp only [releases_append, releases_tasks, List.append_nil, List.mem_append] at hname
    exact hname.elim (fun h => absurd h (hdeletes name)) (hheld name)

theorem forgetsNone_loaded {confs : List ResourceConfig} (w : World) (st : HandlerStorage)
    (log : List Event)
    (hrun : resourceHandlers w st log =
      (do let futures ← (resources w).submit w.resources.api 0 confs
          (resources w).conclude w.api (w.resources.iterate futures) :
        Cs HandlerStorage (List ResourceHandler)) st₁ (log ++ before))
    (hloaded : st₁.shellMemo = some loaded) (hmemo : st₁.resourceMemo = some [])
    (hbefore : created before = []) (hdeletes : ∀ name, .deleteResource name ∉ releases before) :
    ForgetsNone w st log ↔ CreatedSucceed w loaded confs := by
  have hsubmit := submit_run w hloaded w.resources.api 0 confs (log ++ before)
  generalize hts : submitted w.resources.api loaded 0 confs = ts at hsubmit
  rw [CreatedSucceed, hts]
  cases hunknown : unknown loaded confs with
  | some conf =>
    rw [hunknown] at hsubmit
    rw [run_bind_error hsubmit, List.append_assoc, ← List.append_nil (before ++ _)] at hrun
    rw [forgetsNone_of_run w st log hrun hbefore rfl hdeletes (by simp)]
    simp [heldNames, hmemo]
  | none =>
    rw [hunknown] at hsubmit
    rw [run_bind_ok hsubmit, List.append_assoc] at hrun
    have hheld (name : String) :
        name ∈ ((resources w).setMemo (handlersOf (w.resources.iterate (ts.map Task.outcome)))
          st₁).heldNames ↔ ∃ t ∈ ts, t.conf.name = name ∧ t.Succeeds :=
      mem_held_tasks ts w.resources
    cases hlast : lastException (w.resources.iterate (ts.map Task.outcome)) with
    | none =>
      rw [Section.conclude_ok hlast, ← List.append_nil (before ++ _)] at hrun
      rw [forgetsNone_of_run w st log hrun hbefore rfl hdeletes (by simp)]
      simp [hheld]
    | some e =>
      obtain ⟨r, st₂, after, hfinish, hst₂, hafter, hown⟩ := finish_spec w.api
        ((resources w).setMemo (handlersOf (w.resources.iterate (ts.map Task.outcome))) st₁)
        (log ++ (before ++ ts.flatMap Task.events))
      subst hst₂
      rw [Section.conclude_error hlast, run_bind, hfinish] at hrun
      cases r <;>
      · simp only [run_throw, List.append_assoc] at hrun
        rw [← List.append_assoc before] at hrun
        rw [forgetsNone_of_run w st log hrun hbefore hafter hdeletes hown]
        simp [hheld]

/-- A read forgets no created resource exactly when each one has a conf whose
task succeeds, and the shell of every conf is known once one is created. -/
theorem forgetsNone_iff (w : World) (st : HandlerStorage) (log : List Event) :
    ForgetsNone w st log ↔
      (st.resourceMemo = none → ∀ loaded,
        (shellHandlers w { st with resourceMemo := some [] } log).1 = .ok loaded →
          CreatedSucceed w loaded st.conf.resourcesConf) := by
  cases hmemo : st.resourceMemo with
  | some handlers =>
    have hrun : resourceHandlers w st log = (.ok handlers, st, log ++ []) := by
      rw [List.append_nil]
      exact Section.read_again hmemo w.api w.resources log
    simp [ForgetsNone, newEvents_of_run hrun, leftover]
  | none =>
    have hfirst := Section.read_first (p := resources w) hmemo w.api w.resources log
    generalize hst₀ : ({ st with resourceMemo := some [] } : HandlerStorage) = st₀
    have hset : (resources w).setMemo [] st = st₀ := hst₀
    have hconf : st₀.conf = st.conf := by rw [← hst₀]
    have hmemo₀ : st₀.resourceMemo = some [] := by rw [← hst₀]
    rw [hset] at hfirst
    simp only [show (resources w).confs = MainConfig.resourcesConf from rfl, hconf] at hfirst
    cases hconfs : st.conf.resourcesConf with
    | nil =>
      have hdone : w.resources.iterate [] = [] := (w.resources.perm []).eq_nil
      have hrun : resourceHandlers w st log =
          (.ok [], (resources w).setMemo [] st₀, log ++ []) := by
        rw [resourceHandlers, hfirst, hconfs, List.append_nil, Section.submit,
          run_bind_ok (run_pure _ _ _), hdone]
        exact Section.conclude_ok rfl w.api st₀ log
      simp [ForgetsNone, newEvents_of_run hrun, leftover, CreatedSucceed, submitted]
    | cons conf confs =>
      rw [hconfs] at hfirst
      obtain ⟨r, st₁, before, hshells, hmemo₁, -, hbefore, hdeletes, hloaded⟩ :=
        shellHandlers_spec w hmemo₀ log
      cases r with
      | error e =>
        have hrun : resourceHandlers w st log = (.error e, st₁, log ++ before) := by
          rw [resourceHandlers, hfirst]
          exact run_bind_error (submit_error w _ 0 conf confs hshells)
        have hleftover : ∀ name ∈ leftover before, name ∈ ([] : List String) :=
          (leftover_held (by simpa using hdeletes)).mpr (by simp [hbefore])
        refine ⟨fun _ _ _ hok => by simp [hshells] at hok, fun _ name hname => ?_⟩
        rw [newEvents_of_run hrun] at hname
        exact absurd (hleftover name hname) (by simp)
      | ok loaded =>
        have hrun : resourceHandlers w st log =
            (do let futures ← (resources w).submit w.resources.api 0 (conf :: confs)
                (resources w).conclude w.api (w.resources.iterate futures) :
              Cs HandlerStorage (List ResourceHandler)) st₁ (log ++ before) := by
          rw [resourceHandlers, hfirst, run_bind, run_bind, submit_ok w _ 0 conf confs hshells]
        rw [forgetsNone_loaded w st log hrun (hloaded loaded rfl) hmemo₁ hbefore hdeletes]
        simp [hshells]

/-- A resource is created and its attributes cannot be set; or it is created
and the next conf names a shell that is not configured. -/
theorem resource_forgotten :
    let shell : ShellConfig :=
      { name := "s", path := "s.zip", definition := some ⟨"Model", "Shell"⟩ }
    let refusing : Api := { Api.obliging with
      setAttributesValues := fun _ _ _ => .error (.cloudShellApi "100" "No such attribute") }
    (¬ ForgetsNone (.of refusing)
      { conf := {
          shellsConf := [shell]
          resourcesConf :=
            [{ name := "dut", shellName := "s", attributes := [("User", "admin")] }] } }
      []) ∧
    ¬ ForgetsNone (.of .obliging)
      { conf := {
          shellsConf := [shell]
          resourcesConf :=
            [{ name := "dut", shellName := "s" }, { name := "d2", shellName := "t" }] } }
      [] := by
  unfold ForgetsNone
  decide +kernel

end HandlerStorage

end ShellTests
