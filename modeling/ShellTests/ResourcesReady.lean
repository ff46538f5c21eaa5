import ShellTests.ShellsLeft
import ShellTests.DoHandler

/-!
# The resources that a read makes ready

What CloudShell has after a first read of `resource_handlers`: each resource of
the config under its name, with the attributes of the config. A name that was
taken keeps its resource, which then gets the attributes all the same.
-/

namespace ShellTests.ResourcesReady

open Prog HandlerStorage

structure Resource where
  model : String
  address : String
  attributes : String → Option String

abbrev Resources := String → Option Resource

def Resource.set (resource : Resource) (attributes : List (String × String)) : Resource :=
  { resource with
    attributes := fun key => (lookupLast key attributes).or (resource.attributes key) }

namespace Resources

variable (rs : Resources)

/-- The table after a call. A child of a resource is none of its entries. -/
def after : Event → Resources
  | .createResource _ model name address parent (.ok ()) =>
    if parent = "" then Function.update rs name (some ⟨model, address, fun _ => none⟩) else rs
  | .setAttributesValues name attributes (.ok ()) =>
    Function.update rs name ((rs name).map (·.set attributes))
  | .deleteResource name (.ok ()) => Function.update rs name none
  | _ => rs

def run (evs : List Event) : Resources := evs.foldl after rs

/-- CreateResource makes a resource only of a free name, and answers code 114
only for a taken one. -/
def Fits : Event → Prop
  | .createResource _ _ name _ parent (.ok ()) => parent = "" → rs name = none
  | .createResource _ _ name _ parent (.error (.cloudShellApi code _)) =>
    parent = "" → code = "114" → rs name ≠ none
  | _ => True

def Answered : Resources → List Event → Prop
  | _, [] => True
  | rs, e :: evs => rs.Fits e ∧ Answered (rs.after e) evs

/-- The resource of a conf when it is ready: the one that was there, or a new one. -/
def readied (shell : ShellHandler) (conf : ResourceConfig) : Resource :=
  ((rs conf.name).getD ⟨shell.model, ResourceHandler.address conf, fun _ => none⟩).set
    (ResourceHandler.sentAttributes conf shell)

def ready (shell : ShellHandler) (conf : ResourceConfig) : Resources :=
  Function.update rs conf.name (some (rs.readied shell conf))

end Resources

def Event.onResources : Event → Bool
  | .createResource .. | .setAttributesValues .. | .deleteResource .. => true
  | _ => false

section
variable {rs : Resources} {evs evs' : List Event}

theorem run_append : rs.run (evs ++ evs') = (rs.run evs).run evs' := List.foldl_append ..

theorem answered_append : rs.Answered (evs ++ evs') ↔
    rs.Answered evs ∧ (rs.run evs).Answered evs' := by
  induction evs generalizing rs with
  | nil => simp [Resources.Answered, Resources.run]
  | cons e evs ih => simp [Resources.Answered, Resources.run, ih, and_assoc]

theorem run_of_others (h : ∀ e ∈ evs, Event.onResources e = false) : rs.run evs = rs := by
  induction evs with
  | nil => rfl
  | cons e evs ih =>
    have hafter : rs.after e = rs := by
      have he := h e (by simp)
      cases e
      case createResource => cases he
      case setAttributesValues => cases he
      case deleteResource => cases he
      all_goals rfl
    rw [Resources.run, List.foldl_cons, hafter]
    exact ih fun e' he' => h e' (by simp [he'])

theorem set_nil (resource : Resource) : resource.set [] = resource := by
  simp [Resource.set, lookupLast]

end

-- ---------------------------------------------------------------------------
-- The tasks
-- ---------------------------------------------------------------------------

theorem after_create (conf : ResourceConfig) (shell : ShellHandler) {rs : Resources}
    (hname : nameAccepted r) (h : rs.Fits (ResourceHandler.createEvent conf shell r)) :
    rs.after (ResourceHandler.createEvent conf shell r) =
      Function.update rs conf.name (some ((rs conf.name).getD
        ⟨shell.model, ResourceHandler.address conf, fun _ => none⟩)) := by
  cases r with
  | ok _ =>
    have hfree : rs conf.name = none := h rfl
    rw [hfree]
    rfl
  | error e =>
    cases e
    case cloudShellApi code message =>
      have hcode : code = "114" := by simpa [nameAccepted] using hname
      obtain ⟨resource, hresource⟩ := Option.ne_none_iff_exists'.mp (h rfl hcode)
      rw [hresource, Option.getD_some, ← hresource, Function.update_eq_self]
      rfl
    all_goals simp [nameAccepted] at hname

theorem task_readies (t : Task) (hok : t.Succeeds) {rs : Resources}
    (h : rs.Answered t.events) : rs.run t.events = rs.ready t.shell t.conf := by
  obtain ⟨hname, hattributes⟩ := hok
  have hrun := ResourceHandler.create_run t.api t.conf t.shell () [] (r := t.createAnswer) rfl
  rw [if_pos hname] at hrun
  by_cases hnil : t.conf.attributes = []
  · have hevents : t.events = [ResourceHandler.createEvent t.conf t.shell t.createAnswer] := by
      rw [Task.events, hrun, if_pos hnil]
      rfl
    have hsent : ResourceHandler.sentAttributes t.conf t.shell = [] := by
      simp [ResourceHandler.sentAttributes, hnil]
    rw [hevents] at h ⊢
    rw [Resources.ready, Resources.readied, hsent, set_nil]
    exact after_create t.conf t.shell hname h.1
  · have hset : t.attributesAnswer = .ok () := hattributes.resolve_left hnil
    have hevents : t.events = [ResourceHandler.createEvent t.conf t.shell t.createAnswer,
        .setAttributesValues t.conf.name (ResourceHandler.sentAttributes t.conf t.shell)
          (.ok ())] := by
      rw [Task.events, hrun, if_neg hnil, ← hset]
      rfl
    rw [hevents] at h ⊢
    calc rs.run [ResourceHandler.createEvent t.conf t.shell t.createAnswer,
          .setAttributesValues t.conf.name (ResourceHandler.sentAttributes t.conf t.shell) (.ok ())]
      _ = (rs.after (ResourceHandler.createEvent t.conf t.shell t.createAnswer)).after
            (.setAttributesValues t.conf.name (ResourceHandler.sentAttributes t.conf t.shell)
              (.ok ())) := rfl
      _ = rs.ready t.shell t.conf := by
        rw [after_create t.conf t.shell hname h.1, Resources.after, Function.update_self,
          Function.update_idem]
        rfl

theorem tasks_ready (ts : List Task) (hok : ∀ t ∈ ts, t.Succeeds) {rs : Resources}
    (h : rs.Answered (ts.flatMap Task.events)) :
    rs.run (ts.flatMap Task.events) = ts.foldl (fun rs t => rs.ready t.shell t.conf) rs := by
  induction ts generalizing rs with
  | nil => rfl
  | cons t ts ih =>
    rw [List.flatMap_cons] at h ⊢
    obtain ⟨htask, htasks⟩ := answered_append.mp h
    have hready := task_readies t (hok t (by simp)) htask
    rw [hready] at htasks
    rw [run_append, hready]
    exact ih (fun t' ht' => hok t' (by simp [ht'])) htasks

section
variable {entries : List (ResourceConfig × ShellHandler)}

theorem foldl_ready_of_notMem (h : name ∉ entries.map (·.1.name)) (rs : Resources) :
    entries.foldl (fun rs entry => rs.ready entry.2 entry.1) rs name = rs name := by
  induction entries generalizing rs with
  | nil => rfl
  | cons entry entries ih =>
    rw [List.map_cons, List.mem_cons, not_or] at h
    rw [List.foldl_cons, ih h.2, Resources.ready, Function.update_of_ne h.1]

theorem foldl_ready_of_mem (hdistinct : (entries.map (·.1.name)).Nodup) (hentry : entry ∈ entries)
    (rs : Resources) :
    entries.foldl (fun rs entry => rs.ready entry.2 entry.1) rs entry.1.name =
      some (rs.readied entry.2 entry.1) := by
  induction entries generalizing rs with
  | nil => cases hentry
  | cons first entries ih =>
    obtain ⟨hfirst, hrest⟩ := List.nodup_cons.mp hdistinct
    rw [List.foldl_cons]
    obtain rfl | hentry := List.mem_cons.mp hentry
    · rw [foldl_ready_of_notMem hfirst, Resources.ready, Function.update_self]
    · have hne : entry.1.name ≠ first.1.name := fun heq =>
        hfirst (List.mem_map.mpr ⟨entry, hentry, heq⟩)
      rw [ih hrest hentry, Resources.readied, Resources.readied, Resources.ready,
        Function.update_of_ne hne]

end

def withShells (loaded : List ShellHandler) (confs : List ResourceConfig) :
    List (ResourceConfig × ShellHandler) :=
  confs.filterMap fun conf => (shellNamed conf.shellName loaded).map (conf, ·)

section
variable {loaded : List ShellHandler} {conf : ResourceConfig} {confs : List ResourceConfig}

theorem withShells_cons (hknown : unknown loaded (conf :: confs) = none) :
    ∃ shell, shellNamed conf.shellName loaded = some shell ∧
      withShells loaded (conf :: confs) = (conf, shell) :: withShells loaded confs ∧
      unknown loaded confs = none := by
  have hall := List.find?_eq_none.mp hknown
  obtain ⟨shell, hshell⟩ : ∃ shell, shellNamed conf.shellName loaded = some shell := by
    simpa [Option.ne_none_iff_exists'] using hall conf (by simp)
  refine ⟨shell, hshell, List.filterMap_cons_some ?_, ?_⟩
  · rw [hshell]
    rfl
  · exact List.find?_eq_none.mpr fun c hc => hall c (by simp [hc])

theorem fst_withShells (hknown : unknown loaded confs = none) :
    (withShells loaded confs).map Prod.fst = confs := by
  induction confs with
  | nil => rfl
  | cons conf confs ih =>
    obtain ⟨shell, -, hcons, hrest⟩ := withShells_cons hknown
    rw [hcons, List.map_cons, ih hrest]

theorem submitted_eq (api : Nat → Api) (i : Nat) (hknown : unknown loaded confs = none) :
    (submitted api loaded i confs).map (fun t => (t.conf, t.shell)) = withShells loaded confs := by
  induction confs generalizing i with
  | nil => rfl
  | cons conf confs ih =>
    obtain ⟨shell, hshell, hcons, hrest⟩ := withShells_cons hknown
    rw [hcons, submitted, hshell]
    exact congrArg _ (ih (i + 1) hrest)

end

def handlerOf (entry : ResourceConfig × ShellHandler) : ResourceHandler :=
  ⟨entry.1, entry.1.name, entry.2.model⟩

theorem outcome_eq (t : Task) (h : t.outcome = .ok handler) :
    handler = handlerOf (t.conf, t.shell) := by
  have hrun := ResourceHandler.create_run t.api t.conf t.shell () [] (r := t.createAnswer) rfl
  have hmap {r : Except Exn Unit} (hr : (r.map fun _ => handlerOf (t.conf, t.shell)) =
      .ok handler) : handler = handlerOf (t.conf, t.shell) := by
    cases r <;> cases hr
    rfl
  rw [Task.outcome, hrun] at h
  split at h
  · split at h
    · exact (Except.ok.inj h).symm
    · exact hmap h
  · exact hmap h

theorem handlers_perm (pool : Pool ResourceHandler) {ts : List Task}
    (hok : ∀ t ∈ ts, ∃ h, t.outcome = .ok h) :
    (handlersOf (pool.iterate (ts.map Task.outcome))).Perm
      ((ts.map fun t => (t.conf, t.shell)).map handlerOf) := by
  refine ((pool.perm _).filterMap _).trans (.of_eq ?_)
  rw [List.filterMap_map, List.map_map, ← List.filterMap_eq_map]
  refine List.filterMap_congr fun t ht => ?_
  obtain ⟨handler, hhandler⟩ := hok t ht
  simp [hhandler, outcome_eq t hhandler, Except.toOption]

-- ---------------------------------------------------------------------------
-- The read
-- ---------------------------------------------------------------------------

theorem others_of_shell (e : Event) (h : e.OfShell name) : Event.onResources e = false := by
  cases e <;> first | rfl | exact h.elim

theorem finish_others (api : Api) (hmemo : st.resourceMemo = some []) :
    Triple (finish api) st fun _ st' evs =>
      st' = st ∧ ∀ e ∈ evs, Event.onResources e = false := by
  have hheld : Logs (fun e => Event.onResources e = false)
      (do each (Held.finish api st.conf.hasCsSmb) st.held
          finishVcenter api st : Cs HandlerStorage Unit) := by
    refine .bind (.each' fun h hh s => Emits.events ?_ s) fun _ => ?_
    · cases h with
      | sandbox h => exact endReservation_emits api h.reservationId true (fun _ => rfl) fun _ => rfl
      | resource h => simp [held, hmemo] at hh
      | shell h => exact (h.finish_emits api st.conf.hasCsSmb).mono others_of_shell
    · unfold finishVcenter
      split
      · exact .call' fun _ => rfl
      · exact .pure' ()
  have hlogs : Triple (finish api) st fun _ _ evs => ∀ e ∈ evs, Event.onResources e = false := by
    intro log
    rw [finish_eq]
    exact hheld st log
  exact ((finish_spec api st).and hlogs).mono fun _ _ _ h => ⟨h.1.1, h.2⟩

/-- Reading the shells is about no resource, also where it fails. -/
theorem shellHandlers_others (w : World) (st : HandlerStorage) (hmemo : st.resourceMemo = some []) :
    Triple (shellHandlers w) st fun _ _ evs => ∀ e ∈ evs, Event.onResources e = false := by
  intro log
  let I (st' : HandlerStorage) (log' : List Event) : Prop :=
    st'.resourceMemo = some [] ∧ ∃ evs, log' = log ++ evs ∧ ∀ e ∈ evs, Event.onResources e = false
  have happend {st' : HandlerStorage} {log' evs : List Event} (h : I st' log')
      (hevs : ∀ e ∈ evs, Event.onResources e = false) : I st' (log' ++ evs) := by
    obtain ⟨hst, evs', rfl, hevs'⟩ := h
    refine ⟨hst, evs' ++ evs, by simp, fun e he => ?_⟩
    exact (List.mem_append.mp he).elim (hevs' e) (hevs e)
  have hread : Hoare I (shellHandlers w) fun _ => I := by
    refine Section.read_keeps (p := shells) (G := fun _ _ => True)
      (fun _ => .pure' (Q := fun _ => I) fun _ _ h => h)
      (fun api st c _ => ShellHandler.create_spec api _ c ()) (fun _ _ _ _ => trivial) ?_
      (fun st log handlers h _ => h) ?_ w.api w.shells
    · rintro - - - c - st' _ r evs' h ⟨-, hevs'⟩
      refine ⟨happend h fun e he => ?_, fun _ _ => trivial⟩
      obtain ⟨name, -, hof⟩ := hevs' e he
      exact others_of_shell e hof
    · intro api st' log' h
      obtain ⟨r, _, evs, hrun, rfl, hevs⟩ := finish_others api h.1 log'
      exact ⟨r, _, evs, hrun, happend h hevs⟩
  obtain ⟨r, st', evs, hrun, -, evs', hevs, hothers⟩ :=
    hread st log ⟨hmemo, [], by simp, by simp⟩
  obtain rfl := List.append_cancel_left hevs
  exact ⟨r, st', evs, hrun, hothers⟩

/-- What a first read that returns leaves: a handler for each conf, with the
shell it names, and a CloudShell with the resource of each. -/
structure Ready (confs : List ResourceConfig) (loaded : List ShellHandler)
    (handlers : List ResourceHandler) (evs : List Event) : Prop where
  known : (withShells loaded confs).map Prod.fst = confs
  handlers : handlers.Perm ((withShells loaded confs).map handlerOf)
  resources : ∀ rs : Resources, rs.Answered evs → ∀ entry ∈ withShells loaded confs,
    rs.run evs entry.1.name = some (rs.readied entry.2 entry.1)
  others : ∀ rs : Resources, rs.Answered evs → ∀ name ∉ confs.map ResourceConfig.name,
    rs.run evs name = rs name

theorem ready_of_loaded {st : HandlerStorage} {confs : List ResourceConfig} (w : World)
    (hloaded : st.shellMemo = some loaded) (hdistinct : (confs.map ResourceConfig.name).Nodup)
    (log : List Event)
    (hrun : (do let futures ← (resources w).submit w.resources.api 0 confs
                (resources w).conclude w.api (w.resources.iterate futures) :
        Cs HandlerStorage (List ResourceHandler)) st log = (.ok handlers, st', log')) :
    ∃ evs, log' = log ++ evs ∧ st'.shellMemo = some loaded ∧ Ready confs loaded handlers evs := by
  have hsubmit := submit_run w hloaded w.resources.api 0 confs log
  cases hunknown : unknown loaded confs with
  | some conf =>
    rw [hunknown] at hsubmit
    rw [run_bind_error hsubmit] at hrun
    cases hrun
  | none =>
    rw [hunknown] at hsubmit
    rw [run_bind_ok hsubmit] at hrun
    generalize hts : submitted w.resources.api loaded 0 confs = ts at hrun
    cases hlast : lastException (w.resources.iterate (ts.map Task.outcome)) with
    | some e =>
      rw [Section.conclude_error hlast, run_bind] at hrun
      split at hrun <;> cases hrun
    | none =>
      rw [Section.conclude_ok hlast] at hrun
      obtain ⟨hhandlers, rfl, rfl⟩ := Prod.mk.inj hrun |>.imp id Prod.mk.inj
      have hpairs := submitted_eq w.resources.api 0 hunknown
      rw [hts] at hpairs
      have hok : ∀ t ∈ ts, ∃ h, t.outcome = .ok h := fun t ht =>
        InstallShell.lastException_eq_none.mp hlast _
          ((w.resources.perm _).mem_iff.mpr (List.mem_map_of_mem ht))
      have hknown := fst_withShells hunknown
      have hnames : (withShells loaded confs).map (·.1.name) = confs.map ResourceConfig.name := by
        rw [← congrArg (List.map ResourceConfig.name) hknown, List.map_map]
        rfl
      have hrun {rs : Resources} (hrs : rs.Answered (ts.flatMap Task.events)) :
          rs.run (ts.flatMap Task.events) =
            (withShells loaded confs).foldl (fun rs entry => rs.ready entry.2 entry.1) rs := by
        rw [tasks_ready ts (fun t ht => t.outcome_ok_iff.mp (hok t ht)) hrs, ← hpairs,
          List.foldl_map]
      refine ⟨_, rfl, hloaded, hknown, ?_, fun rs hrs entry hentry => ?_,
        fun rs hrs name hname => ?_⟩
      · rw [← Except.ok.inj hhandlers, ← hpairs]
        exact handlers_perm w.resources hok
      · rw [hrun hrs, foldl_ready_of_mem (hnames ▸ hdistinct) hentry]
      · rw [hrun hrs, foldl_ready_of_notMem (hnames ▸ hname)]

/-- A first read of the resources that returns leaves all of them ready, if
they have different names. -/
theorem firstRead_readies (w : World) (hmemo : st.resourceMemo = none)
    (hdistinct : (st.conf.resourcesConf.map ResourceConfig.name).Nodup)
    (hread : resourceHandlers w st log = (.ok handlers, st', log')) :
    ∃ loaded evs, log' = log ++ evs ∧
      (st.conf.resourcesConf ≠ [] → st'.shellMemo = some loaded) ∧
      Ready st.conf.resourcesConf loaded handlers evs := by
  have hfirst : resourceHandlers w st log =
      (do let futures ← (resources w).submit w.resources.api 0 st.conf.resourcesConf
          (resources w).conclude w.api (w.resources.iterate futures) :
        Cs HandlerStorage (List ResourceHandler)) { st with resourceMemo := some [] } log :=
    Section.read_first (p := resources w) hmemo w.api w.resources log
  rw [hfirst] at hread
  cases hconfs : st.conf.resourcesConf with
  | nil =>
    have hdone : w.resources.iterate [] = [] := (w.resources.perm []).eq_nil
    rw [hconfs, Section.submit, run_bind_ok (run_pure _ _ _), hdone,
      Section.conclude_ok rfl] at hread
    obtain ⟨hhandlers, -, rfl⟩ := Prod.mk.inj hread |>.imp id Prod.mk.inj
    refine ⟨[], [], by simp, fun hne => absurd rfl hne, rfl, ?_,
      fun _ _ _ hentry => absurd hentry List.not_mem_nil, fun _ _ _ _ => rfl⟩
    rw [← Except.ok.inj hhandlers]
    exact .refl _
  | cons conf confs =>
    rw [hconfs, run_bind] at hread
    obtain ⟨r, st₁, before, hshells, hothers⟩ := shellHandlers_others w
      { st with resourceMemo := some [] } rfl log
    cases r with
    | error e =>
      rw [submit_error w _ 0 conf confs hshells] at hread
      cases hread
    | ok loaded =>
      rw [submit_ok w _ 0 conf confs hshells, ← run_bind] at hread
      have hloaded : st₁.shellMemo = some loaded :=
        Section.read_ok (p := shells) (fun _ _ => rfl) hshells
      rw [hconfs] at hdistinct
      obtain ⟨evs, rfl, hst', hready⟩ := ready_of_loaded w hloaded hdistinct (log ++ before) hread
      have hafter {rs : Resources} (hrs : rs.Answered (before ++ evs)) :
          rs.Answered evs ∧ rs.run (before ++ evs) = rs.run evs := by
        obtain ⟨-, hrs'⟩ := answered_append.mp hrs
        rw [run_of_others hothers] at hrs'
        exact ⟨hrs', by rw [run_append, run_of_others hothers]⟩
      refine ⟨loaded, before ++ evs, by simp, fun _ => hst', hready.known, hready.handlers,
        fun rs hrs => ?_, fun rs hrs => ?_⟩
      · obtain ⟨hrs', heq⟩ := hafter hrs
        rw [heq]
        exact hready.resources rs hrs'
      · obtain ⟨hrs', heq⟩ := hafter hrs
        rw [heq]
        exact hready.others rs hrs'

def oneShell : ShellConfig where
  name := "s"
  path := "s.zip"
  definition := some ⟨"Model", "Shell"⟩

def twoResources : MainConfig where
  shellsConf := [oneShell]
  resourcesConf := [
    { name := "dut", shellName := "s", attributes := [("User", "admin")] },
    { name := "tester", shellName := "s" }]

def Api.dutTaken : Api := { Api.obliging with
  createResource := fun _ _ _ name _ _ =>
    if name = "dut" then .error (.cloudShellApi "114" "Resource exists") else .ok () }

def dutThere : Resources := fun name =>
  if name = "dut" then some ⟨"Old", "10.0.0.1", fun _ => none⟩ else none

theorem firstRead_readies_taken : ∃ handlers st log,
    resourceHandlers (.of Api.dutTaken) { conf := twoResources } [] = (.ok handlers, st, log) ∧
      dutThere.Answered log ∧ ∃ resource, dutThere.run log "dut" = some resource ∧
        resource.model = "Old" ∧ resource.attributes "Model.User" = some "admin" := by
  obtain ⟨handlers, st, log, hread, hshells, hanswered⟩ : ∃ handlers st log,
      resourceHandlers (.of Api.dutTaken) { conf := twoResources } [] =
        (.ok handlers, st, log) ∧
        st.shellMemo = some [⟨oneShell, "Model", "Shell"⟩] ∧ dutThere.Answered log :=
    ⟨_, _, _, rfl, rfl, trivial, fun _ _ => Option.some_ne_none _, trivial, fun _ => rfl, trivial⟩
  obtain ⟨loaded, evs, rfl, hst, hready⟩ :=
    firstRead_readies (.of Api.dutTaken) rfl (by decide) hread
  obtain rfl := Option.some.inj (hshells.symm.trans (hst (by simp [twoResources])))
  refine ⟨handlers, st, _, hread, hanswered, ?_⟩
  have hdut := hready.resources dutThere hanswered
    ({ name := "dut", shellName := "s", attributes := [("User", "admin")] },
      ⟨oneShell, "Model", "Shell"⟩) (by decide)
  exact ⟨_, hdut, rfl, rfl⟩

end ShellTests.ResourcesReady
