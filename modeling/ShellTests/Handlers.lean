import ShellTests.CloudShell

/-!
# Shell, resource and sandbox handlers

How each handler is created and finished, from `shell_handler.py`,
`resource_handler.py` and `sandbox_handler.py`. The specs at the end say what a
creation and a release leave in the log.
-/

namespace ShellTests

variable {σ : Type} (api : Api)

structure ShellHandler where
  conf : ShellConfig
  model : String
  csShellName : String
  deriving DecidableEq, Repr

structure ResourceHandler where
  conf : ResourceConfig
  name : String
  model : String
  deriving DecidableEq, Repr

structure SandboxHandler where
  conf : SandboxConfig
  reservationId : ReservationId
  deriving DecidableEq, Repr

namespace ShellHandler

variable (hasSmb : Bool) (h : ShellHandler)

def storeExtraFiles : Cs σ Unit := do
  match h.conf.dependenciesPath with
  | some path =>
    if hasSmb then
      Prog.call (api.addDependenciesToOfflinePypi · path) (.addDependenciesToOfflinePypi path)
  | none => pure ()
  if hasSmb ∧ h.conf.extraStandardsPaths ≠ [] then
    Prog.call (api.addExtraStandards · h.conf.extraStandardsPaths)
      (.addExtraStandards h.conf.extraStandardsPaths)

/-- `remove_shell` with the errors that `finish` passes over. -/
def removeQuietly : Cs σ Unit :=
  tryCatch (CloudShellHandler.removeShell api h.csShellName) fun e =>
    match e with
    | .shellNotFound => pure ()
    | _ => if e.isException ∧ mentions "This shell is used" e.str then pure () else throw e

def finish : Cs σ Unit := do
  removeQuietly api h
  if h.conf.dependenciesPath.isSome ∧ hasSmb then
    Prog.call api.clearOfflinePypi .clearOfflinePypi

def prepare : Cs σ Unit :=
  exceptException
    (do
      storeExtraFiles api hasSmb h
      CloudShellHandler.installShell api h.conf.path)
    fun e => do
      finish api hasSmb h
      throw e

def create (conf : ShellConfig) : Cs σ ShellHandler :=
  match conf.definition with
  | none => throw (.other "shell-definition.yaml")
  | some definition => do
    let handler : ShellHandler := ⟨conf, definition.model, definition.templateName⟩
    prepare api hasSmb handler
    pure handler

end ShellHandler

namespace ResourceHandler

/-- `conf.device_ip or "127.0.0.1"`. -/
def address (conf : ResourceConfig) : String :=
  match conf.deviceIp with
  | none | some "" => "127.0.0.1"
  | some ip => ip

def setAttributes (h : ResourceHandler) (attributes : List (String × String)) : Cs σ Unit :=
  let ns := if h.conf.isFirstGen then "" else h.model
  CloudShellHandler.setResourceAttributes api h.name ns attributes

def createResource (h : ResourceHandler) : Cs σ ResourceHandler := do
  let name ← CloudShellHandler.createResource api h.name h.model (address h.conf) "" ""
  let h := { h with name }
  if h.conf.attributes ≠ [] then setAttributes api h h.conf.attributes
  pure h

def create (conf : ResourceConfig) (shell : ShellHandler) : Cs σ ResourceHandler :=
  createResource api { conf, name := conf.name, model := shell.model }

def finish (h : ResourceHandler) : Cs σ Unit := CloudShellHandler.deleteResource api h.name

end ResourceHandler

namespace SandboxHandler

def reserve (conf : SandboxConfig) (duration : Nat) : Cs σ ReservationId :=
  match conf.blueprintName with
  | none | some "" => CloudShellHandler.createReservation api conf.name duration
  | some blueprint =>
    CloudShellHandler.createTopologyReservation api conf.name blueprint duration
      conf.specificVersion

def create (conf : SandboxConfig) (duration : Nat := 120) : Cs σ SandboxHandler := do
  let rid ← reserve api conf duration
  tryCatch (CloudShellHandler.waitReservationIsStarted api rid) fun e => do
    CloudShellHandler.endReservation api rid false
    throw e
  pure ⟨conf, rid⟩

def endReservation (h : SandboxHandler) (wait : Bool := true) : Cs σ Unit :=
  CloudShellHandler.endReservation api h.reservationId wait

def finish (h : SandboxHandler) (wait : Bool := true) : Cs σ Unit := endReservation api h wait

end SandboxHandler

-- ---------------------------------------------------------------------------
-- What a release leaves in the log
-- ---------------------------------------------------------------------------

inductive Release
  | endReservation (rid : ReservationId)
  | deleteResource (name : String)
  | deleteShell (name : String)
  deriving DecidableEq, Repr

def Event.release? : Event → Option Release
  | .endReservation rid _ => some (.endReservation rid)
  | .deleteResource name _ => some (.deleteResource name)
  | .deleteShell name _ => some (.deleteShell name)
  | _ => none

/-- The release calls of a log, failed ones included. -/
def releases (log : List Event) : List Release := log.filterMap Event.release?

@[simp] theorem releases_nil : releases [] = [] := rfl

theorem not_mem_releases_cons {release : Release} : release ∉ releases (e :: log) ↔
    e.release? ≠ some release ∧ release ∉ releases log := by
  simp only [releases, List.mem_filterMap, List.mem_cons, or_and_right, exists_or, exists_eq_left,
    not_or, Ne]

@[simp] theorem releases_append (a b : List Event) : releases (a ++ b) = releases a ++ releases b :=
  List.filterMap_append ..

open Prog CloudShellHandler

theorem waitCompletedLoop_releases (rid : ReservationId) (n : Nat) (s : σ) :
    Triple (waitCompletedLoop api rid n) s fun _ s' evs => s' = s ∧ releases evs = [] := by
  induction n with
  | zero => exact .throw' ⟨rfl, rfl⟩
  | succ n ih =>
    refine .bind (Q := fun _ s' evs => s' = s ∧ releases evs = [])
      (.call' fun r => ⟨rfl, rfl⟩) ?_ ?_
    · rintro status s' evs ⟨rfl, hevs⟩
      split
      · exact .pure' ⟨rfl, by simpa using hevs⟩
      · exact ih.mono fun r s'' evs' ⟨hs, hevs'⟩ => ⟨hs, by simp [hevs, hevs']⟩
    · exact fun _ _ _ h => h

theorem endReservation_releases (rid : ReservationId) (wait : Bool) (s : σ) :
    Triple (CloudShellHandler.endReservation api rid wait) s fun _ s' evs =>
      s' = s ∧ releases evs = [.endReservation rid] := by
  refine .bind (Q := fun _ s' evs => s' = s ∧ releases evs = [.endReservation rid])
    (.call' fun r => ⟨rfl, rfl⟩) ?_ fun _ _ _ h => h
  rintro _ s' evs ⟨rfl, hevs⟩
  split
  · exact (waitCompletedLoop_releases api rid 30 s').mono fun r s'' evs' ⟨hs, hevs'⟩ =>
      ⟨hs, by simp [hevs, hevs']⟩
  · exact .pure' ⟨rfl, by simpa using hevs⟩

theorem ResourceHandler.finish_releases (h : ResourceHandler) (s : σ) :
    Triple (ResourceHandler.finish api h) s fun _ s' evs =>
      s' = s ∧ releases evs = [.deleteResource h.name] :=
  .call' fun _ => ⟨rfl, rfl⟩

theorem ShellHandler.removeQuietly_releases (h : ShellHandler) (s : σ) :
    Triple (ShellHandler.removeQuietly api h) s fun _ s' evs =>
      s' = s ∧ releases evs = [.deleteShell h.csShellName] := by
  refine .tryCatch' (Q := fun _ s' evs => s' = s ∧ releases evs = [.deleteShell h.csShellName])
    (.call' fun r => ⟨rfl, rfl⟩) (fun _ _ _ h => h) ?_
  rintro e s' evs ⟨rfl, hevs⟩
  cases e
  case shellNotFound => exact .pure' ⟨rfl, by simpa using hevs⟩
  all_goals
    simp only
    split
    · exact .pure' ⟨rfl, by simpa using hevs⟩
    · exact .throw' ⟨rfl, by simpa using hevs⟩

theorem ShellHandler.finish_releases (hasSmb : Bool) (h : ShellHandler) (s : σ) :
    Triple (ShellHandler.finish api hasSmb h) s fun _ s' evs =>
      s' = s ∧ releases evs = [.deleteShell h.csShellName] := by
  refine .bind (ShellHandler.removeQuietly_releases api h s) ?_ fun _ _ _ h => h
  rintro _ s' evs ⟨rfl, hevs⟩
  split
  · exact .call' fun r => ⟨rfl, by simp [hevs]; rfl⟩
  · exact .pure' ⟨rfl, by simpa using hevs⟩

-- ---------------------------------------------------------------------------
-- What a creation leaves in the log
-- ---------------------------------------------------------------------------

def Event.OfReservation : Event → Prop
  | .createImmediateReservation .. | .createImmediateTopologyReservation ..
  | .getReservationStatus .. | .getReservationErrors .. | .endReservation .. => True
  | _ => False

/-- The calls about one shell; only the shell itself is deleted. -/
def Event.OfShell (csShellName : String) : Event → Prop
  | .addShell .. | .updateShell .. | .addDependenciesToOfflinePypi ..
  | .addExtraStandards .. | .clearOfflinePypi .. => True
  | .deleteShell name _ => name = csShellName
  | _ => False

theorem exceptException_emits {P : Event → Prop} {m : Cs σ α} {h : Exn → Cs σ α} (hm : Emits P m)
    (hh : ∀ e, Emits P (h e)) : Emits P (exceptException m h) := by
  refine .tryCatch' hm fun e => ?_
  split
  · exact hh e
  · exact .throw' e

theorem waitStartedLoop_emits {P : Event → Prop} (rid : ReservationId)
    (hstatus : ∀ r, P (.getReservationStatus rid r))
    (herrors : ∀ r, P (.getReservationErrors rid r)) (n : Nat) :
    Emits P (waitStartedLoop (σ := σ) api rid n) := by
  induction n with
  | zero => exact .throw' _
  | succ n ih =>
    refine .bind (.call' hstatus) fun status => ?_
    split
    · exact .pure' ()
    split
    · exact .bind (.call' herrors) fun errors => .throw' _
    · exact ih

theorem waitCompletedLoop_emits {P : Event → Prop} (rid : ReservationId)
    (hstatus : ∀ r, P (.getReservationStatus rid r)) (n : Nat) :
    Emits P (waitCompletedLoop (σ := σ) api rid n) := by
  induction n with
  | zero => exact .throw' _
  | succ n ih =>
    refine .bind (.call' hstatus) fun status => ?_
    split
    · exact .pure' ()
    · exact ih

theorem endReservation_emits {P : Event → Prop} (rid : ReservationId) (wait : Bool)
    (hend : ∀ r, P (.endReservation rid r)) (hstatus : ∀ r, P (.getReservationStatus rid r)) :
    Emits P (CloudShellHandler.endReservation (σ := σ) api rid wait) := by
  refine .bind (.call' hend) fun _ => ?_
  split
  · exact waitCompletedLoop_emits api rid hstatus 30
  · exact .pure' ()

theorem SandboxHandler.create_emits (conf : SandboxConfig) (duration : Nat) :
    Emits Event.OfReservation (SandboxHandler.create (σ := σ) api conf duration) := by
  refine .bind ?_ fun rid => .bind (.tryCatch' ?_ fun e => ?_) fun _ => .pure' _
  · unfold SandboxHandler.reserve
    split <;> exact .call' fun _ => trivial
  · exact waitStartedLoop_emits api rid (fun _ => trivial) (fun _ => trivial) 60
  · exact .bind (endReservation_emits api rid false (fun _ => trivial) fun _ => trivial) fun _ =>
      .throw' e

theorem ShellHandler.finish_emits (hasSmb : Bool) (h : ShellHandler) :
    Emits (Event.OfShell h.csShellName) (ShellHandler.finish (σ := σ) api hasSmb h) := by
  refine .bind (.tryCatch' (.call' fun _ => rfl) fun e => ?_) fun _ => ?_
  · split
    · exact .pure' ()
    split
    · exact .pure' ()
    · exact .throw' _
  · split
    · exact .call' fun _ => trivial
    · exact .pure' ()

theorem installShell_emits {P : Event → Prop} (path : String) (hadd : ∀ r, P (.addShell path r))
    (hupdate : ∀ name r, P (.updateShell path name r)) :
    Emits P (CloudShellHandler.installShell (σ := σ) api path) := by
  refine retry_emits (exceptException_emits (.call' hadd) fun e => ?_) _ 6
  split
  · exact .throw' _
  split
  · split
    · exact .call' (hupdate _)
    · exact .throw' _
  · exact .throw' e

theorem ShellHandler.storeExtraFiles_emits {P : Event → Prop} (hasSmb : Bool) (h : ShellHandler)
    (hdependencies : ∀ path r, P (.addDependenciesToOfflinePypi path r))
    (hstandards : ∀ paths r, P (.addExtraStandards paths r)) :
    Emits P (ShellHandler.storeExtraFiles (σ := σ) api hasSmb h) := by
  have hextra : Emits P
      (if hasSmb ∧ h.conf.extraStandardsPaths ≠ [] then
        Prog.call (api.addExtraStandards · h.conf.extraStandardsPaths)
          (.addExtraStandards h.conf.extraStandardsPaths) else pure () : Cs σ Unit) := by
    split
    · exact .call' (hstandards _)
    · exact .pure' ()
  unfold ShellHandler.storeExtraFiles
  cases h.conf.dependenciesPath with
  | none => exact hextra
  | some path =>
    simp only
    split
    · exact .bind (.call' (hdependencies _)) fun _ => hextra
    · exact hextra

theorem ShellHandler.tryPrepare_emits {P : Event → Prop} (hasSmb : Bool) (h : ShellHandler)
    (hP : ∀ e, e.OfShell h.csShellName → e.release? = none → P e) :
    Emits P (do ShellHandler.storeExtraFiles (σ := σ) api hasSmb h
                CloudShellHandler.installShell api h.conf.path) :=
  .bind (storeExtraFiles_emits api hasSmb h (fun _ _ => hP _ trivial rfl) fun _ _ =>
    hP _ trivial rfl)
    fun _ => installShell_emits api _ (fun _ => hP _ trivial rfl) fun _ _ => hP _ trivial rfl

theorem ShellHandler.prepare_emits (hasSmb : Bool) (h : ShellHandler) :
    Emits (Event.OfShell h.csShellName) (ShellHandler.prepare (σ := σ) api hasSmb h) :=
  exceptException_emits (tryPrepare_emits api hasSmb h fun _ he _ => he) fun e =>
    .bind (finish_emits api hasSmb h) fun _ => .throw' e

theorem releases_of_emits (h : ∀ e ∈ evs, Event.release? e = none) : releases evs = [] :=
  List.filterMap_eq_nil_iff.mpr h

/-- A sandbox handler comes with a reservation that is not released yet; a
creation that fails releases it at most once. -/
theorem SandboxHandler.create_releases (conf : SandboxConfig) (duration : Nat) (s : σ) :
    Triple (SandboxHandler.create api conf duration) s fun r _ evs =>
      (∀ h, r = .ok h → h.conf = conf ∧ releases evs = []) ∧ (releases evs).length ≤ 1 := by
  have hreserve : Emits (fun e => e.release? = none) (reserve (σ := σ) api conf duration) := by
    unfold reserve
    split <;> exact .call' fun _ => rfl
  refine .bind (hreserve.events s) ?_ fun e s' evs hevs =>
    ⟨by simp, by simp [releases_of_emits hevs]⟩
  intro rid s' evs hevs
  have hwait : Emits (fun e => e.release? = none) (waitStartedLoop (σ := σ) api rid 60) :=
    waitStartedLoop_emits api rid (fun _ => rfl) (fun _ => rfl) 60
  refine .bind (Q := fun r _ evs' => (∀ a, r = .ok a → releases evs' = []) ∧
    (releases evs').length ≤ 1)
    (.tryCatch' (hwait.events s') ?_ ?_) ?_ ?_
  · intro _ s'' evs' hevs'
    simp [releases_of_emits hevs']
  · intro e s'' evs' hevs'
    refine .bind (endReservation_releases api rid false s'') (fun _ _ evs'' hend => ?_) ?_
    · refine .throw' ⟨by simp, ?_⟩
      simp [releases_of_emits hevs', hend.2]
    · intro e' _ evs'' hend
      exact ⟨by simp, by simp [releases_of_emits hevs', hend.2]⟩
  · intro _ s'' evs' hevs'
    refine .pure' ⟨?_, by simpa [releases_of_emits hevs] using hevs'.2⟩
    rintro h ⟨⟩
    exact ⟨rfl, by simpa [releases_of_emits hevs] using hevs'.1 _ rfl⟩
  · intro e s'' evs' hevs'
    exact ⟨by simp, by simpa [releases_of_emits hevs] using hevs'.2⟩

theorem ShellHandler.prepare_releases (hasSmb : Bool) (h : ShellHandler) (s : σ) :
    Triple (ShellHandler.prepare api hasSmb h) s fun r _ evs =>
      (r = .ok () → releases evs = []) ∧ (releases evs).length ≤ 1 := by
  refine .tryCatch' ((tryPrepare_emits api hasSmb h (fun _ _ he => he)).events s) ?_ ?_
  · intro _ s' evs hevs
    simp [releases_of_emits hevs]
  · intro e s' evs hevs
    split
    · refine .bind (ShellHandler.finish_releases api hasSmb h s') (fun _ _ evs' hend => ?_) ?_
      · exact .throw' ⟨by simp, by simp [releases_of_emits hevs, hend.2]⟩
      · intro e' _ evs' hend
        exact ⟨by simp, by simp [releases_of_emits hevs, hend.2]⟩
    · exact .throw' ⟨by simp, by simp [releases_of_emits hevs]⟩

theorem ShellHandler.create_releases (hasSmb : Bool) (conf : ShellConfig) (s : σ) :
    Triple (ShellHandler.create api hasSmb conf) s fun r _ evs =>
      (∀ h, r = .ok h → h.conf = conf ∧ releases evs = []) ∧ (releases evs).length ≤ 1 := by
  unfold ShellHandler.create
  split
  · exact .throw' ⟨by simp, by simp⟩
  · refine .bind (ShellHandler.prepare_releases api hasSmb _ s) ?_ fun _ _ _ hevs =>
      ⟨by simp, hevs.2⟩
    intro _ s' evs hevs
    refine .pure' ⟨?_, by simpa using hevs.2⟩
    rintro h ⟨⟩
    exact ⟨rfl, by simpa using hevs.1 rfl⟩

/-- A shell handler carries its conf and the name from its archive, and only
that shell is deleted on its way. -/
theorem ShellHandler.create_spec (hasSmb : Bool) (conf : ShellConfig) (s : σ) :
    Triple (ShellHandler.create api hasSmb conf) s fun r _ evs =>
      (∀ h, r = .ok h → h.conf = conf ∧
        conf.definition.map ShellDefinition.templateName = some h.csShellName) ∧
      ∀ e ∈ evs, ∃ name, conf.definition.map ShellDefinition.templateName = some name ∧
        e.OfShell name := by
  unfold ShellHandler.create
  split
  · exact .throw' ⟨by simp, by simp⟩
  · rename_i definition hdef
    let handler : ShellHandler := ⟨conf, definition.model, definition.templateName⟩
    have hname : conf.definition.map ShellDefinition.templateName = some handler.csShellName := by
      simp [hdef, handler]
    refine .bind ((ShellHandler.prepare_emits api hasSmb handler).events s) ?_ ?_
    · intro _ s' evs hevs
      refine .pure' ⟨?_, ?_⟩
      · rintro h ⟨⟩
        exact ⟨rfl, hname⟩
      · exact fun e he => ⟨_, hname, hevs e (by simpa using he)⟩
    · intro e s' evs hevs
      exact ⟨by simp, fun e he => ⟨_, hname, hevs e he⟩⟩

-- ---------------------------------------------------------------------------
-- Which resources a creation claims
-- ---------------------------------------------------------------------------

/-- Whether `create_resource` takes the answer to CreateResource for a success:
the resource was created, or its name is taken. -/
def nameAccepted : Except Exn Unit → Bool
  | .ok () => true
  | .error (.cloudShellApi code _) => code = "114"
  | .error _ => false

/-- The resource name that a CreateResource call created or found taken. -/
def Event.claimed? : Event → Option String
  | .createResource _ _ name _ _ r => if nameAccepted r then some name else none
  | _ => none

def claimed (log : List Event) : List String := log.filterMap Event.claimed?

@[simp] theorem claimed_append (a b : List Event) : claimed (a ++ b) = claimed a ++ claimed b :=
  List.filterMap_append ..

/-- The resource name that a CreateResource call created. -/
def Event.created? : Event → Option String
  | .createResource _ _ name _ _ (.ok ()) => some name
  | _ => none

def created (log : List Event) : List String := log.filterMap Event.created?

theorem mem_created_cons : name ∈ created (e :: log) ↔
    e.created? = some name ∨ name ∈ created log := by
  simp only [created, List.mem_filterMap, List.mem_cons, or_and_right, exists_or, exists_eq_left]

@[simp] theorem created_append (a b : List Event) : created (a ++ b) = created a ++ created b :=
  List.filterMap_append ..

theorem created_of_shell (e : Event) (h : e.OfShell name) : e.created? = none := by
  cases e <;> first | rfl | exact h.elim

def Event.OfResource : Event → Prop
  | .createResource .. | .setAttributesValues .. => True
  | _ => False

theorem createResource_run (name model address family parentPath : String) (s : σ)
    (log : List Event) (hr : api.createResource log family model name address parentPath = r) :
    CloudShellHandler.createResource api name model address family parentPath s log =
      (if nameAccepted r then .ok name else r.map fun _ => name, s,
        log ++ [.createResource family model name address parentPath r]) := by
  simp only [CloudShellHandler.createResource, run_tryCatch, run_bind, run_call, hr]
  rcases r with e | _
  · cases e
    case cloudShellApi code message =>
      simp only [nameAccepted, decide_eq_true_eq]
      by_cases hcode : code = "114" <;> simp [hcode, Except.map]
    all_goals rfl
  · rfl

namespace ResourceHandler

variable (conf : ResourceConfig) (shell : ShellHandler)

/-- The attributes as `set_attributes` sends them. -/
def sentAttributes : List (String × String) :=
  let ns := if conf.isFirstGen then "" else shell.model
  let ns := if ns = "" then "" else ns ++ "."
  conf.attributes.map fun (key, value) => (ns ++ key, value)

def createEvent (r : Except Exn Unit) : Event :=
  .createResource "" shell.model conf.name (address conf) "" r

theorem create_run (s : σ) (log : List Event)
    (hr : api.createResource log "" shell.model conf.name (address conf) "" = r) :
    ResourceHandler.create api conf shell s log =
      if nameAccepted r then
        if conf.attributes = [] then
          (.ok ⟨conf, conf.name, shell.model⟩, s, log ++ [createEvent conf shell r])
        else
          let r' := api.setAttributesValues (log ++ [createEvent conf shell r]) conf.name
            (sentAttributes conf shell)
          (r'.map fun _ => ⟨conf, conf.name, shell.model⟩, s,
            log ++ [createEvent conf shell r,
              .setAttributesValues conf.name (sentAttributes conf shell) r'])
      else
        (r.map fun _ => ⟨conf, conf.name, shell.model⟩, s, log ++ [createEvent conf shell r]) := by
  have hname := createResource_run api conf.name shell.model (address conf) "" "" s log hr
  simp only [ResourceHandler.create, createResource]
  by_cases hok : nameAccepted r
  · rw [if_pos hok] at hname
    rw [run_bind_ok hname, if_pos hok]
    by_cases hattr : conf.attributes = []
    · simp [hattr, createEvent]
    · rw [if_neg hattr, if_pos hattr, run_bind, setAttributes,
        CloudShellHandler.setResourceAttributes,
        run_call]
      simp only [createEvent, sentAttributes, List.append_assoc, List.cons_append, List.nil_append]
      rcases api.setAttributesValues _ _ _ with e | _ <;> rfl
  · rw [if_neg hok] at hname
    rcases r with e | _
    · rw [run_bind_error hname, if_neg hok]
      rfl
    · exact absurd rfl hok

theorem create_conf (s : σ) :
    Triple (ResourceHandler.create api conf shell) s fun r _ _ =>
      ∀ h, r = .ok h → h.conf = conf := by
  intro log
  rw [create_run api conf shell s log rfl]
  split
  · split
    · exact ⟨_, _, _, rfl, by rintro h ⟨⟩; rfl⟩
    · refine ⟨_, _, _, rfl, fun h hh => ?_⟩
      revert hh
      rcases api.setAttributesValues _ _ _ with e | _ <;> simp [Except.map]
      rintro rfl
      rfl
  · refine ⟨_, _, _, rfl, fun h hh => ?_⟩
    revert hh
    rcases api.createResource _ _ _ _ _ _ with e | _ <;> simp [Except.map]
    rintro rfl
    rfl

/-- A resource handler has the name of its conf, which its CreateResource call
created or found taken. -/
theorem create_spec (s : σ) :
    Triple (ResourceHandler.create api conf shell) s fun r _ evs =>
      (∀ h, r = .ok h → h.name = conf.name ∧ h.name ∈ claimed evs) ∧ ∀ e ∈ evs, e.OfResource := by
  intro log
  obtain ⟨r, hr⟩ : ∃ r, api.createResource log "" shell.model conf.name (address conf) "" = r :=
    ⟨_, rfl⟩
  rw [create_run api conf shell s log hr]
  split
  · rename_i hok
    have hclaimed (evs : List Event) : conf.name ∈ claimed (createEvent conf shell r :: evs) := by
      simp [claimed, createEvent, Event.claimed?, hok]
    split
    · refine ⟨_, _, _, rfl, ?_, by simp [createEvent, Event.OfResource]⟩
      rintro h ⟨⟩
      exact ⟨rfl, hclaimed _⟩
    · refine ⟨_, _, _, rfl, ?_, by simp [createEvent, Event.OfResource]⟩
      intro h hh
      obtain rfl : h = ⟨conf, conf.name, shell.model⟩ := by
        revert hh
        rcases api.setAttributesValues _ _ _ with e | _ <;> simp [Except.map, eq_comm]
      exact ⟨rfl, hclaimed _⟩
  · rename_i hok
    refine ⟨_, _, _, rfl, ?_, by simp [createEvent, Event.OfResource]⟩
    rcases r with e | _
    · simp [Except.map]
    · exact absurd rfl hok

end ResourceHandler

end ShellTests
