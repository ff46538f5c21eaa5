import Mathlib.Data.List.Sort
import ShellTests.Handlers

/-!
# CloudShell and networking apps on Do

The tasks that `DoHandler` submits: `CSCreator` keeps the sandbox handler of
its latest attempt, `NetworkingAppsHandler` those of all apps. What a task
reserves on Do it ends, or a handler of it is kept.
-/

namespace ShellTests

variable {σ : Type} (api : Api)

/-- `topology_name.split("/", 1)[-1]` -/
def afterSlash (topologyName : String) : String :=
  match topologyName.toList.dropWhile (· ≠ '/') with
  | [] => topologyName
  | _ :: rest => String.ofList rest

def startsWith (head text : String) : Bool := head.toList.isPrefixOf text.toList

/-- `text.replace(" ", "-")` -/
def dashed (text : String) : String :=
  String.ofList (text.toList.map fun c => if c = ' ' then '-' else c)

/-- `str(names)` -/
def listStr (names : List String) : String :=
  "[" ++ ", ".intercalate (names.map fun name => "'" ++ name ++ "'") ++ "]"

/-- `{name: value for ...}[key]` -/
def lookupLast (key : String) (items : List (String × String)) : Option String :=
  (items.reverse.find? (·.1 == key)).map (·.2)

/-- `d[key] = value` -/
def dictSet (d : List (String × String)) (key value : String) : List (String × String) :=
  if d.any (·.1 == key) then d.map fun p => if p.1 == key then (key, value) else p
  else d ++ [(key, value)]

def SandboxHandler.getDeploymentResourceName (h : SandboxHandler) : Cs σ String := do
  let apps ← CloudShellHandler.getTopologyDetails api (h.conf.blueprintName.getD "")
  match apps with
  | [appName] =>
    let names ← CloudShellHandler.getResourcesNamesInReservation api h.reservationId
    match names.filter fun name => startsWith appName name || startsWith (dashed appName) name with
    | [name] => pure name
    | [] => throw (.deploymentResourceNotFound
        (s!"Could not find the deployment resource with prefix {appName} in " ++
          s!"the reservation {h.reservationId}. Available resources are {listStr names}"))
    | _ => throw (.deploymentResourceNotFound
        (s!"There are more than one suitable resource for the name {appName} in " ++
          s!"the reservation {h.reservationId}. Available resources are {listStr names}"))
  | _ => throw (.assertion "Supported only 1 app in the reservation")

structure DeploymentResourceHandler where
  conf : DeploymentResourceConfig
  name : String
  deriving DecidableEq, Repr

namespace DeploymentResourceHandler

-- the confs that come from here have no attributes to set
def createResource (conf : DeploymentResourceConfig) (sandbox : SandboxHandler) :
    Cs σ DeploymentResourceHandler := do
  let vmName ← SandboxHandler.getDeploymentResourceName api sandbox
  pure ⟨conf, vmName⟩

def getDetails (h : DeploymentResourceHandler) : Cs σ ResourceInfo :=
  CloudShellHandler.getResourceDetails api h.name

end DeploymentResourceHandler

/-- The first of the sorted topology names that ends in `name`. -/
def findTopologyName (category name : String) (missing : Exn) : Cs σ String := do
  let names ← CloudShellHandler.getTopologiesByCategory api category
  match (names.insertionSort (· ≤ ·)).find? (afterSlash · == name) with
  | some topologyName => pure topologyName
  | none => throw missing

-- ---------------------------------------------------------------------------
-- CSCreator, with its field `_cs_on_do_sandbox_handler`
-- ---------------------------------------------------------------------------

namespace CSCreator

variable (conf : CSonDoConfig)

def findTopologyNameForCloudshell : Cs σ String :=
  findTopologyName api "" conf.csVersion
    (.baseAutomation s!"CloudShell version {conf.csVersion} isn't exists")

def startCsSandbox : Cs σ SandboxHandler := do
  let topologyName ← findTopologyNameForCloudshell api conf
  SandboxHandler.create api
    { name := topologyName, blueprintName := some topologyName
      specificVersion := some conf.csSpecificVersion }

def getCsResource (sandbox : SandboxHandler) : Cs σ DeploymentResourceHandler :=
  DeploymentResourceHandler.createResource api
    { name := "CloudShell", blueprintName := conf.csVersion } sandbox

def getCsConfig (sandbox : SandboxHandler) : Cs σ CloudShellConfig := do
  let resource ← getCsResource api conf sandbox
  let info ← resource.getDetails api
  match lookupLast "OS Login" info.attributes, lookupLast "OS Password" info.attributes with
  | none, _ => throw (.key "OS Login")
  | _, none => throw (.key "OS Password")
  | some osUser, some osPassword =>
    pure { host := info.address, user := "admin", password := "admin", osUser, osPassword }

def finish : Cs (Option SandboxHandler) Unit := do
  match ← get with
  | some sandbox => SandboxHandler.endReservation api sandbox false
  | none => pure ()

/-- One attempt of `_create_cloudshell`. -/
def createCloudshellOnce : Cs (Option SandboxHandler) CloudShellConfig := do
  let sandbox ← startCsSandbox api conf
  modify fun _ => some sandbox
  tryCatch
    (do
      let csConf ← getCsConfig api conf sandbox
      CloudShellHandler.waitForCsIsStarted api csConf.host
      pure csConf)
    fun e => do
      if e = .csIsNotAlive then finish api
      throw e

def createCloudshell : Cs (Option SandboxHandler) CloudShellConfig :=
  retry (· = .csIsNotAlive) (createCloudshellOnce api conf) 4

end CSCreator

-- ---------------------------------------------------------------------------
-- NetworkingAppsHandler, with its set `_sandbox_handlers`
-- ---------------------------------------------------------------------------

namespace NetworkingAppsHandler

def startAppSandbox (appName : String) : Cs σ SandboxHandler := do
  let topologyName ← findTopologyName api "Networking Apps" appName
    (.baseAutomation s!"Networking App {appName} isn't exists")
  SandboxHandler.create api
    { name := s!"Networking App {appName}", blueprintName := some topologyName }

def getAppResource (sandbox : SandboxHandler) (conf : NetworkingAppConf) :
    Cs σ DeploymentResourceHandler :=
  DeploymentResourceHandler.createResource api
    { name := conf.name, blueprintName := conf.blueprintName } sandbox

def createApp (conf : NetworkingAppConf) : Cs (List SandboxHandler) DeploymentResourceHandler := do
  let sandbox ← startAppSandbox api conf.blueprintName
  modify (· ++ [sandbox])
  getAppResource api sandbox conf

end NetworkingAppsHandler

/-- `conf.attributes` after the default users were put in. -/
def defaultUsers (attributes : List (String × String)) : List (String × String) :=
  if (lookupLast "User" attributes).getD "" = "" then
    dictSet (dictSet (dictSet attributes "User" "admin") "Password" "admin")
      "Enable Password" "admin"
  else attributes

def updateResourceConf (h : DeploymentResourceHandler) : Cs (List ResourceConfig) Unit := do
  match (← get).findIdx? (·.networkingAppName == some h.conf.name) with
  | none => throw (.baseAutomation s!"Resource {h.conf.name} is not present in resources config")
  | some i =>
    let info ← h.getDetails api
    modify fun confs => confs.modify i fun conf =>
      { conf with deviceIp := some info.address, attributes := defaultUsers conf.attributes }

-- ---------------------------------------------------------------------------
-- What is reserved and not ended
-- ---------------------------------------------------------------------------

def Event.reserved? : Event → Option ReservationId
  | .createImmediateReservation _ _ (.ok rid)
  | .createImmediateTopologyReservation _ _ _ _ (.ok rid) => some rid
  | _ => none

def reserved (log : List Event) : List ReservationId := log.filterMap Event.reserved?

def Event.ended? : Event → Option ReservationId
  | .endReservation rid _ => some rid
  | _ => none

/-- The EndReservation calls of a log, failed ones included. -/
def ended (log : List Event) : List ReservationId := log.filterMap Event.ended?

@[simp] theorem reserved_append (a b : List Event) : reserved (a ++ b) = reserved a ++ reserved b :=
  List.filterMap_append ..

@[simp] theorem ended_append (a b : List Event) : ended (a ++ b) = ended a ++ ended b :=
  List.filterMap_append ..

/-- Whatever was reserved was ended as often, but for the reservations `held`. -/
def Balanced (held : List ReservationId) (log : List Event) : Prop :=
  ∀ rid, (reserved log).count rid ≤ (ended log).count rid + held.count rid

variable {held held' : List ReservationId} {evs evs' : List Event}

theorem Balanced.accounted (h : Balanced held log) (hrid : rid ∈ reserved log) :
    rid ∈ ended log ∨ rid ∈ held := by
  have hcount := h rid
  have hreserved := List.count_pos_iff.mpr hrid
  by_cases hend : rid ∈ ended log
  · exact .inl hend
  · rw [List.count_eq_zero_of_not_mem hend] at hcount
    exact .inr (List.count_pos_iff.mp (by omega))

theorem balanced_of_none (h : ∀ e ∈ evs, e.reserved? = none) : Balanced held evs := by
  intro rid
  simp [reserved, List.filterMap_eq_nil_iff.mpr h]

theorem balanced_append (h : Balanced held evs) (h' : Balanced held' evs') :
    Balanced (held ++ held') (evs ++ evs') := by
  intro rid
  have hrid := h rid
  have hrid' := h' rid
  simp only [reserved_append, ended_append, List.count_append]
  omega

theorem balanced_settled (h : Balanced [] evs) : Balanced held evs := by
  intro rid
  have hrid := h rid
  simp only [List.count_nil] at hrid
  omega

theorem balanced_skip (h : Balanced held evs) (hnone : ∀ e ∈ evs', e.reserved? = none) :
    Balanced held (evs ++ evs') := by
  have hevs' : Balanced [] evs' := balanced_of_none hnone
  simpa using balanced_append h hevs'

theorem balanced_end (h : Balanced held evs) (hnone : ∀ e ∈ evs', e.reserved? = none)
    (hended : ended evs' = held) : Balanced [] (evs ++ evs') := by
  intro rid
  have hrid := h rid
  have hnone : reserved evs' = [] := List.filterMap_eq_nil_iff.mpr hnone
  simp only [reserved_append, ended_append, List.count_append, hnone, hended, List.count_nil]
  omega

open Prog

theorem endReservation_ends (h : SandboxHandler) (s : σ) :
    Triple (SandboxHandler.endReservation api h false) s fun _ s' evs =>
      s' = s ∧ (∀ e ∈ evs, e.reserved? = none) ∧ ended evs = [h.reservationId] := by
  refine .bind (Q := fun _ s' evs => s' = s ∧ (∀ e ∈ evs, e.reserved? = none) ∧
    ended evs = [h.reservationId])
    (.call' fun r => ⟨rfl, by simp [Event.reserved?], rfl⟩) ?_ fun _ _ _ h => h
  intro _ s' evs hevs
  exact .pure' (by simpa using hevs)

def NoReservation (e : Event) : Prop := e.reserved? = none

theorem reserve_balanced (conf : SandboxConfig) (duration : Nat) (s : σ) :
    Triple (SandboxHandler.reserve api conf duration) s fun r s' evs =>
      s' = s ∧ (∀ rid, r = .ok rid → Balanced [rid] evs) ∧
        (∀ e, r = .error e → Balanced [] evs) := by
  unfold SandboxHandler.reserve
  split <;>
  · refine .call' fun r => ⟨rfl, ?_, ?_⟩
    · rintro rid rfl rid'
      simp [reserved, Event.reserved?]
    · rintro e rfl
      exact balanced_of_none (by simp; rfl)

/-- A sandbox handler comes with its reservation; a failed creation has ended its own. -/
theorem create_balanced (conf : SandboxConfig) (duration : Nat) (s : σ) :
    Triple (SandboxHandler.create api conf duration) s fun r s' evs =>
      s' = s ∧ (∀ h, r = .ok h → Balanced [h.reservationId] evs) ∧
        (∀ e, r = .error e → Balanced [] evs) := by
  refine .bind (reserve_balanced api conf duration s) ?_ fun e s' evs hevs =>
    ⟨hevs.1, by simp, fun e' _ => hevs.2.2 e rfl⟩
  rintro rid s evs ⟨rfl, hreserved, -⟩
  have hheld : Balanced [rid] evs := hreserved rid rfl
  have hwait : Emits NoReservation (CloudShellHandler.waitReservationIsStarted (σ := σ) api rid) :=
    waitStartedLoop_emits api rid (fun _ => rfl) (fun _ => rfl) 60
  refine .bind (Q := fun r s' evs' => s' = s ∧ (∀ a, r = .ok a → Balanced [rid] (evs ++ evs')) ∧
      (∀ e, r = .error e → Balanced [] (evs ++ evs'))) (.tryCatch' (hwait s) ?_ ?_) ?_ ?_
  · rintro _ s' evs' ⟨rfl, hevs'⟩
    exact ⟨rfl, fun _ _ => balanced_skip hheld hevs', by simp⟩
  · rintro e s' evs' ⟨rfl, hevs'⟩
    have hended (evs'' : List Event) (hnone : ∀ e ∈ evs'', e.reserved? = none)
        (hend : ended evs'' = [rid]) : Balanced [] (evs ++ (evs' ++ evs'')) := by
      rw [← List.append_assoc]
      exact balanced_end (balanced_skip hheld hevs') hnone hend
    refine .bind (endReservation_ends api ⟨conf, rid⟩ s') ?_ ?_
    · rintro _ s'' evs'' ⟨rfl, hnone, hend⟩
      exact .throw' ⟨rfl, by simp, fun _ _ => by simpa using hended evs'' hnone hend⟩
    · rintro e' s'' evs'' ⟨rfl, hnone, hend⟩
      exact ⟨rfl, by simp, fun _ _ => hended evs'' hnone hend⟩
  · rintro _ s' evs' ⟨rfl, hok, -⟩
    exact .pure' ⟨rfl, by rintro h ⟨⟩; simpa using hok _ rfl, by simp⟩
  · rintro e s' evs' ⟨rfl, -, herror⟩
    exact ⟨rfl, by simp, fun _ _ => herror e rfl⟩

theorem findTopologyName_emits (category name : String) (missing : Exn) :
    Emits NoReservation (findTopologyName (σ := σ) api category name missing) := by
  refine .bind (.call' fun _ => rfl) fun names => ?_
  split
  · exact .pure' _
  · exact .throw' _

theorem start_balanced {find : Cs σ String} (hfind : Emits NoReservation find)
    (conf : String → SandboxConfig) (s : σ) :
    Triple (do let topologyName ← find; SandboxHandler.create api (conf topologyName)) s
      fun r s' evs => s' = s ∧ (∀ h, r = .ok h → Balanced [h.reservationId] evs) ∧
        (∀ e, r = .error e → Balanced [] evs) := by
  refine .bind (hfind s) ?_ fun e s' evs hevs =>
    ⟨hevs.1, by simp, fun _ _ => balanced_of_none hevs.2⟩
  rintro topologyName s evs ⟨rfl, hevs⟩
  refine (create_balanced api (conf topologyName) 120 s).mono ?_
  rintro r s' evs' ⟨hs, hok, herror⟩
  have hnone : Balanced [] evs := balanced_of_none hevs
  exact ⟨hs, fun h hh => balanced_append hnone (hok h hh),
    fun e he => balanced_append hnone (herror e he)⟩

theorem getDeploymentResourceName_emits (h : SandboxHandler) :
    Emits NoReservation (SandboxHandler.getDeploymentResourceName (σ := σ) api h) := by
  refine .bind (.call' fun _ => rfl) fun apps => ?_
  split
  · refine .bind (.call' fun _ => rfl) fun names => ?_
    split
    · exact .pure' _
    · exact .throw' _
    · exact .throw' _
  · exact .throw' _

theorem createResource_emits (conf : DeploymentResourceConfig) (sandbox : SandboxHandler) :
    Emits NoReservation (DeploymentResourceHandler.createResource (σ := σ) api conf sandbox) :=
  .bind (getDeploymentResourceName_emits api sandbox) fun _ => .pure' _

theorem waitForCsLoop_emits (host : String) (n : Nat) :
    Emits NoReservation (CloudShellHandler.waitForCsLoop (σ := σ) api host n) := by
  induction n with
  | zero => exact .throw' _
  | succ n ih =>
    refine .tryCatch' (.call' fun _ => rfl) fun e => ?_
    split
    · exact ih
    · exact .throw' e

theorem getCsConfig_emits (conf : CSonDoConfig) (sandbox : SandboxHandler) :
    Emits NoReservation (CSCreator.getCsConfig (σ := σ) api conf sandbox) := by
  refine .bind (createResource_emits api _ sandbox) fun resource =>
    .bind (.call' fun _ => rfl) fun info => ?_
  split
  · exact .throw' _
  · exact .throw' _
  · exact .pure' _

def heldBy (field : Option SandboxHandler) : List ReservationId :=
  field.toList.map (·.reservationId)

theorem csFinish_ends (field : Option SandboxHandler) :
    Triple (CSCreator.finish api) field fun _ field' evs =>
      field' = field ∧ (∀ e ∈ evs, e.reserved? = none) ∧ ended evs = heldBy field := by
  refine .bind
    (.get' (Q := fun r field' evs => r = .ok field ∧ field' = field ∧ evs = []) ⟨rfl, rfl, rfl⟩) ?_
    (by rintro e field' evs ⟨⟨⟩, -⟩)
  rintro _ field' evs ⟨⟨⟩, rfl, rfl⟩
  cases field' with
  | some sandbox => exact endReservation_ends api sandbox (some sandbox)
  | none => exact .pure' ⟨rfl, by simp, rfl⟩

/-- An attempt that ends with `CSIsNotAliveError` has ended all it reserved. -/
theorem createCloudshellOnce_balanced (conf : CSonDoConfig) (field : Option SandboxHandler) :
    Triple (CSCreator.createCloudshellOnce api conf) field fun r field' evs =>
      Balanced (heldBy field') evs ∧ (r = .error .csIsNotAlive → Balanced [] evs) := by
  have hstart := start_balanced api (findTopologyName_emits api "" conf.csVersion
    (.baseAutomation s!"CloudShell version {conf.csVersion} isn't exists"))
    (fun topologyName => { name := topologyName, blueprintName := some topologyName,
                           specificVersion := some conf.csSpecificVersion }) field
  refine .bind hstart ?_ ?_
  · rintro sandbox _ evs ⟨rfl, hok, -⟩
    have hheld : Balanced [sandbox.reservationId] evs := hok sandbox rfl
    have htry : Emits NoReservation (do
        let csConf ← CSCreator.getCsConfig api conf sandbox
        CloudShellHandler.waitForCsIsStarted api csConf.host
        pure csConf : Cs (Option SandboxHandler) CloudShellConfig) :=
      .bind (getCsConfig_emits api conf sandbox) fun csConf =>
        .bind (waitForCsLoop_emits api csConf.host 10) fun _ => .pure' _
    refine .bind
      (.modify' (Q := fun r field' evs' => r = .ok ⟨⟩ ∧ field' = some sandbox ∧ evs' = [])
        ⟨rfl, rfl, rfl⟩)
      ?_ (by rintro e field' evs' ⟨⟨⟩, -⟩)
    rintro _ field' evs' ⟨-, rfl, rfl⟩
    refine .tryCatch' (htry (some sandbox)) ?_ ?_
    · rintro csConf field' evs' ⟨rfl, hevs'⟩
      exact ⟨balanced_skip hheld hevs', by simp⟩
    · rintro e field' evs' ⟨rfl, hevs'⟩
      have hheld' : Balanced [sandbox.reservationId] (evs ++ evs') := balanced_skip hheld hevs'
      split
      · have hended (evs'' : List Event) (hnone : ∀ e ∈ evs'', e.reserved? = none)
            (hend : ended evs'' = [sandbox.reservationId]) :
            Balanced [] (evs ++ ([] ++ (evs' ++ evs''))) := by
          simpa using balanced_end hheld' hnone hend
        refine .bind (csFinish_ends api (some sandbox)) ?_ ?_
        · rintro _ field' evs'' ⟨rfl, hnone, hend⟩
          have hsettled := hended evs'' hnone hend
          exact .throw' (by simpa using ⟨balanced_settled hsettled, fun _ => hsettled⟩)
        · rintro e' field' evs'' ⟨rfl, hnone, hend⟩
          have hsettled := hended evs'' hnone hend
          exact ⟨balanced_settled hsettled, fun _ => hsettled⟩
      · rename_i hne
        exact .throw' (by simpa [hne, heldBy] using hheld')
  · rintro e field' evs ⟨rfl, -, herror⟩
    have hnone : Balanced [] evs := herror e rfl
    exact ⟨balanced_settled hnone, fun _ => hnone⟩

theorem createCloudshell_balanced (conf : CSonDoConfig) (field : Option SandboxHandler) :
    Triple (CSCreator.createCloudshell api conf) field fun _ field' evs =>
      Balanced (heldBy field') evs := by
  refine (retry_triple (createCloudshellOnce_balanced api conf) ?_ 4 field).mono fun _ _ _ h => h.1
  intro e field evs r field' evs' hfirst hagain hrest
  obtain rfl : e = .csIsNotAlive := by simpa using hagain
  have hsettled : Balanced [] evs := hfirst.2 rfl
  exact ⟨balanced_append hsettled hrest.1, fun hr => balanced_append hsettled (hrest.2 hr)⟩

theorem createApp_balanced (conf : NetworkingAppConf) (handlers : List SandboxHandler) :
    Triple (NetworkingAppsHandler.createApp api conf) handlers fun _ handlers' evs =>
      ∃ new, handlers' = handlers ++ new ∧ Balanced (new.map (·.reservationId)) evs := by
  have hstart := start_balanced api (findTopologyName_emits api "Networking Apps" conf.blueprintName
    (.baseAutomation s!"Networking App {conf.blueprintName} isn't exists"))
    (fun topologyName => { name := s!"Networking App {conf.blueprintName}",
                           blueprintName := some topologyName }) handlers
  refine .bind hstart ?_ ?_
  · rintro sandbox handlers evs ⟨rfl, hok, -⟩
    refine .bind
      (.modify' (Q := fun r handlers' evs' => r = .ok ⟨⟩ ∧ handlers' = handlers ++ [sandbox] ∧
        evs' = []) ⟨rfl, rfl, rfl⟩) ?_ (by rintro e handlers' evs' ⟨⟨⟩, -⟩)
    rintro _ _ evs' ⟨-, rfl, rfl⟩
    refine (createResource_emits api _ sandbox (handlers ++ [sandbox])).mono ?_
    rintro r _ evs' ⟨rfl, hevs'⟩
    exact ⟨[sandbox], rfl, balanced_skip (hok sandbox rfl) hevs'⟩
  · rintro e _ evs ⟨rfl, -, herror⟩
    exact ⟨[], by simp, herror e rfl⟩

end ShellTests
