import ShellTests.AppPositions
import ShellTests.CloudShell
import ShellTests.DebugLogs

/-!
# Packages of apps and blueprints

`create_apps` and `create_blueprints` write a package file, import it into
CloudShell and delete it again; `AutomatedPrepareEnv.run` does both before it
creates the sandboxes. XML is the nested Python data that `xmltodict.unparse`
writes it from.
-/

namespace ShellTests.Packages

open Prog
open AppPositions (Position AppPositionOnBlueprint defaultPositions)
open DebugLogs (Data)

-- ---------------------------------------------------------------------------
-- The models
-- ---------------------------------------------------------------------------

structure AppConfig where
  name : String
  cpResourceName : String
  deployment : String
  attributes : List (String × String) := []

structure BlueprintConfig where
  name : String
  appNames : List String := []

structure CloudProvider where
  name : String
  model : String

def createAttributes (attributes : List (String × String)) (deploymentPath : String := "") :
    Data :=
  let nameSpace := if deploymentPath = "" then "" else deploymentPath ++ "."
  .dict [("Attribute", .list (attributes.map fun (key, val) =>
    .dict [("@Name", .text (nameSpace ++ key)), ("@Value", .text val)]))]

def getBool (v : Bool) : String := if v then "true" else "false"

def xmlSchemas : List (String × Data) :=
  [("@xmlns:xsd", .text "http://www.w3.org/2001/XMLSchema"),
    ("@xmlns:xsi", .text "http://www.w3.org/2001/XMLSchema-instance")]

structure MetaData where
  now : String
  csVersion : String := "9.3.0"

def MetaData.xmlRootDict (metadata : MetaData) : Data :=
  .dict [("Metadata", .dict (xmlSchemas ++
    [("@xmlns", .text "http://schemas.qualisystems.com/PackageMetadataSchema.xsd"),
      ("CreationDate", .text metadata.now), ("ServerVersion", .text metadata.csVersion),
      ("PackageType", .text "CloudShellPackage")]))]

structure DeploymentPath where
  cpName : String
  cpModel : String
  deploymentPath : String
  attributes : List (String × String)
  isDefault : Bool := false

namespace DeploymentPath

/-- The deployment path under the model of its provider. -/
def dp (d : DeploymentPath) : String :=
  if (d.cpModel ++ ".").isPrefixOf d.deploymentPath then d.deploymentPath
  else d.cpModel ++ "." ++ d.deploymentPath

def xmlDict (d : DeploymentPath) : Data :=
  .dict [("@Name", .text (d.cpName ++ " - " ++ d.dp)),
    ("@Default", .text (getBool d.isDefault)),
    ("DeploymentService", .dict [("@Name", .text d.dp), ("@CloudProvider", .text d.cpName),
      ("Attributes", createAttributes d.attributes d.dp)])]

end DeploymentPath

/-- An app has a first deployment path. -/
structure App where
  name : String
  first : DeploymentPath
  others : List DeploymentPath := []

namespace App

def deploymentPaths (app : App) : List DeploymentPath := app.first :: app.others

def defaultAppResource : Data :=
  .dict [("@ModelName", .text "Generic App Model"), ("@Driver", .text ""),
    ("Attributes", createAttributes [("Password", ""), ("Public IP", ""), ("User", "")])]

def xmlDict (app : App) : List (String × Data) :=
  [("AppResourceInfo", .dict [("@Name", .text app.name),
    ("AppResources", .dict [("AppResource", .list [defaultAppResource])]),
    ("DeploymentPaths", .dict
      [("DeploymentPath", .list (app.deploymentPaths.map DeploymentPath.xmlDict))])])]

def xmlRootDict (app : App) : Data :=
  .dict [("AppTemplateInfo", .dict (xmlSchemas ++ app.xmlDict ++
    [("Categories", .dict [("Category", .list [.text "Applications"])])]))]

/-- `app.deployment_paths[0].is_default = True` -/
def withDefault (app : App) : App := { app with first := { app.first with isDefault := true } }

end App

namespace Blueprint

-- what `get_random_position` returns, where it does
variable (random : AppPositionOnBlueprint → Position)

/-- `position_gen.get_new_position` for each of the apps. -/
def place (gen : AppPositionOnBlueprint) : List App → List (Position × App)
  | [] => []
  | app :: apps =>
    let position := defaultPositions[gen.appNum]?.getD (random gen)
    let gen := { appNum := gen.appNum + 1, usedPositions := position :: gen.usedPositions }
    (position, app) :: place gen apps

/-- `get_apps_dict`, once the first deployment paths are the default ones. -/
def appsDict (apps : List App) : List Data :=
  (place random {} apps).map fun (position, app) =>
    .dict ([("@PositionX", .text (toString position.1)),
      ("@PositionY", .text (toString position.2)), ("@TemplateName", .text app.name)] ++
      app.xmlDict)

def details (name : String) : Data :=
  .dict [("@Name", .text name), ("@Public", .text "false"),
    ("@Driver", .text "Python Setup & Teardown"), ("@SetupDuration", .text "10"),
    ("@TeardownDuration", .text "10"), ("@EnableSandboxSave", .text "true"),
    ("Scripts", .dict [("Script", .list
      [.dict [("@Name", .text "Default Sandbox Save 3.0")],
        .dict [("@Name", .text "Default Sandbox Teardown 3.0")],
        .dict [("@Name", .text "Default Sandbox Restore 3.0")],
        .dict [("@Name", .text "Default Sandbox Setup 3.0")]])])]

def xmlRootDict (name : String) (apps : List App) : Data :=
  .dict [("TopologyInfo", .dict (xmlSchemas ++
    [("Details", details name), ("Apps", .dict [("App", .list (appsDict random apps))])]))]

end Blueprint

namespace Blueprint

theorem place_congr {random random' : AppPositionOnBlueprint → Position} (apps : List App)
    (h : ∀ g : AppPositionOnBlueprint, gen.appNum ≤ g.appNum → random g = random' g) :
    place random gen apps = place random' gen apps := by
  induction apps generalizing gen with
  | nil => rfl
  | cons app apps ih =>
    unfold place
    rw [h gen le_rfl]
    dsimp only
    rw [ih fun g hg => h g (Nat.le_of_succ_le hg)]

/-- The positions that the generator gives in a run that returns. -/
theorem place_of_getAppsDict {apps : List App}
    (h : gen.getAppsDict apps draws = some (placed, gen', draws')) :
    ∃ random, place random gen apps = placed := by
  induction apps generalizing gen draws placed with
  | nil =>
    obtain ⟨rfl, -⟩ := Prod.mk.inj (Option.some.inj h)
    exact ⟨fun _ => (0, 0), rfl⟩
  | cons app apps ih =>
    obtain ⟨position, gen₁, draws₁, rest, hnew, hrest, rfl⟩ := AppPositions.getAppsDict_cons h
    obtain ⟨rfl, hposition, -⟩ := AppPositions.getNewPosition_some hnew
    obtain ⟨random, rfl⟩ := ih hrest
    refine ⟨fun g => if g.appNum = gen.appNum then position else random g, ?_⟩
    have hhere : defaultPositions[gen.appNum]?.getD position = position := by
      rcases hposition with hdefault | ⟨hnone, -⟩
      · simp [hdefault]
      · simp [hnone]
    simp only [place, if_true, hhere]
    congr 1
    exact place_congr apps fun g hg => if_neg (Nat.ne_of_gt hg)

end Blueprint

-- ---------------------------------------------------------------------------
-- The package file
-- ---------------------------------------------------------------------------

inductive Content
  | xml (root : Data)
  | pythonDriver
  -- a member of `bp_scripts.zip`, which is imported as it is
  | script

/-- The members of a zip file. -/
abbrev Archive := List (String × Content)

/-- The package at `BP_SCRIPT_PATH`. -/
def bpScripts : Archive :=
  ["metadata.xml", "DataModel/datamodel.xml", "Topology Scripts/set_debug_logs.zip",
    "Topologies/scripts.xml", "Categories/categories.xml"].map (·, .script)

inductive Removal
  | removed
  | notFound
  | failed (e : Exn)

/-- A step of `AutomatedPrepareEnv.run` that imports no package. -/
inductive Step
  | checkAllResourcesIsAlive
  | prepareDo
  -- the calls of `set_debug_level_via_blueprint` after its import
  | createTopologyReservation
  | executeReservationCommand
  | createResources
  | autoload (resourceName : String)
  | createSandboxes
  deriving DecidableEq

inductive Event
  | createTemp (r : Except Exn Unit)
  | createZip (r : Except Exn Unit)
  | append (path : String) (r : Except Exn Unit)
  | importPackage (archive : Archive) (r : Except Exn Unit)
  | remove (r : Removal)
  | step (step : Step) (r : Except Exn Unit)

structure Api where
  createTemp : List Event → Except Exn Unit
  createZip : List Event → Except Exn Unit
  -- with what the archive holds once a member cannot be added
  append : List Event → Except (Exn × Archive) Unit
  importPackage : List Event → Except Exn Unit
  remove : List Event → Removal
  step : List Event → Step → Except Exn Unit
  now : List Event → String
  random : List Event → AppPositionOnBlueprint → Position

/-- The package file, where there is one, and the apps that its blueprints share. -/
structure Package where
  file : Option Archive := none
  driverAdded : Bool := false
  apps : String → Option App := fun _ => none

abbrev Pkg (α : Type) := Prog Package Exn Event α

variable (api : Api)

def createTemp : Pkg Unit := do
  call api.createTemp .createTemp
  modify fun p => { p with file := some [] }

def createZip : Pkg Unit := do
  call api.createZip .createZip
  modify fun p => { p with file := some [] }

def append (path : String) (content : Content) : Pkg Unit := fun p log =>
  match api.append log with
  | .ok () =>
    (.ok (), { p with file := some (p.file.getD [] ++ [(path, content)]) },
      log ++ [.append path (.ok ())])
  | .error (e, archive) =>
    (.error e, { p with file := some archive }, log ++ [.append path (.error e)])

def importPackage : Pkg Unit := fun p log =>
  let r := api.importPackage log
  (r, p, log ++ [.importPackage (p.file.getD []) r])

def removeFile : Pkg Removal := fun p log =>
  match api.remove log with
  | .failed e => (.ok (.failed e), p, log ++ [.remove (.failed e)])
  | r => (.ok r, { p with file := none }, log ++ [.remove r])

def unlink : Pkg Unit := do
  match ← removeFile api with
  | .removed => pure ()
  | .notFound => throw (.os "No such file or directory")
  | .failed e => throw e

def finish : Pkg Unit := do
  match ← removeFile api with
  | .removed | .notFound => pure ()
  | .failed e => throw e

/-- The handler of an `except Exception as e` that cleans up and raises `e` again. -/
def cleanUp (m : Pkg Unit) (e : Exn) : Pkg Unit := do
  if e.isException then m
  throw e

def metadataPath : String := "metadata.xml"

def addMetadata : Pkg Unit := fun p log =>
  append api metadataPath (.xml ({ now := api.now log : MetaData }).xmlRootDict) p log

def createPackage : Pkg Unit := do
  createTemp api
  tryCatch (createZip api) (cleanUp (unlink api))
  modify fun p => { p with driverAdded := false }
  tryCatch (addMetadata api) (cleanUp (finish api))

/-- `with PackageApi.create_package() as package` -/
def withPackage (body : Pkg Unit) : Pkg Unit := do
  createPackage api
  withFinally body (finish api)

def appPath (name : String) : String := "App Templates/" ++ name ++ ".xml"

def addApp (app : App) : Pkg Unit := append api (appPath app.name) (.xml app.xmlRootDict)

def driverPath : String := "Topology Drivers/Python Setup & Teardown.dll"

def addPythonDriver : Pkg Unit := do
  let p ← get
  if p.driverAdded then pure ()
  else do
    append api driverPath .pythonDriver
    modify fun p => { p with driverAdded := true }

def blueprintPath (name : String) : String := "Topologies/" ++ name ++ ".xml"

/-- `get_apps_dict` changes the apps, which other blueprints may have too. -/
def setDefaults (appNames : List String) (p : Package) : Package :=
  { p with apps := fun name =>
      if name ∈ appNames then (p.apps name).map App.withDefault else p.apps name }

def addBlueprint (name : String) (appNames : List String) (apps : List App) : Pkg Unit := do
  addPythonDriver api
  modify (setDefaults appNames)
  fun p log => append api (blueprintPath name)
    (.xml (Blueprint.xmlRootDict (api.random log) name (apps.map App.withDefault))) p log

-- ---------------------------------------------------------------------------
-- create_apps and create_blueprints
-- ---------------------------------------------------------------------------

variable (cps : String → Option CloudProvider)

def getAppModel (conf : AppConfig) : Except Exn App :=
  match cps conf.cpResourceName with
  | some cp => .ok { name := conf.name, first :=
      { cpName := cp.name, cpModel := cp.model, deploymentPath := conf.deployment,
        attributes := conf.attributes } }
  | none => .error (.key conf.cpResourceName)

def getAppModels (confs : List AppConfig) : Except Exn (List App) := confs.mapM (getAppModel cps)

/-- `{app.name: app for app in apps}`: the last one of a name counts. -/
def appsDict (apps : List App) (name : String) : Option App :=
  apps.reverse.find? (·.name = name)

def liftExcept (r : Except Exn α) : Pkg α := fun p log => (r, p, log)

def createApps (confs : List AppConfig) : Pkg Unit := do
  let apps ← liftExcept (getAppModels cps confs)
  withPackage api do
    each (addApp api) apps
    importPackage api

def getItem (apps : String → Option App) (name : String) : Except Exn App :=
  match apps name with
  | some app => .ok app
  | none => .error (.key name)

def addBlueprintOf (conf : BlueprintConfig) : Pkg Unit := do
  let p ← get
  let apps ← liftExcept (conf.appNames.mapM (getItem p.apps))
  addBlueprint api conf.name conf.appNames apps

def createBlueprints (appConfs : List AppConfig) (confs : List BlueprintConfig) : Pkg Unit := do
  let apps ← liftExcept (getAppModels cps appConfs)
  modify fun p => { p with apps := appsDict apps }
  withPackage api do
    each (addBlueprintOf api) confs
    importPackage api

structure EnvConfig where
  hasDo : Bool := false
  resourceNames : List String := []
  apps : List AppConfig := []
  blueprints : List BlueprintConfig := []

def takeStep (step : Step) : Pkg Unit := call (api.step · step) (.step step)

def setDebugLevelViaBlueprint : Pkg Unit := do
  call api.importPackage (.importPackage bpScripts)
  takeStep api .createTopologyReservation
  takeStep api .executeReservationCommand

/-- `AutomatedPrepareEnv.run` -/
def prepareEnv (conf : EnvConfig) : Pkg Unit := do
  takeStep api .checkAllResourcesIsAlive
  if conf.hasDo then takeStep api .prepareDo
  setDebugLevelViaBlueprint api
  takeStep api .createResources
  each (fun name => takeStep api (.autoload name)) conf.resourceNames
  createApps api cps conf.apps
  createBlueprints api cps conf.apps conf.blueprints
  takeStep api .createSandboxes

-- ---------------------------------------------------------------------------
-- What comes of a package
-- ---------------------------------------------------------------------------

/-- The archives that are imported, with the answers. -/
def importsOf (evs : List Event) : List (Archive × Except Exn Unit) :=
  evs.filterMap fun
    | .importPackage archive r => some (archive, r)
    | _ => none

@[simp] theorem importsOf_append (evs evs' : List Event) :
    importsOf (evs ++ evs') = importsOf evs ++ importsOf evs' := List.filterMap_append ..

@[simp] theorem importsOf_member (path : String) (r : Except Exn Unit) :
    importsOf [.append path r] = [] := rfl

@[simp] theorem importsOf_step (step : Step) (r : Except Exn Unit) :
    importsOf [.step step r] = [] := rfl

/-- What leaves the file there: a removal that fails, or a `KeyboardInterrupt`
before `create_package` is done. It is the end of the run. -/
inductive Left (e : Exn) : List Event → Prop
  | removal (evs : List Event) : Left e (evs ++ [.remove (.failed e)])
  | zip (evs : List Event) (he : e.isException = false) : Left e (evs ++ [.createZip (.error e)])
  | metadata (evs : List Event) (he : e.isException = false) :
      Left e (evs ++ [.append metadataPath (.error e)])

theorem Left.after (h : Left e evs') (evs : List Event) : Left e (evs ++ evs') := by
  cases h with
  | removal evs' =>
    rw [← List.append_assoc]
    exact .removal _
  | zip evs' he =>
    rw [← List.append_assoc]
    exact .zip _ he
  | metadata evs' he =>
    rw [← List.append_assoc]
    exact .metadata _ he

/-- One archive is imported at most, a good one, and the run ends well only with it. -/
def Imported (Good : Archive → Prop) (r : Except Exn Unit) (evs : List Event) : Prop :=
  importsOf evs = [] ∧ r ≠ .ok () ∨
    ∃ archive res, importsOf evs = [(archive, res)] ∧ Good archive ∧ (r = .ok () → res = .ok ())

/-- The package is imported, and its file is gone in the end. -/
structure Delivered (Good : Archive → Prop) (r : Except Exn Unit) (p : Package)
    (evs : List Event) : Prop where
  released : p.file = none ∨ ∃ e, r = .error e ∧ Left e evs
  imported : Imported Good r evs

section
variable {api : Api} {p : Package}

/-- The way of a piece of `create_package` or of a removal: it imports nothing,
and what it raises finds the file gone or left. -/
def Ends (Q : Package → Prop) (r : Except Exn Unit) (p : Package) (evs : List Event) : Prop :=
  importsOf evs = [] ∧
    (r = .ok () ∧ Q p ∨ ∃ e, r = .error e ∧ (p.file = none ∨ Left e evs))

theorem Ends.after (h : Ends Q r p evs') (hevs : importsOf evs = []) :
    Ends Q r p (evs ++ evs') := by
  obtain ⟨himports, hok | ⟨e, rfl, hleft⟩⟩ := h
  · exact ⟨by simp [hevs, himports], .inl hok⟩
  · exact ⟨by simp [hevs, himports], .inr ⟨e, rfl, hleft.imp id fun h => h.after evs⟩⟩

theorem ends_bind {m f : Pkg Unit} (hm : Triple m p (Ends Q))
    (hf : ∀ p', Q p' → Triple f p' (Ends R)) : Triple (do m; f) p (Ends R) := by
  refine .bind hm ?_ ?_
  · rintro _ p' evs ⟨himports, ⟨-, hq⟩ | ⟨e, he, -⟩⟩
    · exact (hf p' hq).mono fun _ _ _ h => h.after himports
    · cases he
  · rintro e p' evs ⟨himports, ⟨he, -⟩ | hraised⟩
    · cases he
    · exact ⟨himports, .inr hraised⟩

theorem removeFile_triple (p : Package) : Triple (removeFile api) p fun r p' evs =>
    ∃ removal, r = .ok removal ∧ evs = [.remove removal] ∧
      (p'.file = none ∨ ∃ e, removal = .failed e) := by
  intro log
  unfold removeFile
  cases api.remove log with
  | removed => exact ⟨_, _, _, rfl, _, rfl, rfl, .inl rfl⟩
  | notFound => exact ⟨_, _, _, rfl, _, rfl, rfl, .inl rfl⟩
  | failed e => exact ⟨_, _, _, rfl, _, rfl, rfl, .inr ⟨e, rfl⟩⟩

theorem removal_triple {m : Removal → Pkg Unit}
    (hm : ∀ removal p', Triple (m removal) p' fun r p'' evs => evs = [] ∧ p'' = p' ∧
      ∀ e, removal = .failed e → r = .error e) (p : Package) :
    Triple (do m (← removeFile api)) p (Ends fun p' => p'.file = none) := by
  refine .bind (removeFile_triple p) ?_ ?_
  · rintro removal p' evs ⟨_, ⟨⟩, rfl, hgone⟩
    refine (hm removal p').mono ?_
    rintro r p'' evs ⟨rfl, rfl, hraised⟩
    refine ⟨rfl, ?_⟩
    rcases hgone with hgone | ⟨e, rfl⟩
    · cases r with
      | ok _ => exact .inl ⟨rfl, hgone⟩
      | error e => exact .inr ⟨e, rfl, .inl hgone⟩
    · exact .inr ⟨e, hraised e rfl, .inr (.removal [])⟩
  · rintro e p' evs ⟨_, ⟨⟩, -⟩

theorem unlink_triple (p : Package) :
    Triple (unlink api) p (Ends fun p' => p'.file = none) := by
  refine removal_triple (fun removal p' => ?_) p
  cases removal with
  | removed => exact .pure' ⟨rfl, rfl, nofun⟩
  | notFound => exact .throw' ⟨rfl, rfl, nofun⟩
  | failed e => exact .throw' ⟨rfl, rfl, fun _ he => by cases he; rfl⟩

theorem finish_triple (p : Package) :
    Triple (finish api) p (Ends fun p' => p'.file = none) := by
  refine removal_triple (fun removal p' => ?_) p
  cases removal with
  | removed => exact .pure' ⟨rfl, rfl, nofun⟩
  | notFound => exact .pure' ⟨rfl, rfl, nofun⟩
  | failed e => exact .throw' ⟨rfl, rfl, fun _ he => by cases he; rfl⟩

/-- A block that is cleaned up after: a raise that is no `Exception` leaves the
file where the block had it. -/
theorem tryCleanUp_triple {m cleanup : Pkg Unit}
    (hm : Triple m p fun r p' evs => importsOf evs = [] ∧ (r = .ok () → Q p') ∧
      ∀ e, r = .error e → e.isException = false → Left e evs)
    (hcleanup : ∀ p', Triple cleanup p' (Ends fun p'' => p''.file = none)) :
    Triple (tryCatch m (cleanUp cleanup)) p (Ends Q) := by
  refine .tryCatch' hm ?_ ?_
  · rintro _ p' evs ⟨himports, hq, -⟩
    exact ⟨himports, .inl ⟨rfl, hq rfl⟩⟩
  · rintro e p' evs ⟨himports, -, hleft⟩
    unfold cleanUp
    cases he : e.isException with
    | false =>
      change Triple (throw e) p' _
      refine .throw' ⟨by simpa using himports, .inr ⟨e, rfl, .inr ?_⟩⟩
      simpa using hleft e rfl he
    | true =>
      refine (ends_bind (R := Q) (hcleanup p') fun p'' hgone => ?_).mono
        fun _ _ _ h => h.after himports
      exact .throw' ⟨rfl, .inr ⟨e, rfl, .inl hgone⟩⟩

variable (api) in
theorem append_triple (path : String) (content : Content) (p : Package) :
    Triple (append api path content) p fun r p' evs => evs = [.append path r] ∧
      (r = .ok () → p' = { p with file := some (p.file.getD [] ++ [(path, content)]) }) := by
  intro log
  unfold append
  split
  · exact ⟨_, _, _, rfl, rfl, fun _ => rfl⟩
  · exact ⟨_, _, _, rfl, rfl, nofun⟩

def created (now : String) (p : Package) : Package :=
  { p with
    file := some [(metadataPath, .xml ({ now : MetaData }).xmlRootDict)]
    driverAdded := false }

theorem createPackage_triple (hfile : p.file = none) :
    Triple (createPackage api) p (Ends fun p' => ∃ now, p' = created now p) := by
  have htemp : Triple (createTemp api) p (Ends fun p' => p' = { p with file := some [] }) := by
    refine .bind (.call' (Q := fun r p' evs => evs = [.createTemp r] ∧ p' = p) fun r => ⟨rfl, rfl⟩)
      ?_ ?_
    · rintro _ p' evs ⟨rfl, rfl⟩
      exact .modify' ⟨rfl, .inl ⟨rfl, rfl⟩⟩
    · rintro e p' evs ⟨rfl, rfl⟩
      exact ⟨rfl, .inr ⟨e, rfl, .inl hfile⟩⟩
  refine ends_bind htemp ?_
  rintro _ rfl
  have hzip : Triple (createZip api) { p with file := some [] } fun r p' evs =>
      importsOf evs = [] ∧ (r = .ok () → p' = { p with file := some [] }) ∧
        ∀ e, r = .error e → e.isException = false → Left e evs := by
    refine .bind (.call' (Q := fun r p' evs => evs = [.createZip r] ∧
      p' = { p with file := some [] }) fun r => ⟨rfl, rfl⟩) ?_ ?_
    · rintro _ _ evs ⟨rfl, rfl⟩
      exact .modify' ⟨rfl, fun _ => rfl, nofun⟩
    · rintro e _ evs ⟨rfl, rfl⟩
      refine ⟨rfl, nofun, fun e' he' hex => ?_⟩
      cases he'
      exact .zip [] hex
  refine ends_bind (tryCleanUp_triple hzip unlink_triple) ?_
  rintro _ rfl
  refine ends_bind (Q := fun p' => p' = { p with file := some [], driverAdded := false })
    (.modify' ⟨rfl, .inl ⟨rfl, rfl⟩⟩) ?_
  rintro _ rfl
  refine tryCleanUp_triple (fun log => ?_) finish_triple
  obtain ⟨r, p', evs, hrun, rfl, hp'⟩ := append_triple api metadataPath
    (.xml ({ now := api.now log : MetaData }).xmlRootDict)
    { p with file := some [], driverAdded := false } log
  refine ⟨r, p', _, hrun, rfl, fun hr => ⟨api.now log, hp' hr⟩, ?_⟩
  rintro e rfl he
  exact .metadata [] he

theorem withPackage_triple {body : Pkg Unit} (hfile : p.file = none)
    (hbody : ∀ now, Triple body (created now p) fun r _ evs => Imported Good r evs) :
    Triple (withPackage api body) p (Delivered Good) := by
  refine .bind (createPackage_triple hfile) ?_ ?_
  · rintro _ _ evs ⟨himports, ⟨-, now, rfl⟩ | ⟨e, he, -⟩⟩
    · refine .withFinally' (hbody now) fun r p' evs' himported => ?_
      refine (finish_triple p').mono ?_
      rintro r' p'' evs'' ⟨hnone, hend⟩
      have hall : importsOf (evs ++ (evs' ++ evs'')) = importsOf evs' := by
        simp [himports, hnone]
      rcases hend with ⟨rfl, hgone⟩ | ⟨e, rfl, hleft⟩
      · have hwhole : Imported Good r (evs ++ (evs' ++ evs'')) := by
          simpa only [Imported, hall] using himported
        exact ⟨.inl hgone, hwhole⟩
      · refine ⟨?_, ?_⟩
        · exact hleft.imp id fun h => ⟨e, rfl, (h.after evs').after evs⟩
        · simp only [Imported, hall]
          exact himported.imp (fun h => ⟨h.1, nofun⟩)
            fun ⟨archive, res, h, hgood, _⟩ => ⟨archive, res, h, hgood, nofun⟩
    · cases he
  · rintro e p' evs ⟨himports, ⟨he, -⟩ | ⟨e, he, hleft⟩⟩
    · cases he
    · exact ⟨hleft.imp id fun h => ⟨e, he, h⟩, .inl ⟨himports, nofun⟩⟩

theorem importPackage_triple {members : Pkg Unit}
    (hmembers : Triple members p fun r p' evs => importsOf evs = [] ∧
      (r = .ok () → ∃ archive, p'.file = some archive ∧ Good archive)) :
    Triple (do members; importPackage api) p fun r _ evs => Imported Good r evs := by
  refine .bind hmembers ?_ ?_
  · rintro _ p' evs ⟨himports, hgood⟩
    obtain ⟨archive, harchive, hgood⟩ := hgood rfl
    intro log
    refine ⟨_, _, _, rfl, .inr ⟨archive, api.importPackage log, ?_, hgood, id⟩⟩
    rw [importsOf_append, himports, harchive]
    rfl
  · rintro e p' evs ⟨himports, -⟩
    exact .inl ⟨himports, nofun⟩

def metadataMember (now : String) : String × Content :=
  (metadataPath, .xml ({ now : MetaData }).xmlRootDict)

def appMember (app : App) : String × Content := (appPath app.name, .xml app.xmlRootDict)

theorem eachAddApp_triple (apps : List App) {archive : Archive} (h : p.file = some archive) :
    Triple (each (addApp api) apps) p fun r p' evs => importsOf evs = [] ∧
      (r = .ok () → p'.file = some (archive ++ apps.map appMember)) := by
  induction apps generalizing p archive with
  | nil => exact .pure' ⟨rfl, fun _ => by simpa using h⟩
  | cons app apps ih =>
    refine .bind (append_triple api _ _ p) ?_ ?_
    · rintro _ p' evs ⟨rfl, hp'⟩
      obtain rfl := hp' rfl
      have hfile : some (p.file.getD [] ++ [appMember app]) =
          some (archive ++ [appMember app]) := by
        simp [h]
      refine (ih hfile).mono ?_
      rintro r p'' evs' ⟨himports, hfile⟩
      exact ⟨himports, fun hr => by simpa using hfile hr⟩
    · rintro e p' evs ⟨rfl, -⟩
      exact ⟨rfl, nofun⟩

def IsAppsPackage (cps : String → Option CloudProvider) (confs : List AppConfig)
    (archive : Archive) : Prop :=
  ∃ apps now, getAppModels cps confs = .ok apps ∧
    archive = metadataMember now :: apps.map appMember

variable {cps : String → Option CloudProvider}

theorem liftExcept_triple {r : Except Exn α} {Q : Except Exn α → Package → List Event → Prop}
    (h : Q r p []) : Triple (liftExcept r) p Q :=
  fun log => ⟨r, p, [], by simp [liftExcept], h⟩

theorem createApps_delivered (hfile : p.file = none) (confs : List AppConfig) :
    Triple (createApps api cps confs) p (Delivered (IsAppsPackage cps confs)) := by
  refine .bind (liftExcept_triple (Q := fun r p' evs => r = getAppModels cps confs ∧ p = p' ∧
    evs = []) ⟨rfl, rfl, rfl⟩) ?_ ?_
  · rintro apps _ _ ⟨happs, rfl, rfl⟩
    refine withPackage_triple hfile fun now => importPackage_triple ?_
    refine (eachAddApp_triple apps rfl).mono ?_
    rintro r p' evs ⟨himports, hp'⟩
    exact ⟨himports, fun hr => ⟨_, hp' hr, apps, now, happs.symm, rfl⟩⟩
  · rintro e _ _ ⟨-, rfl, rfl⟩
    exact ⟨.inl hfile, .inl ⟨rfl, nofun⟩⟩

-- ---------------------------------------------------------------------------
-- Blueprints
-- ---------------------------------------------------------------------------

def SameApps (apps : String → Option App) (p : Package) : Prop :=
  ∀ name, (p.apps name).map App.withDefault = (apps name).map App.withDefault

/-- The member of a blueprint: it has the apps that the config names, in their
order, each with its first deployment path as the default one. -/
def IsTopology (apps : String → Option App) (conf : BlueprintConfig)
    (member : String × Content) : Prop :=
  ∃ bpApps random, conf.appNames.mapM (getItem apps) = .ok bpApps ∧
    member = (blueprintPath conf.name,
      .xml (Blueprint.xmlRootDict random conf.name (bpApps.map App.withDefault)))

/-- The driver comes with the first blueprint. -/
def driverMembers (driverAdded : Bool) : List BlueprintConfig → Archive
  | [] => []
  | _ :: _ => if driverAdded then [] else [(driverPath, .pythonDriver)]

theorem SameApps.setDefaults (h : SameApps apps p) (appNames : List String) :
    SameApps apps (setDefaults appNames p) := by
  intro name
  rw [← h name]
  unfold Packages.setDefaults
  dsimp only
  split
  · cases p.apps name with
    | none => rfl
    | some app => rfl
  · rfl

theorem getItem_same (h : SameApps apps p) (hget : getItem p.apps name = .ok app) :
    ∃ app', getItem apps name = .ok app' ∧ app'.withDefault = app.withDefault := by
  have hsame := h name
  unfold getItem at hget ⊢
  cases hp : p.apps name with
  | none => simp [hp] at hget
  | some app₁ =>
    rw [hp] at hsame hget
    cases ha : apps name with
    | none => simp [ha] at hsame
    | some app' =>
      simp only [ha, Option.map_some, Option.some.injEq] at hsame
      cases hget
      exact ⟨app', rfl, hsame.symm⟩

theorem mapM_ok_iff {f : α → Except ε β} :
    as.mapM f = .ok bs ↔ List.Forall₂ (fun a b => f a = .ok b) as bs := by
  induction as generalizing bs with
  | nil => simp [pure, Except.pure, eq_comm]
  | cons a as ih =>
    rw [List.mapM_cons]
    cases ha : f a with
    | error e => cases bs <;> simp [ha, bind, Except.bind]
    | ok b =>
      cases has : as.mapM f with
      | error e => cases bs <;> simp [ha, has, ← ih, bind, Except.bind]
      | ok cs => cases bs <;> simp [ha, has, ← ih, bind, Except.bind, pure, Except.pure]

theorem mapM_getItem_same (h : SameApps apps p)
    (hget : List.Forall₂ (fun name app => getItem p.apps name = .ok app) names found) :
    ∃ found', List.Forall₂ (fun name app => getItem apps name = .ok app) names found' ∧
      found'.map App.withDefault = found.map App.withDefault := by
  induction hget with
  | nil => exact ⟨[], .nil, rfl⟩
  | cons hname _ ih =>
    obtain ⟨app', happ', hsame⟩ := getItem_same h hname
    obtain ⟨rest', hrest', hsame'⟩ := ih
    exact ⟨app' :: rest', .cons happ' hrest', by simp [hsame, hsame']⟩

theorem addPythonDriver_triple {archive : Archive} (h : p.file = some archive)
    (conf : BlueprintConfig) (confs : List BlueprintConfig) :
    Triple (addPythonDriver api) p fun r p' evs => importsOf evs = [] ∧
      (r = .ok () → p'.apps = p.apps ∧ p'.driverAdded = true ∧
        p'.file = some (archive ++ driverMembers p.driverAdded (conf :: confs))) := by
  refine .bind (.get' (Q := fun r p' evs => r = .ok p ∧ p = p' ∧ evs = []) ⟨rfl, rfl, rfl⟩) ?_ nofun
  rintro _ _ _ ⟨⟨⟩, rfl, rfl⟩
  cases hadded : p.driverAdded with
  | true => exact .pure' ⟨rfl, fun _ => ⟨rfl, hadded, by simp [driverMembers, h]⟩⟩
  | false =>
    refine .bind (append_triple api driverPath .pythonDriver p) ?_ ?_
    · rintro _ p' evs ⟨rfl, hp'⟩
      obtain rfl := hp' rfl
      exact .modify' ⟨rfl, fun _ => ⟨rfl, rfl, by simp [driverMembers, h]⟩⟩
    · rintro e p' evs ⟨rfl, -⟩
      exact ⟨rfl, nofun⟩

theorem addBlueprintOf_triple {archive : Archive} (h : p.file = some archive)
    (hsame : SameApps apps p) (conf : BlueprintConfig) (confs : List BlueprintConfig) :
    Triple (addBlueprintOf api conf) p fun r p' evs => importsOf evs = [] ∧
      (r = .ok () → SameApps apps p' ∧ p'.driverAdded = true ∧ ∃ member,
        IsTopology apps conf member ∧
        p'.file = some (archive ++ driverMembers p.driverAdded (conf :: confs) ++ [member])) := by
  refine .bind (.get' (Q := fun r p' evs => r = .ok p ∧ p = p' ∧ evs = []) ⟨rfl, rfl, rfl⟩) ?_ nofun
  rintro _ _ _ ⟨⟨⟩, rfl, rfl⟩
  refine .bind (liftExcept_triple (Q := fun r p' evs =>
    r = conf.appNames.mapM (getItem p.apps) ∧ p = p' ∧ evs = []) ⟨rfl, rfl, rfl⟩) ?_ ?_
  · rintro found _ _ ⟨hfound, rfl, rfl⟩
    obtain ⟨bpApps, hbpApps, hdefaults⟩ := mapM_getItem_same hsame (mapM_ok_iff.mp hfound.symm)
    refine .bind (addPythonDriver_triple h conf confs) ?_ ?_
    · rintro _ p' evs ⟨himports, hp'⟩
      obtain ⟨happs, hadded, hfile⟩ := hp' rfl
      refine .bind (.modify' (Q := fun r p'' evs' => r = .ok ⟨⟩ ∧
        p'' = setDefaults conf.appNames p' ∧ evs' = []) ⟨rfl, rfl, rfl⟩) ?_ nofun
      rintro _ _ _ ⟨-, rfl, rfl⟩ log
      obtain ⟨r, p'', evs', hrun, rfl, hp''⟩ := append_triple api (blueprintPath conf.name)
        (.xml (Blueprint.xmlRootDict (api.random log) conf.name (found.map App.withDefault)))
        (setDefaults conf.appNames p') log
      refine ⟨r, p'', _, hrun, by simpa using himports, fun hr => ?_⟩
      obtain rfl := hp'' hr
      refine ⟨SameApps.setDefaults (fun name => by rw [happs, hsame name]) _, hadded, _,
        ⟨bpApps, api.random log, mapM_ok_iff.mpr hbpApps, by rw [hdefaults]⟩, ?_⟩
      simp [setDefaults, hfile]
    · rintro e p' evs ⟨himports, -⟩
      exact ⟨himports, nofun⟩
  · rintro e _ _ ⟨-, rfl, rfl⟩
    exact ⟨rfl, nofun⟩

theorem eachAddBlueprint_triple (confs : List BlueprintConfig) {archive : Archive}
    (h : p.file = some archive) (hsame : SameApps apps p) :
    Triple (each (addBlueprintOf api) confs) p fun r p' evs => importsOf evs = [] ∧
      (r = .ok () → ∃ members, List.Forall₂ (IsTopology apps) confs members ∧
        p'.file = some (archive ++ driverMembers p.driverAdded confs ++ members)) := by
  induction confs generalizing p archive with
  | nil => exact .pure' ⟨rfl, fun _ => ⟨[], .nil, by simpa [driverMembers] using h⟩⟩
  | cons conf confs ih =>
    refine .bind (addBlueprintOf_triple h hsame conf confs) ?_ ?_
    · rintro _ p' evs ⟨himports, hp'⟩
      obtain ⟨hsame', hadded, member, hmember, hfile⟩ := hp' rfl
      refine (ih hfile hsame').mono ?_
      rintro r p'' evs' ⟨himports', hp''⟩
      refine ⟨by simp [himports, himports'], fun hr => ?_⟩
      obtain ⟨members, hmembers, hfile'⟩ := hp'' hr
      refine ⟨member :: members, .cons hmember hmembers, ?_⟩
      rw [hfile', hadded]
      cases confs <;> simp [driverMembers]
    · rintro e p' evs ⟨himports, -⟩
      exact ⟨himports, nofun⟩

def IsBlueprintsPackage (cps : String → Option CloudProvider) (appConfs : List AppConfig)
    (confs : List BlueprintConfig) (archive : Archive) : Prop :=
  ∃ apps now members, getAppModels cps appConfs = .ok apps ∧
    List.Forall₂ (IsTopology (appsDict apps)) confs members ∧
    archive = metadataMember now :: driverMembers false confs ++ members

theorem createBlueprints_delivered (hfile : p.file = none) (appConfs : List AppConfig)
    (confs : List BlueprintConfig) :
    Triple (createBlueprints api cps appConfs confs) p
      (Delivered (IsBlueprintsPackage cps appConfs confs)) := by
  refine .bind (liftExcept_triple (Q := fun r p' evs => r = getAppModels cps appConfs ∧ p = p' ∧
    evs = []) ⟨rfl, rfl, rfl⟩) ?_ ?_
  · rintro apps _ _ ⟨happs, rfl, rfl⟩
    refine .bind (.modify' (Q := fun r p' evs => r = .ok ⟨⟩ ∧
      p' = { p with apps := appsDict apps } ∧ evs = []) ⟨rfl, rfl, rfl⟩) ?_ nofun
    rintro _ _ _ ⟨-, rfl, rfl⟩
    refine withPackage_triple hfile fun now => importPackage_triple ?_
    refine (eachAddBlueprint_triple confs rfl fun name => rfl).mono ?_
    rintro r p' evs ⟨himports, hp'⟩
    refine ⟨himports, fun hr => ?_⟩
    obtain ⟨members, hmembers, hfile'⟩ := hp' hr
    exact ⟨_, hfile', apps, now, members, happs.symm, hmembers, rfl⟩
  · rintro e _ _ ⟨-, rfl, rfl⟩
    exact ⟨.inl hfile, .inl ⟨rfl, nofun⟩⟩

-- ---------------------------------------------------------------------------
-- prepare-env
-- ---------------------------------------------------------------------------

def Event.isStep : Event → Bool
  | .step _ _ => true
  | _ => false

abbrev NoSteps (m : Pkg α) : Prop := Logs (fun e => e.isStep = false) m

theorem append_noSteps (path : String) (content : Content) : NoSteps (append api path content) := by
  intro p
  refine (append_triple api path content p).mono ?_
  rintro r p' evs ⟨rfl, -⟩
  simp [Event.isStep]

theorem removeFile_noSteps : NoSteps (removeFile api) := by
  intro p
  refine (removeFile_triple p).mono ?_
  rintro r p' evs ⟨removal, -, rfl, -⟩
  simp [Event.isStep]

theorem finish_noSteps : NoSteps (finish api) := by
  refine .bind removeFile_noSteps fun removal => ?_
  cases removal with
  | removed => exact .pure' _
  | notFound => exact .pure' _
  | failed e => exact .throw' e

theorem unlink_noSteps : NoSteps (unlink api) := by
  refine .bind removeFile_noSteps fun removal => ?_
  cases removal with
  | removed => exact .pure' _
  | notFound => exact .throw' _
  | failed e => exact .throw' e

theorem cleanUp_noSteps {m : Pkg Unit} (hm : NoSteps m) (e : Exn) : NoSteps (cleanUp m e) := by
  unfold cleanUp
  cases he : e.isException with
  | false =>
    change NoSteps (throw e)
    exact .throw' e
  | true => exact .bind hm fun _ => .throw' e

theorem withPackage_noSteps {body : Pkg Unit} (hbody : NoSteps body) :
    NoSteps (withPackage api body) := by
  have htemp : NoSteps (createTemp api) := .bind (.call' fun _ => rfl) fun _ => .modify' _
  have hzip : NoSteps (createZip api) := .bind (.call' fun _ => rfl) fun _ => .modify' _
  have hmetadata : NoSteps (addMetadata api) := fun p log => append_noSteps _ _ p log
  refine .bind (.bind htemp fun _ => .bind (.tryCatch' hzip (cleanUp_noSteps unlink_noSteps))
    fun _ => .bind (.modify' _) fun _ => .tryCatch' hmetadata (cleanUp_noSteps finish_noSteps))
    fun _ => .withFinally' hbody finish_noSteps

theorem liftExcept_noSteps (r : Except Exn α) : NoSteps (liftExcept r) :=
  fun _ => liftExcept_triple (by simp)

theorem importPackage_noSteps : NoSteps (importPackage api) := by
  intro p log
  exact ⟨_, p, _, rfl, by simp [Event.isStep]⟩

theorem createApps_noSteps (confs : List AppConfig) : NoSteps (createApps api cps confs) := by
  refine .bind (liftExcept_noSteps _) fun apps => withPackage_noSteps ?_
  exact .bind (.each' fun app _ => append_noSteps _ _) fun _ => importPackage_noSteps

theorem addBlueprintOf_noSteps (conf : BlueprintConfig) : NoSteps (addBlueprintOf api conf) := by
  refine .bind .get' fun p => .bind (liftExcept_noSteps _) fun apps => .bind ?_ fun _ =>
    .bind (.modify' _) fun _ p log => append_noSteps _ _ p log
  refine .bind .get' fun p => ?_
  split
  · exact .pure' _
  · exact .bind (append_noSteps _ _) fun _ => .modify' _

theorem createBlueprints_noSteps (appConfs : List AppConfig) (confs : List BlueprintConfig) :
    NoSteps (createBlueprints api cps appConfs confs) := by
  refine .bind (liftExcept_noSteps _) fun apps => .bind (.modify' _) fun _ => withPackage_noSteps ?_
  exact .bind (.each' fun conf _ => addBlueprintOf_noSteps conf) fun _ => importPackage_noSteps

/-- The imports of packages that are written: of the apps, and after these of
the blueprints. -/
def PackagesInOrder (cps : String → Option CloudProvider) (conf : EnvConfig) :
    List (Archive × Except Exn Unit) → Prop
  | [] => True
  | [(apps, _)] => IsAppsPackage cps conf.apps apps
  | [(apps, r), (blueprints, _)] => IsAppsPackage cps conf.apps apps ∧ r = .ok () ∧
      IsBlueprintsPackage cps conf.apps conf.blueprints blueprints
  | _ => False

/-- The imports of a run: of the scripts, and after these of the packages. -/
def InOrder (cps : String → Option CloudProvider) (conf : EnvConfig) :
    List (Archive × Except Exn Unit) → Prop
  | [] => True
  | (scripts, r) :: packages => scripts = bpScripts ∧
      (packages = [] ∨ r = .ok () ∧ PackagesInOrder cps conf packages)

def NoSandboxes (evs : List Event) : Prop := ∀ r, .step .createSandboxes r ∉ evs

/-- The rest of a run, after these imports: the sandboxes are created once the
scripts and both packages are imported and their files gone. -/
structure Prepared (cps : String → Option CloudProvider) (conf : EnvConfig)
    (imported : List (Archive × Except Exn Unit)) (r : Except Exn Unit) (p : Package)
    (evs : List Event) : Prop where
  released : p.file = none ∨ ∃ e, r = .error e ∧ Left e evs
  inOrder : InOrder cps conf (imported ++ importsOf evs)
  sandboxes : ∀ before r' after, evs = before ++ .step .createSandboxes r' :: after →
    p.file = none ∧ ∃ apps blueprints, imported ++ importsOf before =
      [(bpScripts, .ok ()), (apps, .ok ()), (blueprints, .ok ())]
  success : r = .ok () → .step .createSandboxes (.ok ()) ∈ evs

theorem Prepared.after (h : Prepared cps conf (imported ++ importsOf evs) r p evs')
    (hnone : NoSandboxes evs) : Prepared cps conf imported r p (evs ++ evs') where
  released := h.released.imp id fun ⟨e, he, hleft⟩ => ⟨e, he, hleft.after evs⟩
  inOrder := by simpa using h.inOrder
  sandboxes := by
    intro before r' after heq
    obtain ⟨mid, rfl, heq'⟩ | ⟨mid, rfl, heq'⟩ := List.append_eq_append_iff.mp heq
    · simpa using h.sandboxes mid r' after heq'
    · cases mid with
      | nil => simpa [importsOf] using h.sandboxes [] r' after heq'.symm
      | cons e mid =>
        obtain ⟨rfl, -⟩ := List.cons.inj heq'
        exact absurd (by simp) (hnone r')
  success hr := List.mem_append_right _ (h.success hr)

theorem Prepared.of_no_sandboxes (hreleased : p.file = none ∨ ∃ e, r = .error e ∧ Left e evs)
    (hinOrder : InOrder cps conf (imported ++ importsOf evs)) (hnone : NoSandboxes evs)
    (hraised : r ≠ .ok ()) : Prepared cps conf imported r p evs where
  released := hreleased
  inOrder := hinOrder
  sandboxes before r' after heq := absurd (by simp [heq]) (hnone r')
  success hr := absurd hr hraised

theorem takeStep_triple (step : Step) (p : Package) : Triple (takeStep api step) p fun r p' evs =>
    p' = p ∧ evs = [.step step r] := .call' fun _ => ⟨rfl, rfl⟩

/-- What is done beside the imports, before the sandboxes are created. -/
def Quiet (m : Pkg Unit) (p : Package) : Prop :=
  Triple m p fun _ p' evs => p' = p ∧ importsOf evs = [] ∧ NoSandboxes evs

theorem Quiet.bind {m f : Pkg Unit} (hm : Quiet m p) (hf : Quiet f p) : Quiet (do m; f) p := by
  refine Triple.bind hm ?_ fun _ _ _ h => h
  rintro _ _ evs ⟨rfl, himports, hnone⟩
  refine hf.mono ?_
  rintro r p' evs' ⟨hp', himports', hnone'⟩
  refine ⟨hp', by simp [himports, himports'], fun r' hmem => ?_⟩
  exact (List.mem_append.mp hmem).elim (hnone r') (hnone' r')

theorem quiet_takeStep {step : Step} (hstep : step ≠ .createSandboxes) (p : Package) :
    Quiet (takeStep api step) p := by
  refine (takeStep_triple step p).mono ?_
  rintro r p' evs ⟨rfl, rfl⟩
  exact ⟨rfl, rfl, fun r' hmem => by simp [hstep.symm] at hmem⟩

theorem quiet_autoloads (names : List String) (p : Package) :
    Quiet (each (fun name => takeStep api (.autoload name)) names) p := by
  induction names with
  | nil => exact .pure' ⟨rfl, rfl, by simp [NoSandboxes]⟩
  | cons name names ih => exact (quiet_takeStep (by simp) p).bind ih

theorem quiet_bind {m f : Pkg Unit} (hm : Quiet m p) (hfile : p.file = none)
    (himported : InOrder cps conf imported) (hf : Triple f p (Prepared cps conf imported)) :
    Triple (do m; f) p (Prepared cps conf imported) := by
  refine Triple.bind hm ?_ ?_
  · rintro _ _ evs ⟨rfl, himports, hnone⟩
    exact hf.mono fun _ _ _ h => .after (by simpa [himports] using h) hnone
  · rintro e _ evs ⟨rfl, himports, hnone⟩
    exact .of_no_sandboxes (.inl hfile) (by simpa [himports] using himported) hnone nofun

theorem setDebugLevel_triple (p : Package) :
    Triple (setDebugLevelViaBlueprint api) p fun r p' evs => p' = p ∧ NoSandboxes evs ∧
      ∃ res, importsOf evs = [(bpScripts, res)] ∧ (r = .ok () → res = .ok ()) := by
  refine .bind (.call' (Q := fun r p' evs => p' = p ∧ evs = [.importPackage bpScripts r])
    fun r => ⟨rfl, rfl⟩) ?_ ?_
  · rintro _ p _ ⟨rfl, rfl⟩
    refine ((quiet_takeStep (by decide) p).bind (quiet_takeStep (by decide) p)).mono ?_
    rintro r _ evs ⟨rfl, himports, hnone⟩
    refine ⟨rfl, fun r' hmem => hnone r' (by simpa using hmem), .ok (), ?_, fun _ => rfl⟩
    rw [importsOf_append, himports]
    rfl
  · rintro e _ _ ⟨rfl, rfl⟩
    exact ⟨rfl, by simp [NoSandboxes], .error e, rfl, nofun⟩

/-- The scripts come first, and the rest only once they are in. -/
theorem setDebugLevel_bind {f : Pkg Unit} (hfile : p.file = none)
    (hf : Triple f p (Prepared cps conf [(bpScripts, .ok ())])) :
    Triple (do setDebugLevelViaBlueprint api; f) p (Prepared cps conf []) := by
  refine .bind (setDebugLevel_triple p) ?_ ?_
  · rintro _ _ evs ⟨rfl, hnone, res, himports, hres⟩
    obtain rfl := hres rfl
    exact hf.mono fun _ _ _ h => .after (by simpa [himports] using h) hnone
  · rintro e _ evs ⟨rfl, hnone, res, himports, -⟩
    exact .of_no_sandboxes (.inl hfile) (by simp [himports, InOrder]) hnone nofun

theorem noSandboxes_of_noSteps (h : ∀ e ∈ evs, e.isStep = false) : NoSandboxes evs :=
  fun _ hmem => nomatch h _ hmem

theorem NoSandboxes.append (h : NoSandboxes evs) (h' : NoSandboxes evs') :
    NoSandboxes (evs ++ evs') :=
  fun r hmem => (List.mem_append.mp hmem).elim (h r) (h' r)

theorem before_sandboxes (hnone : NoSandboxes evs)
    (heq : evs ++ [.step .createSandboxes r] = before ++ .step .createSandboxes r' :: after) :
    before = evs := by
  obtain ⟨mid, rfl, heq'⟩ | ⟨mid, rfl, heq'⟩ := List.append_eq_append_iff.mp heq
  · cases mid with
    | nil => rw [List.append_nil]
    | cons e mid => simp at heq'
  · cases mid with
    | nil => rw [List.append_nil]
    | cons e mid =>
      obtain ⟨rfl, -⟩ := List.cons.inj heq'
      exact absurd (by simp) (hnone r')

theorem packages_prepared (hfile : p.file = none) (conf : EnvConfig) :
    Triple (do
      createApps api cps conf.apps
      createBlueprints api cps conf.apps conf.blueprints
      takeStep api .createSandboxes) p (Prepared cps conf [(bpScripts, .ok ())]) := by
  have hinOrder {packages : List (Archive × Except Exn Unit)}
      (h : PackagesInOrder cps conf packages) :
      InOrder cps conf ([(bpScripts, .ok ())] ++ packages) := ⟨rfl, .inr ⟨rfl, h⟩⟩
  refine .bind ((createApps_delivered hfile conf.apps).and (createApps_noSteps conf.apps p)) ?_ ?_
  · rintro _ p₁ evs₁ ⟨⟨hreleased₁, himported₁⟩, hsteps₁⟩
    have hnone₁ := noSandboxes_of_noSteps hsteps₁
    have hfile₁ : p₁.file = none := hreleased₁.resolve_right fun ⟨_, he, _⟩ => nomatch he
    obtain ⟨-, hne⟩ | ⟨apps, res, himports₁, happs, hres⟩ := himported₁
    · exact absurd rfl hne
    obtain rfl := hres rfl
    refine .bind ((createBlueprints_delivered hfile₁ conf.apps conf.blueprints).and
      (createBlueprints_noSteps conf.apps conf.blueprints p₁)) ?_ ?_
    · rintro _ p₂ evs₂ ⟨⟨hreleased₂, himported₂⟩, hsteps₂⟩
      have hfile₂ : p₂.file = none := hreleased₂.resolve_right fun ⟨_, he, _⟩ => nomatch he
      have hnone := hnone₁.append (noSandboxes_of_noSteps hsteps₂)
      obtain ⟨-, hne⟩ | ⟨blueprints, res, himports₂, hblueprints, hres⟩ := himported₂
      · exact absurd rfl hne
      obtain rfl := hres rfl
      refine (takeStep_triple .createSandboxes p₂).mono ?_
      rintro r _ _ ⟨rfl, rfl⟩
      rw [← List.append_assoc]
      refine ⟨.inl hfile₂, ?_, fun before r' after heq => ?_, fun hr => by simp [hr]⟩
      · refine hinOrder ?_
        simpa [himports₁, himports₂] using ⟨happs, rfl, hblueprints⟩
      · obtain rfl := before_sandboxes hnone heq
        exact ⟨hfile₂, apps, blueprints, by simp [himports₁, himports₂]⟩
    · rintro e p₂ evs₂ ⟨⟨hreleased₂, himported₂⟩, hsteps₂⟩
      refine .of_no_sandboxes ?_ ?_ (hnone₁.append (noSandboxes_of_noSteps hsteps₂)) nofun
      · exact hreleased₂.imp id fun ⟨e, he, hleft⟩ => ⟨e, he, hleft.after evs₁⟩
      · obtain ⟨hnil, -⟩ | ⟨blueprints, res, himports₂, hblueprints, -⟩ := himported₂
        · exact hinOrder (by simpa [himports₁, hnil, PackagesInOrder] using happs)
        · exact hinOrder (by simpa [himports₁, himports₂] using ⟨happs, rfl, hblueprints⟩)
  · rintro e p₁ evs₁ ⟨⟨hreleased₁, himported₁⟩, hsteps₁⟩
    refine .of_no_sandboxes hreleased₁ ?_ (noSandboxes_of_noSteps hsteps₁) nofun
    obtain ⟨hnil, -⟩ | ⟨apps, res, himports₁, happs, -⟩ := himported₁
    · exact hinOrder (by simp [hnil, PackagesInOrder])
    · exact hinOrder (by simpa [himports₁, PackagesInOrder] using happs)

variable (api cps) in
/-- However its steps end, `prepare-env` imports the scripts for the debug level,
then one package of the apps and then one of the blueprints of the config,
creates sandboxes only after all three are in and the written files gone, and
leaves no file but where `Left` says so. -/
theorem prepareEnv_prepared (conf : EnvConfig) :
    Triple (prepareEnv api cps conf) {} (Prepared cps conf []) := by
  refine quiet_bind (quiet_takeStep (by simp) _) rfl trivial ?_
  have hrest : Triple (do
      setDebugLevelViaBlueprint api
      takeStep api .createResources
      each (fun name => takeStep api (.autoload name)) conf.resourceNames
      createApps api cps conf.apps
      createBlueprints api cps conf.apps conf.blueprints
      takeStep api .createSandboxes) {} (Prepared cps conf []) := by
    have hscripts : InOrder cps conf [(bpScripts, .ok ())] := ⟨rfl, .inl rfl⟩
    refine setDebugLevel_bind rfl (quiet_bind (quiet_takeStep (by simp) _) rfl hscripts ?_)
    exact quiet_bind (quiet_autoloads _ _) rfl hscripts (packages_prepared rfl conf)
  cases conf.hasDo with
  | true => exact quiet_bind (quiet_takeStep (by simp) _) rfl trivial hrest
  | false => exact hrest

end

-- ---------------------------------------------------------------------------
-- The default deployment paths
-- ---------------------------------------------------------------------------

mutual

/-- The texts under a key, at any depth, in the order of the document. -/
def textsAt (key : String) : Data → List String
  | .none => []
  | .text _ => []
  | .dict items => itemsTextsAt key items
  | .list items => listTextsAt key items

def itemsTextsAt (key : String) : List (String × Data) → List String
  | [] => []
  | (k, .text s) :: items => (if k = key then [s] else []) ++ itemsTextsAt key items
  | (_, data) :: items => textsAt key data ++ itemsTextsAt key items

def listTextsAt (key : String) : List Data → List String
  | [] => []
  | data :: items => textsAt key data ++ listTextsAt key items

end

def memberTextsAt (key : String) (member : String × Content) : List String :=
  match member.2 with
  | .xml root => textsAt key root
  | .pythonDriver | .script => []

theorem itemsTextsAt_append (key : String) (items items' : List (String × Data)) :
    itemsTextsAt key (items ++ items') = itemsTextsAt key items ++ itemsTextsAt key items' := by
  induction items with
  | nil => rfl
  | cons item items ih =>
    obtain ⟨k, data⟩ := item
    cases data <;> simp [itemsTextsAt, ih]

theorem listTextsAt_map (key : String) (f : α → Data) (as : List α) :
    listTextsAt key (as.map f) = as.flatMap fun a => textsAt key (f a) := by
  induction as with
  | nil => rfl
  | cons a as ih => simp [listTextsAt, ih]

theorem textsAt_attributes (h : key ≠ "@Name") (h' : key ≠ "@Value")
    (attributes : List (String × String)) (deploymentPath : String)
    (items : List (String × Data)) :
    itemsTextsAt key (("Attributes", createAttributes attributes deploymentPath) :: items) =
      itemsTextsAt key items := by
  simp [createAttributes, textsAt, itemsTextsAt, listTextsAt_map, h.symm, h'.symm]

theorem defaults_deploymentPath (d : DeploymentPath) :
    textsAt "@Default" d.xmlDict = [getBool d.isDefault] := by
  simp [DeploymentPath.xmlDict, textsAt, itemsTextsAt, textsAt_attributes]

theorem defaults_app (app : App) :
    itemsTextsAt "@Default" app.xmlDict =
      app.deploymentPaths.map fun d => getBool d.isDefault := by
  have hpaths : listTextsAt "@Default" (app.deploymentPaths.map DeploymentPath.xmlDict) =
      app.deploymentPaths.map fun d => getBool d.isDefault := by
    rw [listTextsAt_map, List.map_eq_flatMap]
    simp only [defaults_deploymentPath]
  simp [App.xmlDict, App.defaultAppResource, textsAt, itemsTextsAt, listTextsAt,
    textsAt_attributes, hpaths]

theorem templateNames_app (app : App) : itemsTextsAt "@TemplateName" app.xmlDict = [] := by
  simp [App.xmlDict, App.defaultAppResource, textsAt, itemsTextsAt, listTextsAt,
    textsAt_attributes, listTextsAt_map, DeploymentPath.xmlDict]

theorem snd_place (random : AppPositionOnBlueprint → Position) (gen : AppPositionOnBlueprint)
    (apps : List App) : (Blueprint.place random gen apps).map Prod.snd = apps := by
  induction apps generalizing gen with
  | nil => rfl
  | cons app apps ih => simp [Blueprint.place, ih]

theorem textsAt_blueprint (random : AppPositionOnBlueprint → Position) (name : String)
    (apps : List App) {f : App → List String}
    (hf : ∀ x y app, itemsTextsAt key ([("@PositionX", .text x), ("@PositionY", .text y),
      ("@TemplateName", .text app.name)] ++ app.xmlDict) = f app)
    (hrest : itemsTextsAt key (xmlSchemas ++ [("Details", Blueprint.details name)]) = []) :
    textsAt key (Blueprint.xmlRootDict random name apps) = apps.flatMap f := by
  have happs : listTextsAt key (Blueprint.appsDict random apps) = apps.flatMap f := by
    unfold Blueprint.appsDict
    rw [listTextsAt_map]
    simp only [textsAt, hf]
    conv_rhs => rw [← snd_place random {} apps, List.flatMap_map]
  unfold Blueprint.xmlRootDict
  rw [show xmlSchemas ++ [("Details", Blueprint.details name),
    ("Apps", .dict [("App", .list (Blueprint.appsDict random apps))])] =
      (xmlSchemas ++ [("Details", Blueprint.details name)]) ++
        [("Apps", .dict [("App", .list (Blueprint.appsDict random apps))])] from rfl]
  simp only [textsAt, itemsTextsAt, itemsTextsAt_append, hrest, happs, List.nil_append,
    List.append_nil]

theorem defaults_blueprint (random : AppPositionOnBlueprint → Position) (name : String)
    (apps : List App) : textsAt "@Default" (Blueprint.xmlRootDict random name apps) =
      apps.flatMap fun app => app.deploymentPaths.map fun d => getBool d.isDefault := by
  refine textsAt_blueprint random name apps (fun x y app => ?_) ?_
  · simp [itemsTextsAt, defaults_app]
  · simp [xmlSchemas, Blueprint.details, textsAt, itemsTextsAt, listTextsAt]

theorem templateNames_blueprint (random : AppPositionOnBlueprint → Position) (name : String)
    (apps : List App) : textsAt "@TemplateName" (Blueprint.xmlRootDict random name apps) =
      apps.map App.name := by
  rw [List.map_eq_flatMap]
  refine textsAt_blueprint random name apps (fun x y app => ?_) ?_
  · simp [itemsTextsAt, templateNames_app]
  · simp [xmlSchemas, Blueprint.details, textsAt, itemsTextsAt, listTextsAt]

/-- What `_get_app_models` makes of an app: one deployment path, not the default one. -/
def IsModelOf (conf : AppConfig) (app : App) : Prop :=
  app.name = conf.name ∧ app.others = [] ∧ app.first.isDefault = false

section
variable {cps : String → Option CloudProvider}

theorem getAppModel_isModelOf (h : getAppModel cps conf = .ok app) : IsModelOf conf app := by
  unfold getAppModel at h
  split at h
  · cases h
    exact ⟨rfl, rfl, rfl⟩
  · cases h

theorem getAppModels_forall₂ (h : getAppModels cps confs = .ok apps) :
    List.Forall₂ IsModelOf confs apps :=
  (mapM_ok_iff.mp h).imp fun _ _ => getAppModel_isModelOf

theorem flatMap_of_forall₂ {R : α → β → Prop} {f : α → List γ} {g : β → List γ}
    (h : List.Forall₂ R as bs) (hfg : ∀ a b, R a b → f a = g b) : as.flatMap f = bs.flatMap g := by
  induction h with
  | nil => rfl
  | cons hab _ ih => rw [List.flatMap_cons, List.flatMap_cons, hfg _ _ hab, ih]

theorem metadata_texts (now : String) (h : key = "@Default" ∨ key = "@TemplateName") :
    memberTextsAt key (metadataMember now) = [] := by
  rcases h with rfl | rfl <;>
    simp [memberTextsAt, metadataMember, MetaData.xmlRootDict, xmlSchemas, textsAt, itemsTextsAt]

theorem appsPackage_defaults (h : IsAppsPackage cps confs archive) :
    archive.flatMap (memberTextsAt "@Default") = confs.map fun _ => "false" := by
  obtain ⟨apps, now, happs, rfl⟩ := h
  rw [List.flatMap_cons, metadata_texts now (.inl rfl), List.nil_append, List.flatMap_map,
    List.map_eq_flatMap]
  refine (flatMap_of_forall₂ (getAppModels_forall₂ happs) ?_).symm
  rintro conf app ⟨-, hothers, hfirst⟩
  have hroot : textsAt "@Default" app.xmlRootDict = itemsTextsAt "@Default" app.xmlDict := by
    simp [App.xmlRootDict, xmlSchemas, textsAt, itemsTextsAt, itemsTextsAt_append, listTextsAt]
  simp [memberTextsAt, appMember, hroot, defaults_app, App.deploymentPaths, hothers, hfirst,
    getBool]

theorem appsDict_some (h : getItem (appsDict apps) name = .ok app) :
    app ∈ apps ∧ app.name = name := by
  unfold getItem at h
  cases hfind : appsDict apps name with
  | none => simp [hfind] at h
  | some app' =>
    rw [hfind] at h
    cases h
    exact ⟨by simpa using List.mem_of_find?_eq_some hfind, by simpa using List.find?_some hfind⟩

theorem others_of_forall₂ (h : List.Forall₂ IsModelOf confs apps) :
    ∀ app ∈ apps, app.others = [] := by
  induction h with
  | nil => simp
  | cons hmodel _ ih => exact List.forall_mem_cons.mpr ⟨hmodel.2.1, ih⟩

theorem topology_texts (happs : List.Forall₂ IsModelOf appConfs apps)
    (h : IsTopology (appsDict apps) conf member) :
    memberTextsAt "@TemplateName" member = conf.appNames ∧
      memberTextsAt "@Default" member = conf.appNames.map fun _ => "true" := by
  obtain ⟨bpApps, random, hbpApps, rfl⟩ := h
  have hfound := mapM_ok_iff.mp hbpApps
  constructor
  · simp only [memberTextsAt, templateNames_blueprint]
    rw [List.map_map, List.map_eq_flatMap, ← List.flatMap_singleton' conf.appNames]
    refine (flatMap_of_forall₂ hfound fun name app hget => ?_).symm
    simp [App.withDefault, (appsDict_some hget).2]
  · simp only [memberTextsAt, defaults_blueprint]
    rw [List.flatMap_map, List.map_eq_flatMap]
    refine (flatMap_of_forall₂ hfound fun name app hget => ?_).symm
    have hothers := others_of_forall₂ happs app (appsDict_some hget).1
    simp [App.withDefault, App.deploymentPaths, hothers, getBool]

theorem blueprintsPackage_texts (h : IsBlueprintsPackage cps appConfs confs archive) :
    archive.flatMap (memberTextsAt "@TemplateName") = confs.flatMap BlueprintConfig.appNames ∧
      archive.flatMap (memberTextsAt "@Default") =
        confs.flatMap fun conf => conf.appNames.map fun _ => "true" := by
  obtain ⟨apps, now, members, happs, hmembers, rfl⟩ := h
  have hmodels := getAppModels_forall₂ happs
  have hdriver (key : String) : (driverMembers false confs).flatMap (memberTextsAt key) = [] := by
    cases confs <;> simp [driverMembers, memberTextsAt]
  rw [List.cons_append, List.flatMap_cons, List.flatMap_append, List.flatMap_cons,
    List.flatMap_append, metadata_texts now (.inl rfl), metadata_texts now (.inr rfl), hdriver,
    hdriver, List.nil_append, List.nil_append]
  exact ⟨(flatMap_of_forall₂ hmembers fun conf member hmember =>
      (topology_texts hmodels hmember).1.symm).symm,
    (flatMap_of_forall₂ hmembers fun conf member hmember =>
      (topology_texts hmodels hmember).2.symm).symm⟩

theorem Imported.forall_mem {P : Archive → Prop} (h : Imported Good r evs)
    (hP : ∀ archive, Good archive → P archive) :
    ∀ archive res, (archive, res) ∈ importsOf evs → P archive := by
  intro archive res hmem
  obtain ⟨hnil, -⟩ | ⟨archive', res', himports, hgood, -⟩ := h
  · simp [hnil] at hmem
  · rw [himports, List.mem_singleton] at hmem
    cases hmem
    exact hP archive hgood

/-- No app template that is imported has a default deployment path. Each app of
a blueprint has one, and the apps are those that the config names, in order. -/
theorem default_deploymentPaths (api : Api) (cps : String → Option CloudProvider)
    (appConfs : List AppConfig) (confs : List BlueprintConfig) :
    (Triple (createApps api cps appConfs) {} fun _ _ evs =>
      ∀ archive res, (archive, res) ∈ importsOf evs →
        archive.flatMap (memberTextsAt "@Default") = appConfs.map fun _ => "false") ∧
    (Triple (createBlueprints api cps appConfs confs) {} fun _ _ evs =>
      ∀ archive res, (archive, res) ∈ importsOf evs →
        archive.flatMap (memberTextsAt "@TemplateName") = confs.flatMap BlueprintConfig.appNames ∧
          archive.flatMap (memberTextsAt "@Default") =
            confs.flatMap fun conf => conf.appNames.map fun _ => "true") := by
  refine ⟨(createApps_delivered rfl appConfs).mono fun _ _ _ h => ?_,
    (createBlueprints_delivered rfl appConfs confs).mono fun _ _ _ h => ?_⟩
  · exact h.imported.forall_mem fun _ => appsPackage_defaults
  · exact h.imported.forall_mem fun _ => blueprintsPackage_texts

end

end ShellTests.Packages
