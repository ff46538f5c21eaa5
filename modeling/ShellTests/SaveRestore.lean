import ShellTests.DownloadFiles
import ShellTests.TestSuites

/-!
# The save and restore tests

A test method reads its server section for the path it gives to the device,
and goes to the server through the handler of that section. Each class is
written from its methods; a section that the config lacks is `None`, and using
it is an event of its own.
-/

namespace ShellTests.SaveRestore

open Prog
open ReportResult (DeviceType)

inductive Section
  | ftp
  | scp
  | tftp
  deriving DecidableEq, Repr

inductive Event
  -- an attribute of the section or of its handler; on a section that is absent it is one of `None`
  | getAttr (sec : Section) (present : Bool)
  | command (name : String) (kwargs : List (String × String)) (r : Except Exn String)
  | readFile (sec : Section) (fileName : String) (r : Except Exn (List UInt8))
  | deleteFile (sec : Section) (fileName : String) (r : Except Exn Unit)

/-- What the tests run against: the device, the servers and the `json` module. -/
structure Env where
  name : String
  execute : List Event → String → List (String × String) → Except Exn String
  readFile : List Event → Section → String → Except Exn (List UInt8)
  deleteFile : List Event → Section → String → Except Exn Unit
  -- `json.dumps({"custom_params": {"folder_path": path}})`
  dumpsFolderPath : String → String
  -- `json.dumps` of the artifact that the tests make up for a resource name
  dumpsLocalArtifact : String → String
  -- `json.loads(info)["saved_artifacts_info"]["saved_artifact"]["identifier"]`
  loadsIdentifier : String → Except Exn String
  checkNetloc : String → Except String Unit

def Env.obliging : Env where
  name := "r"
  execute _ _ _ := .ok ""
  readFile _ _ _ := .ok [0]
  deleteFile _ _ _ := .ok ()
  dumpsFolderPath path := path
  dumpsLocalArtifact name := name
  loadsIdentifier info := .ok info
  checkNetloc _ := .ok ()

abbrev TestProg (α : Type) := Prog Unit Exn Event α

variable (conf : ServersConfig) (env : Env)

/-- `value.attribute`, where the value may be `None`. -/
def getAttr (sec : Section) (name : String) (value : Option α) : TestProg α :=
  Prog.call
    (fun _ => match value with
      | some a => .ok a
      | none => .error (.attribute ("'NoneType' object has no attribute '" ++ name ++ "'")))
    fun _ => .getAttr sec value.isSome

def raiseError (r : Except Exn α) : TestProg α :=
  match r with
  | .ok a => pure a
  | .error e => throw e

def assertTrue (b : Bool) : TestProg Unit :=
  if b then pure () else throw (.assertion "False is not true")

/-- `with self.assertRaisesRegex(CloudShellAPIError, text): m`, for a text without
special characters. -/
def assertRaisesRegex (text : String) (m : TestProg Unit) : TestProg Unit :=
  tryCatch
    (do
      m
      throw (.assertion "CloudShellAPIError not raised"))
    fun e => match e with
      | .cloudShellApi _ message =>
        if mentions text message then pure ()
        else throw (.assertion (text ++ " does not match " ++ message))
      | _ => throw e

def executeCommand (name : String) (kwargs : List (String × String)) : TestProg String :=
  Prog.call (env.execute · name kwargs) (.command name kwargs)

def save (path configurationType : String) : TestProg String :=
  executeCommand env "save" [("folder_path", path), ("configuration_type", configurationType)]

def orchestrationSave (mode : String) (customParams : String := "") : TestProg String :=
  executeCommand env "orchestration_save" [("mode", mode), ("custom_params", customParams)]

def restore (path configurationType restoreMethod : String) : TestProg Unit := do
  let _ ← executeCommand env "restore" [("path", path), ("configuration_type", configurationType),
    ("restore_method", restoreMethod)]

def orchestrationRestore (savedArtifactInfo : String) (customParams : String := "") :
    TestProg Unit := do
  let _ ← executeCommand env "orchestration_restore"
    [("saved_artifact_info", savedArtifactInfo), ("custom_params", customParams)]

/-- `HandlerStorage.ftp_handler`, `scp_handler` and `tftp_handler`: `None` without the section. -/
def sectionHandler : Section → Option HostConfig
  | .ftp => conf.ftpConf.map (·.toHostConfig)
  | .scp => conf.scpConf.map (·.toHostConfig)
  | .tftp => conf.tftpConf

def readFile (sec : Section) (fileName : String) : TestProg (List UInt8) := do
  let _ ← getAttr sec "read_file" (sectionHandler conf sec)
  Prog.call (env.readFile · sec fileName) (.readFile sec fileName)

def deleteFile (sec : Section) (fileName : String) : TestProg Unit := do
  let _ ← getAttr sec "delete_file" (sectionHandler conf sec)
  Prog.call (env.deleteFile · sec fileName) (.deleteFile sec fileName)

/-- The file name in the artifact info that `orchestration_save` returned. -/
def savedFileName (savedArtifactInfo : String) : TestProg String := do
  let path ← raiseError (env.loadsIdentifier savedArtifactInfo)
  raiseError ((DownloadFiles.getFileName env.checkNetloc path).mapError .other)

/-- `f"{value}"` -/
def optionStr (value : Option String) : String := value.getD "None"

def ftpPath : TestProg String := do
  let ftp ← getAttr .ftp "user" conf.ftpConf
  pure ("ftp://" ++ optionStr ftp.user ++ ":" ++ optionStr ftp.password ++ "@" ++ ftp.host)

def scpPath : TestProg String := do
  let scp ← getAttr .scp "user" conf.scpConf
  pure ("scp://" ++ optionStr scp.user ++ ":" ++ optionStr scp.password ++ "@" ++ scp.host)

def tftpPath : TestProg String := do
  let tftp ← getAttr .tftp "host" conf.tftpConf
  pure ("tftp://" ++ tftp.host)

-- ---------------------------------------------------------------------------
-- The methods
-- ---------------------------------------------------------------------------

section
-- the path property of the class, and the section whose handler it uses
variable (path : TestProg String) (sec : Section)

def readAndDelete (fileName : String) : TestProg Unit := do
  let content ← readFile conf env sec fileName
  assertTrue (!content.isEmpty)
  deleteFile conf env sec fileName

def saveTest (configurationType : String) : TestProg Unit := do
  let folder ← path
  let fileName ← save env folder configurationType
  readAndDelete conf env sec fileName

def orchestrationSaveTest (mode : String) : TestProg Unit := do
  let folder ← path
  let info ← orchestrationSave env mode (env.dumpsFolderPath folder)
  assertTrue (info != "")
  let fileName ← savedFileName env info
  readAndDelete conf env sec fileName

def restoreTest (configurationType restoreMethod : String) : TestProg Unit := do
  let folder ← path
  let fileName ← save env folder configurationType
  let folder ← path
  withFinally (restore env (folder ++ "/" ++ fileName) configurationType restoreMethod)
    (deleteFile conf env sec fileName)

def orchestrationRestoreTest : TestProg Unit := do
  let folder ← path
  let info ← orchestrationSave env "shallow" (env.dumpsFolderPath folder)
  withFinally (orchestrationRestore env info "") do
    let fileName ← savedFileName env info
    deleteFile conf env sec fileName

def saveTests : List (String × TestProg Unit) :=
  [("test_orchestration_save_deep", orchestrationSaveTest conf env path sec "deep"),
   ("test_orchestration_save_shallow", orchestrationSaveTest conf env path sec "shallow"),
   ("test_save_running_config", saveTest conf env path sec "running"),
   ("test_save_startup_config", saveTest conf env path sec "startup")]

def restoreTests : List (String × TestProg Unit) :=
  [("test_orchestration_restore", orchestrationRestoreTest conf env path sec),
   ("test_restore_running_config_append", restoreTest conf env path sec "running" "append"),
   ("test_restore_running_config_override", restoreTest conf env path sec "running" "override"),
   ("test_restore_startup_config_append", restoreTest conf env path sec "startup" "append"),
   ("test_restore_startup_config_override", restoreTest conf env path sec "startup" "override")]

end

/-- The methods below
`with self.assertRaisesRegex(CloudShellAPIError, r"SessionManagerException")`. -/
def expectSessionError (m : TestProg Unit) : TestProg Unit :=
  assertRaisesRegex "SessionManagerException" m

-- inherits `ftp_path` from `TestSaveConfig`
def saveTestsWithoutDevice : List (String × TestProg Unit) :=
  let saveTest (configurationType : String) : TestProg Unit := expectSessionError do
    let folder ← ftpPath conf
    let _ ← save env folder configurationType
  let orchestrationSaveTest (mode : String) : TestProg Unit := expectSessionError do
    let _ ← orchestrationSave env mode
  [("test_orchestration_save_deep", orchestrationSaveTest "deep"),
   ("test_orchestration_save_shallow", orchestrationSaveTest "shallow"),
   ("test_save_running_config", saveTest "running"),
   ("test_save_startup_config", saveTest "startup")]

def saveTestsFromTemplate : List (String × TestProg Unit) :=
  let orchestrationSaveTest (mode : String) : TestProg Unit := do
    let _ ← orchestrationSave env mode (env.dumpsFolderPath "ftp://")
  [("test_orchestration_save_deep", orchestrationSaveTest "deep"),
   ("test_orchestration_save_shallow", orchestrationSaveTest "shallow"),
   ("test_save_running_config", do let _ ← save env "ftp://" "running")]

def restoreTestsWithoutDevice : List (String × TestProg Unit) :=
  let restoreTest (configurationType restoreMethod : String) : TestProg Unit :=
    expectSessionError (restore env "ftp://localhost/test_conf" configurationType restoreMethod)
  [("test_orchestration_restore",
    expectSessionError (orchestrationRestore env (env.dumpsLocalArtifact env.name))),
   ("test_restore_running_config_append", restoreTest "running" "append"),
   ("test_restore_running_config_override", restoreTest "running" "override"),
   ("test_restore_startup_config_append", restoreTest "startup" "append"),
   ("test_restore_startup_config_override", restoreTest "startup" "override")]

def restoreTestsFromTemplate : List (String × TestProg Unit) :=
  [("test_orchestration_restore",
      orchestrationRestore env (env.dumpsLocalArtifact "resource_name")),
   ("test_restore_running_config_append", restore env "ftp://" "running" "override")]

def testMethods : TestCase → List (String × TestProg Unit)
  | .testSaveConfig => saveTests conf env (ftpPath conf) .ftp
  | .testSaveConfigFromScp => saveTests conf env (scpPath conf) .scp
  | .testSaveConfigFromTftp => saveTests conf env (tftpPath conf) .tftp
  | .testSaveConfigWithoutDevice => saveTestsWithoutDevice conf env
  | .testSaveConfigFromTemplate => saveTestsFromTemplate env
  | .testRestoreConfig => restoreTests conf env (ftpPath conf) .ftp
  | .testRestoreConfigFromScp => restoreTests conf env (scpPath conf) .scp
  | .testRestoreConfigFromTftp => restoreTests conf env (tftpPath conf) .tftp
  | .testRestoreConfigWithoutDevice => restoreTestsWithoutDevice env
  | .testRestoreConfigFromTemplate => restoreTestsFromTemplate env
  | _ => []

-- ---------------------------------------------------------------------------
-- Sections that are there
-- ---------------------------------------------------------------------------

def Event.Present : Event → Prop
  | .getAttr _ present => present = true
  | _ => True

/-- No run of a test method of the class uses a section that the config lacks. -/
def Guarded (conf : ServersConfig) (tc : TestCase) : Prop :=
  ∀ env, ∀ m ∈ testMethods conf env tc, ∀ s log, ∀ e ∈ newEvents m.2 s log, e.Present

theorem guarded_of_logs
    (h : ∀ env, ∀ m ∈ testMethods conf env tc, Logs Event.Present m.2) : Guarded conf tc :=
  fun env m hm s log => (h env m hm).mem_newEvents s log

section
variable {conf : ServersConfig} {env : Env}

theorem getAttr_logs {value : Option α} (h : value.isSome) (sec : Section) (name : String) :
    Logs Event.Present (getAttr sec name value) :=
  .call' fun _ => h

theorem executeCommand_logs (env : Env) (name : String) (kwargs : List (String × String)) :
    Logs Event.Present (executeCommand env name kwargs) :=
  .call' fun _ => trivial

theorem raiseError_logs (r : Except Exn α) : Logs Event.Present (raiseError r) := by
  cases r with
  | ok a => exact .pure' a
  | error e => exact .throw' e

theorem assertTrue_logs (b : Bool) : Logs Event.Present (assertTrue b) := by
  cases b with
  | true => exact .pure' ()
  | false => exact .throw' _

theorem expectSessionError_logs {m : TestProg Unit} (hm : Logs Event.Present m) :
    Logs Event.Present (expectSessionError m) := by
  refine .tryCatch' (.bind hm fun _ => .throw' _) fun e => ?_
  split
  · split
    · exact .pure' ()
    · exact .throw' _
  · exact .throw' _

theorem restore_logs (path configurationType restoreMethod : String) :
    Logs Event.Present (restore env path configurationType restoreMethod) :=
  .bind (executeCommand_logs env _ _) fun _ => .pure' ()

theorem orchestrationRestore_logs (info customParams : String) :
    Logs Event.Present (orchestrationRestore env info customParams) :=
  .bind (executeCommand_logs env _ _) fun _ => .pure' ()

theorem savedFileName_logs (info : String) : Logs Event.Present (savedFileName env info) :=
  .bind (raiseError_logs _) fun _ => raiseError_logs _

section
variable {path : TestProg String} {sec : Section} (hpath : Logs Event.Present path)
  (hsec : (sectionHandler conf sec).isSome)
include hsec

theorem deleteFile_logs (fileName : String) :
    Logs Event.Present (deleteFile conf env sec fileName) :=
  .bind (getAttr_logs hsec sec _) fun _ => .call' fun _ => trivial

theorem readAndDelete_logs (fileName : String) :
    Logs Event.Present (readAndDelete conf env sec fileName) := by
  refine .bind (.bind (getAttr_logs hsec sec _) fun _ => .call' fun _ => trivial) fun content => ?_
  exact .bind (assertTrue_logs _) fun _ => deleteFile_logs hsec fileName

include hpath

theorem saveTests_logs : ∀ m ∈ saveTests conf env path sec, Logs Event.Present m.2 := by
  have hsave (configurationType : String) :
      Logs Event.Present (saveTest conf env path sec configurationType) := by
    refine .bind hpath fun _ => .bind (executeCommand_logs env _ _) fun _ => ?_
    exact readAndDelete_logs hsec _
  have horchestration (mode : String) :
      Logs Event.Present (orchestrationSaveTest conf env path sec mode) := by
    refine .bind hpath fun _ => .bind (executeCommand_logs env _ _) fun _ => ?_
    refine .bind (assertTrue_logs _) fun _ => .bind (savedFileName_logs _) fun _ => ?_
    exact readAndDelete_logs hsec _
  simp only [saveTests, List.forall_mem_cons, List.not_mem_nil, false_implies, implies_true]
  exact ⟨horchestration _, horchestration _, hsave _, hsave _, trivial⟩

theorem restoreTests_logs : ∀ m ∈ restoreTests conf env path sec, Logs Event.Present m.2 := by
  have hrestore (configurationType restoreMethod : String) :
      Logs Event.Present (restoreTest conf env path sec configurationType restoreMethod) := by
    refine .bind hpath fun _ => .bind (executeCommand_logs env _ _) fun _ => ?_
    refine .bind hpath fun _ => Logs.withFinally' (restore_logs _ _ _) ?_
    exact deleteFile_logs hsec _
  have horchestration : Logs Event.Present (orchestrationRestoreTest conf env path sec) := by
    refine .bind hpath fun _ => .bind (executeCommand_logs env _ _) fun _ => ?_
    refine .withFinally' (orchestrationRestore_logs _ _) (.bind (savedFileName_logs _) fun _ => ?_)
    exact deleteFile_logs hsec _
  simp only [restoreTests, List.forall_mem_cons, List.not_mem_nil, false_implies, implies_true]
  exact ⟨horchestration, hrestore _ _, hrestore _ _, hrestore _ _, hrestore _ _, trivial⟩

end

theorem ftpPath_logs (h : conf.ftpConf.isSome) : Logs Event.Present (ftpPath conf) :=
  .bind (getAttr_logs h _ _) fun _ => .pure' _

theorem scpPath_logs (h : conf.scpConf.isSome) : Logs Event.Present (scpPath conf) :=
  .bind (getAttr_logs h _ _) fun _ => .pure' _

theorem tftpPath_logs (h : conf.tftpConf.isSome) : Logs Event.Present (tftpPath conf) :=
  .bind (getAttr_logs h _ _) fun _ => .pure' _

-- ---------------------------------------------------------------------------
-- Class by class
-- ---------------------------------------------------------------------------

theorem ftp_isSome (h : conf.ftpConf.isSome) : (sectionHandler conf .ftp).isSome := by
  simpa [sectionHandler] using h

theorem scp_isSome (h : conf.scpConf.isSome) : (sectionHandler conf .scp).isSome := by
  simpa [sectionHandler] using h

theorem guarded_optional (o : OptionalTestCase) (h : o.isSuitable conf) :
    Guarded conf o.testCase := by
  refine guarded_of_logs conf fun env => ?_
  cases o with
  | optionalTestSaveFtpConfig =>
    exact saveTests_logs (ftpPath_logs h) (ftp_isSome h)
  | optionalTestSaveScpConfig =>
    exact saveTests_logs (scpPath_logs h) (scp_isSome h)
  | optionalTestSaveTftpConfig => exact saveTests_logs (tftpPath_logs h) h
  | optionalTestRestoreFtpConfig =>
    exact restoreTests_logs (ftpPath_logs h) (ftp_isSome h)
  | optionalTestRestoreScpConfig =>
    exact restoreTests_logs (scpPath_logs h) (scp_isSome h)
  | optionalTestRestoreTftpConfig => exact restoreTests_logs (tftpPath_logs h) h

theorem guarded_saveFromTemplate : Guarded conf .testSaveConfigFromTemplate := by
  refine guarded_of_logs conf fun env => ?_
  simp only [testMethods, saveTestsFromTemplate, List.forall_mem_cons, List.not_mem_nil,
    false_implies, implies_true]
  refine ⟨?_, ?_, ?_, trivial⟩ <;>
  · exact .bind (executeCommand_logs env _ _) fun _ => .pure' ()

theorem guarded_restoreFromTemplate : Guarded conf .testRestoreConfigFromTemplate := by
  refine guarded_of_logs conf fun env => ?_
  simp only [testMethods, restoreTestsFromTemplate, List.forall_mem_cons, List.not_mem_nil,
    false_implies, implies_true]
  exact ⟨orchestrationRestore_logs _ _, restore_logs _ _ _, trivial⟩

theorem guarded_restoreWithoutDevice : Guarded conf .testRestoreConfigWithoutDevice := by
  have hrestore (env : Env) (configurationType restoreMethod : String) :
      Logs Event.Present (expectSessionError
        (restore env "ftp://localhost/test_conf" configurationType restoreMethod)) :=
    expectSessionError_logs (restore_logs _ _ _)
  refine guarded_of_logs conf fun env => ?_
  simp only [testMethods, restoreTestsWithoutDevice, List.forall_mem_cons, List.not_mem_nil,
    false_implies, implies_true]
  refine ⟨expectSessionError_logs (orchestrationRestore_logs _ _), ?_, ?_, ?_, ?_, trivial⟩ <;>
  · exact hrestore env _ _

/-- Without the section, asking for the path of `TestSaveConfig` uses `None`. -/
theorem ftpPath_absent (hftp : conf.ftpConf = none) (f : String → TestProg Unit) :
    newEvents (expectSessionError (ftpPath conf >>= f)) () [] = [.getAttr .ftp false] := by
  have hpath : ftpPath conf () [] = (.error (.attribute
      ("'NoneType' object has no attribute '" ++ "user" ++ "'")), (), [.getAttr .ftp false]) := by
    unfold ftpPath getAttr
    rw [hftp]
    rfl
  have hbody : (do ftpPath conf >>= f; throw (.assertion "CloudShellAPIError not raised") :
      TestProg Unit) () [] = _ := run_bind_error (run_bind_error hpath)
  have hrun : expectSessionError (ftpPath conf >>= f) () [] = (.error (.attribute
      ("'NoneType' object has no attribute '" ++ "user" ++ "'")), (), [.getAttr .ftp false]) := by
    unfold expectSessionError assertRaisesRegex
    rw [run_tryCatch, hbody]
    rfl
  rw [newEvents, hrun]
  rfl

/-- The save tests without a device take that path with no check of the section. -/
theorem guarded_saveWithoutDevice_iff :
    Guarded conf .testSaveConfigWithoutDevice ↔ conf.ftpConf ≠ none := by
  refine ⟨fun h hftp => ?_, fun hftp => guarded_of_logs conf fun env => ?_⟩
  · have hrun := h .obliging ("test_save_running_config", _)
      (List.mem_cons_of_mem _ (List.mem_cons_of_mem _ List.mem_cons_self)) () []
    rw [ftpPath_absent hftp] at hrun
    simp [Event.Present] at hrun
  · have hsome : conf.ftpConf.isSome := by rwa [Option.isSome_iff_ne_none]
    have hsave (configurationType : String) : Logs Event.Present (expectSessionError do
        let folder ← ftpPath conf
        let _ ← save env folder configurationType) := by
      refine expectSessionError_logs (.bind (ftpPath_logs hsome) fun _ => ?_)
      exact .bind (executeCommand_logs env _ _) fun _ => .pure' ()
    have horchestration (mode : String) : Logs Event.Present (expectSessionError do
        let _ ← orchestrationSave env mode) :=
      expectSessionError_logs (.bind (executeCommand_logs env _ _) fun _ => .pure' ())
    simp only [testMethods, saveTestsWithoutDevice, List.forall_mem_cons, List.not_mem_nil,
      false_implies, implies_true]
    exact ⟨horchestration _, horchestration _, hsave _, hsave _, trivial⟩

end

-- ---------------------------------------------------------------------------
-- What is selected is guarded
-- ---------------------------------------------------------------------------

def isOptional : TestCase → Bool
  | .testSaveConfig | .testSaveConfigFromScp | .testSaveConfigFromTftp | .testRestoreConfig
  | .testRestoreConfigFromScp | .testRestoreConfigFromTftp => true
  | _ => false

def networkFamilies : List String := ["CS_Firewall", "CS_LoadBalancer", "CS_Router", "CS_Switch"]

def saveCommands : List String := ["save", "orchestration_save"]

/-- `p` of a class that stands alone. -/
def aloneOnly (p : TestCase → Bool) : Cases → Bool
  | .one tc => p tc
  | .tuple _ => true

/-- A class that stands alone in the table needs no section, but for one: the
save tests of the network families without a device. -/
theorem table_one (h : casesFor family deviceType = some casesMap)
    (hlookup : casesMap.lookup name = some (.one tc)) :
    isOptional tc = false ∧ (tc = .testSaveConfigWithoutDevice →
      deviceType = .withoutDevice ∧ family ∈ networkFamilies ∧ name ∈ saveCommands) := by
  have htable : ∀ f ∈ testCasesMap, ∀ d ∈ f.2, ∀ c ∈ d.2, aloneOnly (fun tc =>
      decide (isOptional tc = false ∧ (tc = .testSaveConfigWithoutDevice →
        d.1 = .withoutDevice ∧ f.1 ∈ networkFamilies ∧ c.1 ∈ saveCommands))) c.2 = true := by
    decide
  obtain ⟨familyMap, hmem, hmem'⟩ := casesFor_mem h
  exact of_decide_eq_true (htable _ hmem _ hmem' _ (mem_of_lookup hlookup))

theorem casesFor_withoutDevice (hfamily : family ∈ networkFamilies) :
    casesFor family .withoutDevice = some withoutDeviceCases := by
  simp only [networkFamilies, List.mem_cons, List.not_mem_nil, or_false] at hfamily
  rcases hfamily with rfl | rfl | rfl | rfl <;> rfl

theorem guarded_one {conf : ServersConfig} (hoptional : isOptional tc = false)
    (hsave : tc = .testSaveConfigWithoutDevice → conf.ftpConf ≠ none) : Guarded conf tc := by
  cases tc with
  | testSaveConfigWithoutDevice => exact guarded_saveWithoutDevice_iff.mpr (hsave rfl)
  | testSaveConfigFromTemplate => exact guarded_saveFromTemplate
  | testRestoreConfigWithoutDevice => exact guarded_restoreWithoutDevice
  | testRestoreConfigFromTemplate => exact guarded_restoreFromTemplate
  | testSaveConfig | testSaveConfigFromScp | testSaveConfigFromTftp | testRestoreConfig
  | testRestoreConfigFromScp | testRestoreConfigFromTftp => simp [isOptional] at hoptional
  | _ => exact guarded_of_logs conf fun env => by simp [testMethods]

theorem saveWithoutDevice_selected (hfamily : family ∈ networkFamilies)
    (hcommand : command ∈ commands) (hsave : lower command ∈ saveCommands) :
    ∃ tcs, selectTestCases conf lower family .withoutDevice commands = some tcs ∧
      .testSaveConfigWithoutDevice ∈ tcs := by
  have hcases := casesFor_withoutDevice hfamily
  have hlookup : withoutDeviceCases.lookup (lower command) =
      some (.one .testSaveConfigWithoutDevice) := by
    simp only [saveCommands, List.mem_cons, List.not_mem_nil, or_false] at hsave
    rcases hsave with heq | heq <;> rw [heq] <;> rfl
  have hselect : ∃ tcs, selectTestCases conf lower family .withoutDevice commands = some tcs := by
    simp [selectTestCases, hcases]
  obtain ⟨tcs, htcs⟩ := hselect
  refine ⟨tcs, htcs, (mem_selectTestCases hcases htcs _).mpr ?_⟩
  exact .command (List.mem_map_of_mem hcommand) hlookup rfl

/-- The selected save and restore tests use sections of the config only, unless
a network device without a device under it reports a save command and there is
no FTP section. -/
theorem selected_guarded_iff (conf : ServersConfig) (lower : String → String) (family : String)
    (deviceType : DeviceType) (commands : List String) :
    (∀ tcs, selectTestCases conf lower family deviceType commands = some tcs →
        ∀ tc ∈ tcs, Guarded conf tc) ↔
      ¬ (deviceType = .withoutDevice ∧ family ∈ networkFamilies ∧
        (∃ command ∈ commands, lower command ∈ saveCommands) ∧ conf.ftpConf = none) := by
  constructor
  · rintro hguarded ⟨rfl, hfamily, ⟨command, hcommand, hsave⟩, hftp⟩
    obtain ⟨tcs, htcs, hmem⟩ := saveWithoutDevice_selected conf hfamily hcommand hsave
    exact guarded_saveWithoutDevice_iff.mp (hguarded tcs htcs _ hmem) hftp
  · intro hnot tcs htcs tc htc
    cases hcases : casesFor family deviceType with
    | none => simp [selectTestCases, hcases] at htcs
    | some casesMap =>
      have hone {name : String} (hlookup : casesMap.lookup name = some (.one tc))
          (hname : name ∈ saveCommands → ∃ command ∈ commands, lower command ∈ saveCommands) :
          Guarded conf tc := by
        obtain ⟨hoptional, hsave⟩ := table_one hcases hlookup
        refine guarded_one hoptional fun heq hftp => ?_
        obtain ⟨hdevice, hfamily, hmem⟩ := hsave heq
        exact hnot ⟨hdevice, hfamily, hname hmem, hftp⟩
      cases (mem_selectTestCases hcases htcs tc).mp htc with
      | autoload hfamily hlookup => exact hone hlookup (by simp [saveCommands])
      | @command name cases hname hlookup hgives =>
        cases cases with
        | one tc' =>
          obtain rfl : tc = tc' := hgives
          refine hone hlookup fun hmem => ?_
          obtain ⟨command, hcommand, rfl⟩ := List.mem_map.mp hname
          exact ⟨command, hcommand, hmem⟩
        | tuple optionals =>
          obtain ⟨o, -, hsuitable, rfl⟩ := hgives
          exact guarded_optional o hsuitable

/-- A switch without a device, and a config without servers: the save tests are
selected and ask `None` for the user. -/
theorem switch_without_ftp :
    selectTestCases {} lowerAscii "CS_Switch" .withoutDevice ["save"] =
        some [.testAutoloadWithoutDevice, .testSaveConfigWithoutDevice] ∧
      ¬ Guarded {} .testSaveConfigWithoutDevice := by
  refine ⟨by decide, fun h => ?_⟩
  exact guarded_saveWithoutDevice_iff.mp h rfl

end ShellTests.SaveRestore
