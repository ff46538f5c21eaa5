import Mathlib.Data.List.Nodup
import ShellTests.RemoteFiles
import ShellTests.ReportResult

/-!
# The test classes for a resource

`get_test_suite` looks up each command that the resource reports and collects
the test classes mapped to it, the optional ones where their server section is
in the config. What it collects depends on the set of the commands' lower-case
names alone.
-/

namespace ShellTests

open ReportResult (DeviceType)

structure ServersConfig where
  ftpConf : Option HostWithUserConfig := none
  scpConf : Option HostWithUserConfig := none
  tftpConf : Option HostConfig := none
  deriving DecidableEq, Repr

inductive TestCase
  | testAutoloadNetworkDevices
  | testAutoloadShellFromTemplate
  | testAutoloadTrafficGeneratorDevices
  | testAutoloadVirtualTrafficGeneratorDevices
  | testAutoloadWithoutDevice
  | testAutoloadWithoutPorts
  | testConnectivity
  | testRestoreConfig
  | testRestoreConfigFromScp
  | testRestoreConfigFromTftp
  | testRestoreConfigFromTemplate
  | testRestoreConfigWithoutDevice
  | testRunCustomCommand
  | testRunCustomCommandShellFromTemplate
  | testRunCustomCommandWithoutDevice
  | testSaveConfig
  | testSaveConfigFromScp
  | testSaveConfigFromTftp
  | testSaveConfigFromTemplate
  | testSaveConfigWithoutDevice
  | testGetStatistics
  | testGetStatisticsWithoutDevice
  | testGetTestFile
  | testGetTestFileWithoutDevice
  | testLoadConfig
  | testLoadConfigWithoutDevice
  | testStartTraffic
  | testStartTrafficWithoutDevice
  | testStopTraffic
  | testStopTrafficWithoutDevice
  deriving DecidableEq, Repr

inductive OptionalTestCase
  | optionalTestSaveFtpConfig
  | optionalTestSaveScpConfig
  | optionalTestSaveTftpConfig
  | optionalTestRestoreFtpConfig
  | optionalTestRestoreScpConfig
  | optionalTestRestoreTftpConfig
  deriving DecidableEq, Repr

namespace OptionalTestCase

def testCase : OptionalTestCase → TestCase
  | optionalTestSaveFtpConfig => .testSaveConfig
  | optionalTestSaveScpConfig => .testSaveConfigFromScp
  | optionalTestSaveTftpConfig => .testSaveConfigFromTftp
  | optionalTestRestoreFtpConfig => .testRestoreConfig
  | optionalTestRestoreScpConfig => .testRestoreConfigFromScp
  | optionalTestRestoreTftpConfig => .testRestoreConfigFromTftp

def isSuitable (conf : ServersConfig) : OptionalTestCase → Bool
  | optionalTestSaveFtpConfig | optionalTestRestoreFtpConfig => conf.ftpConf.isSome
  | optionalTestSaveScpConfig | optionalTestRestoreScpConfig => conf.scpConf.isSome
  | optionalTestSaveTftpConfig | optionalTestRestoreTftpConfig => conf.tftpConf.isSome

end OptionalTestCase

-- ---------------------------------------------------------------------------
-- The table
-- ---------------------------------------------------------------------------

/-- A value of the table: one class, or a tuple of optional ones. -/
inductive Cases
  | one (testCase : TestCase)
  | tuple (optionals : List OptionalTestCase)
  deriving DecidableEq, Repr

abbrev CasesMap := List (String × Cases)

def saveTestCases : Cases :=
  .tuple [.optionalTestSaveFtpConfig, .optionalTestSaveScpConfig, .optionalTestSaveTftpConfig]

def restoreTestCases : Cases :=
  .tuple [.optionalTestRestoreFtpConfig, .optionalTestRestoreScpConfig,
    .optionalTestRestoreTftpConfig]

def realDeviceCases : CasesMap :=
  [("autoload", .one .testAutoloadNetworkDevices),
   ("run_custom_command", .one .testRunCustomCommand),
   ("run_custom_config_command", .one .testRunCustomCommand),
   ("save", saveTestCases),
   ("orchestration_save", saveTestCases),
   ("restore", restoreTestCases),
   ("orchestration_restore", restoreTestCases)]

def withoutDeviceCases : CasesMap :=
  [("autoload", .one .testAutoloadWithoutDevice),
   ("run_custom_command", .one .testRunCustomCommandWithoutDevice),
   ("run_custom_config_command", .one .testRunCustomCommandWithoutDevice),
   ("save", .one .testSaveConfigWithoutDevice),
   ("orchestration_save", .one .testSaveConfigWithoutDevice),
   ("restore", .one .testRestoreConfigWithoutDevice),
   ("orchestration_restore", .one .testRestoreConfigWithoutDevice)]

def shellFromTemplateCases : CasesMap :=
  [("autoload", .one .testAutoloadShellFromTemplate),
   ("run_custom_command", .one .testRunCustomCommandShellFromTemplate),
   ("run_custom_config_command", .one .testRunCustomCommandShellFromTemplate),
   ("save", .one .testSaveConfigFromTemplate),
   ("restore", .one .testRestoreConfigFromTemplate)]

abbrev FamilyMap := List (DeviceType × CasesMap)

def testCasesFirewall : FamilyMap :=
  [(.simulator, [("autoload", .one .testAutoloadNetworkDevices)]),
   (.withoutDevice, withoutDeviceCases),
   (.realDevice, realDeviceCases),
   (.shellFromTemplate, shellFromTemplateCases)]

def testCasesLoadbalancer : FamilyMap := testCasesFirewall

def testCasesRouter : FamilyMap :=
  [(.simulator, [("autoload", .one .testAutoloadNetworkDevices)]),
   (.withoutDevice, withoutDeviceCases),
   (.realDevice, realDeviceCases ++ [("applyconnectivitychanges", .one .testConnectivity)]),
   (.shellFromTemplate, shellFromTemplateCases)]

def testCasesSwitch : FamilyMap := testCasesRouter

def testCasesTrafficGeneratorChassis : FamilyMap :=
  [(.realDevice, [("autoload", .one .testAutoloadTrafficGeneratorDevices)]),
   (.withoutDevice, [("autoload", .one .testAutoloadWithoutDevice)]),
   (.simulator, [("autoload", .one .testAutoloadTrafficGeneratorDevices)])]

def testCasesVirtualTrafficGeneratorChassis : FamilyMap :=
  [(.realDevice, [("autoload", .one .testAutoloadVirtualTrafficGeneratorDevices)])]

def testCasesTrafficGeneratorController : FamilyMap :=
  [(.realDevice,
    [("load_config", .one .testLoadConfig),
     ("start_traffic", .one .testStartTraffic),
     ("stop_traffic", .one .testStopTraffic),
     ("get_statistics", .one .testGetStatistics),
     ("get_test_file", .one .testGetTestFile)]),
   (.withoutDevice,
    [("load_config", .one .testLoadConfigWithoutDevice),
     ("start_traffic", .one .testStartTrafficWithoutDevice),
     ("stop_traffic", .one .testStopTrafficWithoutDevice),
     ("get_statistics", .one .testGetStatisticsWithoutDevice),
     ("get_test_file", .one .testGetTestFileWithoutDevice)])]

def testCasesGenericAppFamily : FamilyMap :=
  [(.realDevice, [("autoload", .one .testAutoloadWithoutPorts)]),
   (.withoutDevice, [("autoload", .one .testAutoloadWithoutDevice)])]

def testCasesGenericResource : FamilyMap := [(.shellFromTemplate, shellFromTemplateCases)]

def testCasesMap : List (String × FamilyMap) :=
  [("CS_Firewall", testCasesFirewall),
   ("CS_LoadBalancer", testCasesLoadbalancer),
   ("CS_Router", testCasesRouter),
   ("CS_Switch", testCasesSwitch),
   ("CS_TrafficGeneratorChassis", testCasesTrafficGeneratorChassis),
   ("CS_VirtualTrafficGeneratorChassis", testCasesVirtualTrafficGeneratorChassis),
   ("CS_TrafficGeneratorController", testCasesTrafficGeneratorController),
   ("CS_GenericAppFamily", testCasesGenericAppFamily),
   ("CS_GenericResource", testCasesGenericResource)]

def autoloadTestForFamilies : List String :=
  ["CS_Router", "CS_Firewall", "CS_LoadBalancer", "CS_Switch", "CS_TrafficGeneratorChassis",
    "CS_VirtualTrafficGeneratorChassis", "CS_GenericAppFamily", "CS_GenericResource"]

-- ---------------------------------------------------------------------------
-- get_test_suite
-- ---------------------------------------------------------------------------

section
variable (conf : ServersConfig)

/-- `if tc not in test_cases: test_cases.append(tc)` -/
def addTestCase (testCases : List TestCase) (tc : TestCase) : List TestCase :=
  if tc ∈ testCases then testCases else testCases ++ [tc]

def addOptional (testCases : List TestCase) (o : OptionalTestCase) : List TestCase :=
  if o.isSuitable conf then addTestCase testCases o.testCase else testCases

def addCommand (casesMap : CasesMap) (testCases : List TestCase) (name : String) : List TestCase :=
  match casesMap.lookup name with
  | some (.tuple optionals) => optionals.foldl (addOptional conf) testCases
  | some (.one tc) => addTestCase testCases tc
  | none => testCases

/-- `TEST_CASES_MAP[family][device_type]`, where there is one. -/
def casesFor (family : String) (deviceType : DeviceType) : Option CasesMap := do
  let familyMap ← testCasesMap.lookup family
  familyMap.lookup deviceType

def initialTestCases (family : String) (casesMap : CasesMap) : List TestCase :=
  if family ∈ autoloadTestForFamilies then
    match casesMap.lookup "autoload" with
    | some (.one tc) => [tc]
    | _ => []
  else []

-- `str.lower`, of which only its answers matter
variable (lower : String → String)

/-- The classes whose tests `get_test_suite` puts into the suite, in their
order; `none` is a `KeyError`. -/
def selectTestCases (family : String) (deviceType : DeviceType) (commands : List String) :
    Option (List TestCase) := do
  let casesMap ← casesFor family deviceType
  pure ((commands.map lower).foldl (addCommand conf casesMap) (initialTestCases family casesMap))

end

-- ---------------------------------------------------------------------------
-- What is selected
-- ---------------------------------------------------------------------------

/-- The classes that a value of the table stands for under a config. -/
def Cases.Gives (conf : ServersConfig) (tc : TestCase) : Cases → Prop
  | .one tc' => tc = tc'
  | .tuple optionals => ∃ o ∈ optionals, o.isSuitable conf ∧ tc = o.testCase

/-- The classes to be tested: the one for the autoload, and those of the names. -/
inductive Selected (conf : ServersConfig) (family : String) (casesMap : CasesMap)
    (names : List String) (tc : TestCase) : Prop
  | autoload (hfamily : family ∈ autoloadTestForFamilies)
      (hlookup : casesMap.lookup "autoload" = some (.one tc))
  | command (hname : name ∈ names) (hlookup : casesMap.lookup name = some cases)
      (hgives : cases.Gives conf tc)

section
variable {conf : ServersConfig} {casesMap : CasesMap}

@[simp] theorem mem_addTestCase : tc ∈ addTestCase testCases tc' ↔ tc ∈ testCases ∨ tc = tc' := by
  unfold addTestCase
  split
  · rename_i hmem
    exact ⟨.inl, fun h => h.elim id fun heq => heq ▸ hmem⟩
  · simp

theorem nodup_addTestCase (h : testCases.Nodup) (tc : TestCase) :
    (addTestCase testCases tc).Nodup := by
  unfold addTestCase
  split
  · exact h
  · rename_i hmem
    exact List.nodup_append_comm.mp (by simpa using ⟨hmem, h⟩)

theorem prefix_addTestCase (testCases : List TestCase) (tc : TestCase) :
    testCases <+: addTestCase testCases tc := by
  unfold addTestCase
  split
  · exact List.prefix_rfl
  · exact List.prefix_append _ _

theorem mem_foldl_iff {f : List α → β → List α} (adds : α → β → Prop)
    (hf : ∀ as b a, a ∈ f as b ↔ a ∈ as ∨ adds a b) (bs : List β) (as : List α) (a : α) :
    a ∈ bs.foldl f as ↔ a ∈ as ∨ ∃ b ∈ bs, adds a b := by
  induction bs generalizing as with
  | nil => simp
  | cons b bs ih => simp [ih, hf, or_assoc]

theorem foldl_keeps {f : List α → β → List α} {P : List α → Prop} (hf : ∀ as b, P as → P (f as b))
    (bs : List β) (as : List α) (h : P as) : P (bs.foldl f as) := by
  induction bs generalizing as with
  | nil => exact h
  | cons b bs ih => exact ih (f as b) (hf as b h)

theorem mem_addOptional : tc ∈ addOptional conf testCases o ↔
    tc ∈ testCases ∨ o.isSuitable conf ∧ tc = o.testCase := by
  unfold addOptional
  split <;> simp_all

theorem mem_addCommand : tc ∈ addCommand conf casesMap testCases name ↔
    tc ∈ testCases ∨ ∃ cases, casesMap.lookup name = some cases ∧ cases.Gives conf tc := by
  unfold addCommand
  cases hlookup : casesMap.lookup name with
  | none => simp
  | some cases =>
    cases cases with
    | one tc' => simp [Cases.Gives]
    | tuple optionals =>
      simp only [Option.some.injEq, exists_eq_left', Cases.Gives]
      exact mem_foldl_iff (fun tc o => o.isSuitable conf ∧ tc = o.testCase)
        (fun _ _ _ => mem_addOptional) optionals testCases tc

/-- What each step of the selection keeps: no class twice, and what was there comes first. -/
def Extends (first testCases : List TestCase) : Prop := testCases.Nodup ∧ first <+: testCases

theorem extends_addTestCase (h : Extends first testCases) (tc : TestCase) :
    Extends first (addTestCase testCases tc) :=
  ⟨nodup_addTestCase h.1 tc, h.2.trans (prefix_addTestCase testCases tc)⟩

theorem extends_addCommand (h : Extends first testCases) (name : String) :
    Extends first (addCommand conf casesMap testCases name) := by
  unfold addCommand
  split
  · refine foldl_keeps (fun testCases o h => ?_) _ _ h
    unfold addOptional
    split
    · exact extends_addTestCase h _
    · exact h
  · exact extends_addTestCase h _
  · exact h

theorem mem_initialTestCases : tc ∈ initialTestCases family casesMap ↔
    family ∈ autoloadTestForFamilies ∧ casesMap.lookup "autoload" = some (.one tc) := by
  unfold initialTestCases
  split
  · rename_i hfamily
    split
    · rename_i tc' hlookup
      simp [hfamily, hlookup, eq_comm]
    · rename_i hnone
      simp only [List.not_mem_nil, hfamily, true_and, false_iff]
      exact hnone tc
  · rename_i hfamily
    simp [hfamily]

theorem nodup_initialTestCases (family : String) (casesMap : CasesMap) :
    (initialTestCases family casesMap).Nodup := by
  unfold initialTestCases
  repeat' split
  all_goals simp

theorem mem_of_lookup {l : List (String × α)} (h : l.lookup k = some v) : (k, v) ∈ l := by
  obtain ⟨l₁, l₂, rfl, -⟩ := List.lookup_eq_some_iff.mp h
  simp

theorem casesFor_mem (h : casesFor family deviceType = some casesMap) :
    ∃ familyMap, (family, familyMap) ∈ testCasesMap ∧ (deviceType, casesMap) ∈ familyMap := by
  obtain ⟨familyMap, hfamily, hdevice⟩ := Option.bind_eq_some_iff.mp h
  refine ⟨familyMap, mem_of_lookup hfamily, ?_⟩
  obtain ⟨l₁, l₂, rfl, -⟩ := List.lookup_eq_some_iff.mp hdevice
  simp

theorem autoload_lookup (h : casesFor family deviceType = some casesMap)
    (hfamily : family ∈ autoloadTestForFamilies) :
    ∃ tc, casesMap.lookup "autoload" = some (.one tc) := by
  have htable : ∀ f ∈ testCasesMap, ∀ d ∈ f.2, f.1 ∈ autoloadTestForFamilies →
      (match d.2.lookup "autoload" with | some (.one _) => true | _ => false) = true := by
    decide
  obtain ⟨familyMap, hmem, hmem'⟩ := casesFor_mem h
  have hone := htable _ hmem _ hmem' hfamily
  split at hone
  · rename_i tc hlookup
    exact ⟨tc, hlookup⟩
  · cases hone

variable {lower : String → String} {commands : List String}

theorem mem_selectTestCases (h : casesFor family deviceType = some casesMap)
    (htcs : selectTestCases conf lower family deviceType commands = some tcs) (tc : TestCase) :
    tc ∈ tcs ↔ Selected conf family casesMap (commands.map lower) tc := by
  simp only [selectTestCases, h, Option.bind_eq_bind, Option.bind_some, Option.pure_def,
    Option.some.injEq] at htcs
  subst tcs
  rw [mem_foldl_iff
    (fun tc name => ∃ cases, casesMap.lookup name = some cases ∧ cases.Gives conf tc)
    (fun _ _ _ => mem_addCommand), mem_initialTestCases]
  constructor
  · rintro (⟨hfamily, hlookup⟩ | ⟨name, hname, cases, hlookup, hgives⟩)
    · exact .autoload hfamily hlookup
    · exact .command hname hlookup hgives
  · rintro (⟨hfamily, hlookup⟩ | ⟨hname, hlookup, hgives⟩)
    · exact .inl ⟨hfamily, hlookup⟩
    · exact .inr ⟨_, hname, _, hlookup, hgives⟩

/-- The selection depends on the names through their membership only. -/
theorem Selected.congr (hsame : ∀ name, name ∈ names ↔ name ∈ names')
    (h : Selected conf family casesMap names tc) : Selected conf family casesMap names' tc := by
  cases h with
  | autoload hfamily hlookup => exact .autoload hfamily hlookup
  | command hname hlookup hgives => exact .command ((hsame _).mp hname) hlookup hgives

/-- The selected classes: none twice, the one of the autoload first, all that
the lower-case names call for and no others, whatever their order and number. -/
theorem selectTestCases_exact (h : casesFor family deviceType = some casesMap) :
    ∃ tcs, selectTestCases conf lower family deviceType commands = some tcs ∧ tcs.Nodup ∧
      (∀ tc, tc ∈ tcs ↔ Selected conf family casesMap (commands.map lower) tc) ∧
      (family ∈ autoloadTestForFamilies →
        ∃ tc, casesMap.lookup "autoload" = some (.one tc) ∧ tcs.head? = some tc) ∧
      ∀ commands', (∀ name, name ∈ commands'.map lower ↔ name ∈ commands.map lower) →
        ∃ tcs', selectTestCases conf lower family deviceType commands' = some tcs' ∧
          ∀ tc, tc ∈ tcs' ↔ tc ∈ tcs := by
  have hselect (commands : List String) :
      selectTestCases conf lower family deviceType commands = some
        ((commands.map lower).foldl (addCommand conf casesMap)
          (initialTestCases family casesMap)) := by
    simp [selectTestCases, h]
  have hextends : Extends (initialTestCases family casesMap) ((commands.map lower).foldl
      (addCommand conf casesMap) (initialTestCases family casesMap)) :=
    foldl_keeps (P := Extends (initialTestCases family casesMap))
      (fun _ name h => extends_addCommand h name) _ _
      ⟨nodup_initialTestCases family casesMap, List.prefix_rfl⟩
  refine ⟨_, hselect commands, hextends.1, mem_selectTestCases h (hselect commands), ?_, ?_⟩
  · intro hfamily
    obtain ⟨tc, hlookup⟩ := autoload_lookup h hfamily
    obtain ⟨rest, hrest⟩ := hextends.2
    refine ⟨tc, hlookup, ?_⟩
    rw [← hrest]
    simp [initialTestCases, hfamily, hlookup]
  · intro commands' hsame
    refine ⟨_, hselect commands', fun tc => ?_⟩
    rw [mem_selectTestCases h (hselect commands'), mem_selectTestCases h (hselect commands)]
    exact ⟨.congr hsame, .congr fun name => (hsame name).symm⟩

def lowerAscii (text : String) : String := String.ofList (text.toList.map Char.toLower)

theorem selectTestCases_exact_router :
    ∃ tcs, selectTestCases { ftpConf := some ⟨⟨"10.0.0.1"⟩, none, none⟩ } lowerAscii "CS_Router"
        .realDevice ["Save", "save", "Autoload"] = some tcs ∧
      tcs.Nodup ∧ tcs = [.testAutoloadNetworkDevices, .testSaveConfig] := by
  have hcases : casesFor "CS_Router" .realDevice = some
      (realDeviceCases ++ [("applyconnectivitychanges", .one .testConnectivity)]) := rfl
  obtain ⟨tcs, htcs, hnodup, -⟩ :=
    @selectTestCases_exact { ftpConf := some ⟨⟨"10.0.0.1"⟩, none, none⟩ } _ _ _ _ _ hcases
  exact ⟨tcs, htcs, hnodup, Option.some.inj (htcs.symm.trans (by decide))⟩

end

end ShellTests
