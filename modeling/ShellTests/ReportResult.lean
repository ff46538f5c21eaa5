import Mathlib.Data.List.Infix

/-!
# Reports and verdicts

The reports of a run, the text that is logged and the verdict that the
command line returns. A `SandboxReport` has children of three kinds; its
verdict looks at two of them.
-/

namespace ShellTests.ReportResult

inductive DeviceType
  | realDevice
  | simulator
  | withoutDevice
  | shellFromTemplate
  deriving DecidableEq, Repr

/-- As a member of the `Enum` prints. -/
def DeviceType.str : DeviceType → String
  | .realDevice => "DeviceType.REAL_DEVICE"
  | .simulator => "DeviceType.SIMULATOR"
  | .withoutDevice => "DeviceType.WITHOUT_DEVICE"
  | .shellFromTemplate => "DeviceType.SHELL_FROM_TEMPLATE"

structure ResourceReport where
  name : String
  ip : Option String
  deviceType : DeviceType
  family : String
  isSuccess : Bool
  testResult : String

structure DeploymentResourceReport extends ResourceReport

structure ServiceReport where
  name : String
  deviceType : String
  family : String
  isSuccess : Bool
  testResult : String

structure SandboxReport where
  name : String
  sandboxIsSuccess : Bool
  testResult : String
  resourcesReports : List ResourceReport := []
  deploymentResourcesReports : List DeploymentResourceReport := []
  servicesReports : List ServiceReport := []

structure Reporting where
  sandboxesReports : List SandboxReport := []

def successStr (isSuccess : Bool) : String := if isSuccess then "successful" else "unsuccessful"

def ResourceReport.str (r : ResourceReport) : String :=
  let ip := r.ip.getD "None"
  s!"Resource name: {r.name}, IP: {ip}, Type: {r.deviceType.str}, " ++
    s!"Family: {r.family}\nTest for the device was {successStr r.isSuccess}\n{r.testResult}"

def DeploymentResourceReport.str (r : DeploymentResourceReport) : String :=
  r.toResourceReport.str.replace "Resource name" "Deployment Resource name"

def ServiceReport.str (r : ServiceReport) : String :=
  s!"Service name: {r.name}, Type: {r.deviceType}, Family: {r.family}\n" ++
    s!"Test for the service was {successStr r.isSuccess}\n{r.testResult}"

def SandboxReport.isSuccess (s : SandboxReport) : Bool :=
  let childrenSuccess := (s.resourcesReports.map (·.isSuccess) ++
    s.servicesReports.map (·.isSuccess)).all id
  if s.resourcesReports.length = 0 ∧ s.servicesReports.length = 0 then false
  else childrenSuccess && s.sandboxIsSuccess

def SandboxReport.str (s : SandboxReport) : String :=
  let sandboxTestsResult :=
    if s.testResult = "" then ""
    else s!"Sandbox name: {s.name}\nTests for sandbox was {successStr s.isSuccess}\n" ++
      s!"{s.testResult}\n\n"
  let resourcesTestsResult := "\n\n".intercalate (s.resourcesReports.map (·.str))
  let deploymentResourcesTestsResult :=
    "\n\n".intercalate (s.deploymentResourcesReports.map (·.str))
  let servicesTestsResult := "\n\n".intercalate (s.servicesReports.map (·.str))
  s!"Sandbox name: {s.name}\nTests for sandbox, resources and services was " ++
    s!"{successStr s.isSuccess}\n\n{sandboxTestsResult}{resourcesTestsResult}" ++
    s!"{deploymentResourcesTestsResult}{servicesTestsResult}"

def Reporting.isSuccess (r : Reporting) : Bool := r.sandboxesReports.all (·.isSuccess)

def Reporting.str (r : Reporting) : String :=
  let joinStr := "\n\n" ++ String.ofList (List.replicate 100 '-') ++ "\n\n"
  let sandboxesTestsResult := joinStr.intercalate (r.sandboxesReports.map (·.str))
  s!"Tests was {successStr r.isSuccess}\n\n{sandboxesTestsResult}"

/-- What the command `run-tests` logs and returns when `run` gave this report. -/
def runTests (report : Reporting) : String × Bool × Reporting :=
  ("\n\nTest results:\n" ++ report.str, report.isSuccess, report)

-- ---------------------------------------------------------------------------
-- When a verdict is earned
-- ---------------------------------------------------------------------------

structure SandboxReport.Clean (s : SandboxReport) : Prop where
  flag : s.sandboxIsSuccess = true
  resources : ∀ r ∈ s.resourcesReports, r.isSuccess = true
  services : ∀ r ∈ s.servicesReports, r.isSuccess = true

def SandboxReport.Deployed (s : SandboxReport) : Prop :=
  ∀ r ∈ s.deploymentResourcesReports, r.isSuccess = true

def SandboxReport.Tested (s : SandboxReport) : Prop :=
  s.resourcesReports ≠ [] ∨ s.servicesReports ≠ []

/-- The flag and all reports are successful, and there is one of some kind. -/
def SandboxReport.Earned (s : SandboxReport) : Prop :=
  s.Clean ∧ s.Deployed ∧ (s.Tested ∨ s.deploymentResourcesReports ≠ [])

/-- There are sandbox reports, and each has earned its verdict. -/
def Reporting.Earned (r : Reporting) : Prop :=
  r.sandboxesReports ≠ [] ∧ ∀ s ∈ r.sandboxesReports, s.Earned

/-- The text begins with a successful verdict. -/
def Reporting.PrintsSuccess (r : Reporting) : Prop :=
  "Tests was successful".toList <+: r.str.toList

/-- What is returned and what is printed first tell if the verdict is earned. -/
structure Reporting.Tells (r : Reporting) : Prop where
  returned : r.isSuccess = true ↔ r.Earned
  printed : r.PrintsSuccess ↔ r.Earned

theorem isSuccess_iff (s : SandboxReport) : s.isSuccess = true ↔ s.Clean ∧ s.Tested := by
  have hclean : s.Clean ↔ s.sandboxIsSuccess = true ∧
      (∀ r ∈ s.resourcesReports, r.isSuccess = true) ∧
      ∀ r ∈ s.servicesReports, r.isSuccess = true :=
    ⟨fun ⟨hf, hr, hs⟩ => ⟨hf, hr, hs⟩, fun ⟨hf, hr, hs⟩ => ⟨hf, hr, hs⟩⟩
  rw [hclean]
  simp [SandboxReport.isSuccess, SandboxReport.Tested]
  grind

theorem printsSuccess_iff (r : Reporting) : r.PrintsSuccess ↔ r.isSuccess = true := by
  unfold Reporting.PrintsSuccess Reporting.str
  cases r.isSuccess <;> simp [successStr, toString]

/-- A successful verdict that counts for nothing needs one of two things: no
sandbox report, or a failed deployment report in a run that is fine without
it. An earned one is missed where a sandbox has deployment reports only. -/
structure Reporting.Counted (r : Reporting) : Prop where
  tested : r.sandboxesReports ≠ []
  deployed : (∀ s ∈ r.sandboxesReports, s.Clean ∧ s.Tested) → ∀ s ∈ r.sandboxesReports, s.Deployed
  notOnly : (∀ s ∈ r.sandboxesReports, s.Earned) → ∀ s ∈ r.sandboxesReports, s.Tested

theorem reporting_isSuccess_iff (r : Reporting) :
    r.isSuccess = true ↔ ∀ s ∈ r.sandboxesReports, s.Clean ∧ s.Tested := by
  simp [Reporting.isSuccess, isSuccess_iff]

theorem returned_iff (r : Reporting) : (r.isSuccess = true ↔ r.Earned) ↔ r.Counted := by
  rw [reporting_isSuccess_iff]
  constructor
  · intro h
    refine ⟨?_, fun hall s hs => ((h.mp hall).2 s hs).2.1, fun hall s hs => ?_⟩
    · intro hnil
      exact (h.mp (by simp [hnil])).1 hnil
    · by_cases hnil : r.sandboxesReports = []
      · simp [hnil] at hs
      · exact ((h.mpr ⟨hnil, hall⟩) s hs).2
  · rintro ⟨htested, hdeployed, honly⟩
    constructor
    · intro hall
      refine ⟨htested, fun s hs => ?_⟩
      exact ⟨(hall s hs).1, hdeployed hall s hs, .inl (hall s hs).2⟩
    · rintro ⟨-, hearned⟩ s hs
      exact ⟨(hearned s hs).1, honly hearned s hs⟩

/-- The verdict that is returned and printed first is the earned one exactly
when something was tested and no deployment report makes the difference. -/
theorem verdict_earned_iff (r : Reporting) : r.Tells ↔ r.Counted := by
  rw [← returned_iff]
  constructor
  · exact fun h => h.returned
  · exact fun h => ⟨h, (printsSuccess_iff r).trans h⟩

def tested (isSuccess : Bool) : ResourceReport :=
  { name := "router", ip := some "10.0.0.1", deviceType := .realDevice, family := "CS_Router"
    isSuccess, testResult := "" }

def sandboxWith (resources : List ResourceReport) (deployments : List DeploymentResourceReport) :
    SandboxReport :=
  { name := "sandbox", sandboxIsSuccess := true, testResult := "", resourcesReports := resources
    deploymentResourcesReports := deployments }

/-- A run without a sandbox, one above a failed deployment report, and one
with a passed deployment report only. -/
theorem verdict_not_earned :
    (Reporting.isSuccess ⟨[]⟩ = true ∧ ¬ Reporting.Earned ⟨[]⟩) ∧
    (Reporting.isSuccess ⟨[sandboxWith [tested true] [⟨tested false⟩]]⟩ = true ∧
      ¬ Reporting.Earned ⟨[sandboxWith [tested true] [⟨tested false⟩]]⟩) ∧
    Reporting.isSuccess ⟨[sandboxWith [] [⟨tested true⟩]]⟩ = false ∧
      Reporting.Earned ⟨[sandboxWith [] [⟨tested true⟩]]⟩ := by
  refine ⟨⟨rfl, fun h => h.1 rfl⟩, ⟨rfl, fun h => ?_⟩, rfl, by simp, ?_⟩
  · have hdeployed := (h.2 _ (List.mem_singleton.mpr rfl)).2.1
    simp [SandboxReport.Deployed, sandboxWith, tested] at hdeployed
  · simp only [List.mem_singleton, forall_eq]
    refine ⟨⟨rfl, ?_, ?_⟩, ?_, .inr ?_⟩ <;>
      simp [SandboxReport.Deployed, sandboxWith, tested]

end ShellTests.ReportResult
