import ShellTests.Lib.Substring
import ShellTests.DoHandler
import ShellTests.ReportResult
import ShellTests.RunReports

/-!
# The verdict of a run

What `run-tests` logs and returns once `_run_tests_for_sandboxes` has returned:
the reports that the threads appended, as the classes of `report_result.py`
show them. The verdict is that of the tests, whatever the interleaving.
-/

namespace ShellTests

open ReportResult (DeviceType)

/-- `ResourceHandler.device_type`, which looks at the config alone. -/
def ResourceConfig.deviceType (conf : ResourceConfig) : DeviceType :=
  if mentions "SHELL_FROM_TEMPLATE" conf.name then .shellFromTemplate
  else if conf.deviceIp.getD "" = "" then .withoutDevice
  else if (lookupLast "User" conf.attributes).getD "" ≠ "" then .realDevice
  else .simulator

namespace RunTests

open Machine

/-- What the reports show from outside the config: the family that the
CloudShell gives a resource, and what the runner wrote about each suite of a
sandbox. -/
structure Texts where
  family : Nat → String
  testResult : Nat → Nat → String

section
variable (conf : Conf) (texts : Texts) (s : State)

def Conf.resourceReport (i : Nat) (entry : ResourceReport × Nat) :
    Option ReportResult.ResourceReport :=
  conf.handlers[entry.1.resource]?.map fun c =>
    { name := c.name, ip := c.deviceIp, deviceType := c.deviceType
      family := texts.family entry.1.resource
      isSuccess := entry.1.isSuccess, testResult := texts.testResult i entry.2 }

def Conf.resourceReports (i : Nat) : List ReportResult.ResourceReport :=
  (s.resourcesReports i).zipIdx.filterMap (conf.resourceReport texts i)

/-- `_run_sandbox_tests` tests nothing: the flag is true, and there is no text. -/
def State.sandboxReport (i : Nat) : Option ReportResult.SandboxReport :=
  conf.sandboxes[i]?.map fun c =>
    { name := c.name, sandboxIsSuccess := true, testResult := ""
      resourcesReports := conf.resourceReports texts s i }

def State.reporting : ReportResult.Reporting :=
  ⟨s.sandboxesReports.filterMap (s.sandboxReport conf texts)⟩

end

/-- Each sandbox has a resource to test, and no test of these failed or was skipped. -/
def AllPassed (conf : Conf) (acts : List Act) : Prop :=
  ∀ i < conf.sandboxes.length,
    (∃ j, conf.testsAt i j) ∧ ∀ j, conf.testsAt i j → suiteResult i j acts = true

section
variable {conf : Conf} {texts : Texts} {s : State} {acts : List Act} {i j r : Nat}

theorem testsAt_iff : conf.testsAt i j ↔
    ∃ r c, (conf.resourcesOf i)[j]? = some r ∧ conf.handlers[r]? = some c ∧ c.runTests = true := by
  unfold Conf.testsAt Conf.runTests
  cases (conf.resourcesOf i)[j]? with
  | none => simp
  | some r => cases hc : conf.handlers[r]? <;> simp [hc]

theorem lt_of_testsAt (h : conf.testsAt i j) : i < conf.sandboxes.length := by
  by_contra hi
  have hlt := testsAt_lt h
  simp [Conf.resourcesOf, namesOf_of_le (Nat.le_of_not_lt hi)] at hlt

theorem sandbox_reported (h : run (step conf) {} acts = some s) (hended : s.main = .ended (.ok ()))
    (hi : i < conf.sandboxes.length) : i ∈ s.sandboxesReports :=
  ((run_kept h).sandboxes.each i).reported.mpr
    (all_returned (reach_inv (.of_free_run acts rfl h)) hended hi)

theorem mem_resourcesReports (h : run (step conf) {} acts = some s)
    (hended : s.main = .ended (.ok ())) (hi : i < conf.sandboxes.length) (report : ResourceReport) :
    report ∈ s.resourcesReports i ↔
      ∃ j, conf.testsAt i j ∧ conf.reportAt i acts j = some report := by
  obtain ⟨-, hsandboxes, held, hheld⟩ := run_kept h
  have hreturned : s.sandbox i = .done (.ok ()) :=
    all_returned (reach_inv (.of_free_run acts rfl h)) hended hi
  have hkept : SandboxKept conf s.books i (.done (.ok ())) := hreturned ▸ hsandboxes.each i
  have hreports : s.resourcesReports i = (held i).filterMap (conf.reportAt i acts) :=
    hheld.reports i
  rw [hreports, List.mem_filterMap]
  refine exists_congr fun j => and_congr_left fun _ => ?_
  rw [(hheld.held_perm (hkept.waited rfl)).mem_iff, List.mem_filter, List.mem_range]
  exact ⟨fun hj => hj.2, fun htests => ⟨testsAt_lt htests, htests⟩⟩

end

theorem infix_intercalate {text : String} {texts : List String} (sep : String)
    (h : text ∈ texts) : text.toList <:+: (sep.intercalate texts).toList := by
  rw [String.toList_intercalate]
  exact Substring.infix_intercalate _ (List.mem_map_of_mem h)

open ReportResult in
theorem report_printed {reporting : Reporting} {sandbox : SandboxReport}
    {report : ReportResult.ResourceReport} (hsandbox : sandbox ∈ reporting.sandboxesReports)
    (hreport : report ∈ sandbox.resourcesReports) :
    report.str.toList <:+: (ReportResult.runTests reporting).1.toList := by
  have hin : report.str.toList <:+: sandbox.str.toList := by
    refine (infix_intercalate "\n\n" (List.mem_map_of_mem hreport)).trans ?_
    simp only [SandboxReport.str, toString, String.toList_append]
    exact List.infix_append_of_infix_left (List.infix_append_of_infix_right List.infix_append_right)
  have hjoined := hin.trans (infix_intercalate
    ("\n\n" ++ String.ofList (List.replicate 100 '-') ++ "\n\n") (List.mem_map_of_mem hsandbox))
  simp only [ReportResult.runTests, Reporting.str, toString, String.toList_append]
  exact List.infix_append_of_infix_right (List.infix_append_of_infix_right hjoined)

-- ---------------------------------------------------------------------------
-- The verdict
-- ---------------------------------------------------------------------------

section
variable {conf : Conf} {s : State} {acts : List Act} {i j r : Nat} {c : ResourceConfig}
  (h : run (step conf) {} acts = some s) (hended : s.main = .ended (.ok ())) (texts : Texts)
include h hended

theorem mem_sandboxesReports {c : SandboxConfig} (hi : conf.sandboxes[i]? = some c) :
    { name := c.name, sandboxIsSuccess := true, testResult := ""
      resourcesReports := conf.resourceReports texts s i } ∈
        (s.reporting conf texts).sandboxesReports := by
  have hlt : i < conf.sandboxes.length := (List.getElem?_eq_some_iff.mp hi).1
  refine List.mem_filterMap.mpr ⟨i, sandbox_reported h hended hlt, ?_⟩
  rw [State.sandboxReport, hi]
  rfl

theorem tested_reported (hj : (conf.resourcesOf i)[j]? = some r)
    (hr : conf.handlers[r]? = some c) (htests : c.runTests = true) :
    ∃ report ∈ conf.resourceReports texts s i,
      report.name = c.name ∧ report.isSuccess = suiteResult i j acts := by
  have hat : conf.testsAt i j := testsAt_iff.mpr ⟨r, c, hj, hr, htests⟩
  have hmem : ⟨r, suiteResult i j acts⟩ ∈ s.resourcesReports i :=
    (mem_resourcesReports h hended (lt_of_testsAt hat) _).mpr ⟨j, hat, by simp [Conf.reportAt, hj]⟩
  obtain ⟨k, hk⟩ := List.getElem?_of_mem hmem
  obtain ⟨report, hreport, hshows⟩ : ∃ report,
      conf.resourceReport texts i (⟨r, suiteResult i j acts⟩, k) = some report ∧
        report.name = c.name ∧ report.isSuccess = suiteResult i j acts := by
    simp [Conf.resourceReport, hr]
  have hentry : (⟨r, suiteResult i j acts⟩, k) ∈ (s.resourcesReports i).zipIdx :=
    List.mem_zipIdx_iff_getElem?.mpr hk
  exact ⟨report, List.mem_filterMap.mpr ⟨_, hentry, hreport⟩, hshows⟩

theorem reported_tested (hi : i < conf.sandboxes.length)
    (hmem : report ∈ conf.resourceReports texts s i) :
    ∃ j, conf.testsAt i j ∧ report.isSuccess = suiteResult i j acts := by
  obtain ⟨⟨entry, k⟩, hentry, hreport⟩ := List.mem_filterMap.mp hmem
  obtain ⟨c, -, rfl⟩ := Option.map_eq_some_iff.mp hreport
  have hin : entry ∈ s.resourcesReports i :=
    List.mem_of_getElem? (List.mem_zipIdx_iff_getElem?.mp hentry)
  obtain ⟨j, hat, hat'⟩ := (mem_resourcesReports h hended hi entry).mp hin
  obtain ⟨r, -, rfl⟩ := Option.map_eq_some_iff.mp hat'
  exact ⟨j, hat, rfl⟩

theorem sandbox_passes_iff (hi : i < conf.sandboxes.length) :
    (conf.resourceReports texts s i ≠ [] ∧
      ∀ report ∈ conf.resourceReports texts s i, report.isSuccess = true) ↔
    (∃ j, conf.testsAt i j) ∧ ∀ j, conf.testsAt i j → suiteResult i j acts = true := by
  have hreport {j : Nat} (hat : conf.testsAt i j) :
      ∃ report ∈ conf.resourceReports texts s i, report.isSuccess = suiteResult i j acts := by
    obtain ⟨r, c, hj, hr, htests⟩ := testsAt_iff.mp hat
    obtain ⟨report, hmem, -, heq⟩ := tested_reported h hended texts hj hr htests
    exact ⟨report, hmem, heq⟩
  constructor
  · rintro ⟨hne, hall⟩
    obtain ⟨report, hmem⟩ := List.exists_mem_of_ne_nil _ hne
    obtain ⟨j, hat, -⟩ := reported_tested h hended texts hi hmem
    refine ⟨⟨j, hat⟩, fun j' hat' => ?_⟩
    obtain ⟨report', hmem', heq⟩ := hreport hat'
    rw [← heq]
    exact hall report' hmem'
  · rintro ⟨⟨j, hat⟩, hall⟩
    obtain ⟨report, hmem, -⟩ := hreport hat
    refine ⟨List.ne_nil_of_mem hmem, fun report' hmem' => ?_⟩
    obtain ⟨j', hat', heq⟩ := reported_tested h hended texts hi hmem'
    rw [heq]
    exact hall j' hat'

theorem reporting_isSuccess_iff :
    (s.reporting conf texts).isSuccess = true ↔ AllPassed conf acts := by
  rw [ReportResult.reporting_isSuccess_iff]
  constructor
  · intro hall i hi
    have hsandbox := hall _ (mem_sandboxesReports h hended texts (List.getElem?_eq_getElem hi))
    refine (sandbox_passes_iff h hended texts hi).mp ⟨?_, hsandbox.1.resources⟩
    simpa [ReportResult.SandboxReport.Tested] using hsandbox.2
  · intro hall report hreport
    obtain ⟨i, -, hmap⟩ := List.mem_filterMap.mp hreport
    obtain ⟨c, hc, rfl⟩ := Option.map_eq_some_iff.mp hmap
    have hi : i < conf.sandboxes.length := (List.getElem?_eq_some_iff.mp hc).1
    obtain ⟨hne, hpass⟩ := (sandbox_passes_iff h hended texts hi).mpr (hall i hi)
    exact ⟨⟨rfl, hpass, by simp⟩, .inl hne⟩

/-- The verdict that is logged and returned is that of the tests of all threads,
and each resource that was tested stands in the text with the result of its suite. -/
theorem verdict_of_run :
    ((ReportResult.runTests (s.reporting conf texts)).2.1 = true ↔ AllPassed conf acts) ∧
      ("\n\nTest results:\nTests was successful".toList <+:
        (ReportResult.runTests (s.reporting conf texts)).1.toList ↔ AllPassed conf acts) ∧
      ∀ i j r c, (conf.resourcesOf i)[j]? = some r → conf.handlers[r]? = some c →
        c.runTests = true → ∃ report : ReportResult.ResourceReport,
          report.name = c.name ∧ report.isSuccess = suiteResult i j acts ∧
            report.str.toList <:+: (ReportResult.runTests (s.reporting conf texts)).1.toList := by
  have hverdict := reporting_isSuccess_iff h hended texts
  refine ⟨hverdict, ?_, fun i j r c hj hr htests => ?_⟩
  · rw [← hverdict, ← ReportResult.printsSuccess_iff]
    simp only [ReportResult.runTests, ReportResult.Reporting.PrintsSuccess, String.toList_append]
    exact List.prefix_append_right_inj "\n\nTest results:\n".toList
  · obtain ⟨report, hreport, hname, hok⟩ := tested_reported h hended texts hj hr htests
    have hi : i < conf.sandboxes.length :=
      lt_of_testsAt (testsAt_iff.mpr ⟨r, c, hj, hr, htests⟩)
    have hsandbox := mem_sandboxesReports h hended texts (List.getElem?_eq_getElem hi)
    exact ⟨report, hname, hok, report_printed hsandbox hreport⟩

end

def oneSandbox : List Act :=
  List.replicate 8 (.sandbox 0 (.ok ())) ++ oneTest 0 true ++
    List.replicate 2 (.sandbox 0 (.ok ())) ++ List.replicate 3 .main

theorem verdict_of_run_one :
    let conf : Conf := ⟨[{ name := "a", resourceNames := ["R"] }],
      [{ name := "R", shellName := "shell" }]⟩
    ∃ s, run (step conf) {} oneSandbox = some s ∧ s.main = .ended (.ok ()) ∧
      (ReportResult.runTests (s.reporting conf ⟨fun _ => "CS_Router", fun _ _ => "OK"⟩)).2.1 =
        true := by
  intro conf
  have hends : (run (step conf) {} oneSandbox).map (·.main) = some (.ended (.ok ())) := by
    decide +kernel
  obtain ⟨s, hrun, hended⟩ := Option.map_eq_some_iff.mp hends
  refine ⟨s, hrun, hended, (verdict_of_run hrun hended _).1.mpr fun i hi => ?_⟩
  obtain rfl : i = 0 := by simpa [conf] using hi
  refine ⟨⟨0, by decide +kernel⟩, fun j _ => ?_⟩
  simp [suiteResult, oneSandbox, oneTest, Act.fails]

end RunTests

end ShellTests
