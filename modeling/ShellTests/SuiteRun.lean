import Mathlib.Data.List.Nodup
import ShellTests.BrokenDependencies
import ShellTests.Lib.Attempts
import ShellTests.TestSuites

/-!
# Running the suite of a resource

`run_test_suite` on the tests of one resource: what `base.py` puts around the
method of a test, the failures that the config expects, and the verdict. The
methods are any programs on the resource handler.
-/

namespace ShellTests.BrokenDependencies

open Prog

structure Test where
  className : String
  methodName : String
  -- a `BaseControllerTestCase` with `RUN_AUTOLOAD_FOR_RELATED_RESOURCE`
  autoloadsRelated : Bool
  method : Handler Unit

/-- The key of the test in `expected_failures`. -/
def Test.testName (t : Test) : String := t.className ++ "." ++ t.methodName

/-- `setUp`: a `ResourceHandler` has no such attribute. -/
def Test.setUp (t : Test) : Handler Unit :=
  if t.autoloadsRelated then
    throw (.exn (.attribute
      "'ResourceHandler' object has no attribute 'related_resource_handler'"))
  else pure ()

/-- `str(e)` -/
def raisedStr : Raised → String
  | .dependenciesBroken => ""
  | .exn e => e.str

/-- The `Exception` that a `with` block is left with, if any. -/
def caught (func : Handler Unit) : Handler (Option Raised) :=
  tryCatch (do func; pure none) fun e => if e.isException then pure (some e) else throw e

section
-- `re.search(pattern, text)`, of which only its answers matter
variable (search : String → String → Bool)

/-- `with self.assertRaisesRegex(Exception, expected_message): func()` -/
def expectFailure (expectedMessage : String) (func : Handler Unit) : Handler Unit := do
  match ← caught func with
  | none => throw (.exn (.assertion "Exception not raised"))
  | some e =>
    if search expectedMessage (raisedStr e) then pure ()
    else throw (.exn (.assertion (expectedMessage ++ " does not match " ++ raisedStr e)))

variable (expectedFailures : List (String × String))

/-- The message that the config gives for the test; an empty one counts for nothing. -/
def Test.reason (t : Test) : Option String :=
  (expectedFailures.lookup t.testName).filter (· ≠ "")

/-- The method as `_add_decorator_for_expect_failed_func` leaves it. -/
def Test.decorated (t : Test) : Handler Unit :=
  match t.reason expectedFailures with
  | some reason => expectFailure search reason t.method
  | none => t.method

variable (api : Api)

/-- `setUp`, and `BaseResourceServiceTestCase._callTestMethod` -/
def Test.run (t : Test) : Handler Unit := do
  t.setUp
  callTestMethod api
  t.decorated search expectedFailures

/-- `run_test_suite`: whether it was successful. -/
def runTestSuite (suite : List Test) : Handler Bool :=
  attempts (fun e => !e.isException) (suite.map (Test.run search expectedFailures api))

end

/-- An outcome of the method that makes the test pass: it ends well, or it
raises what the config says. -/
def Meets (search : String → String → Bool) : Option String → Except Raised Unit → Prop
  | none, r => r = .ok ()
  | some reason, r => ∃ e, r = .error e ∧ e.isException = true ∧ search reason (raisedStr e) = true

/-- The tests pass one after the other: each is set up, finds the dependencies
and the flag as they should be, and its method comes to what is expected of it. -/
inductive Passes (search : String → String → Bool) (expectedFailures : List (String × String))
    (api : Api) : List Test → ResourceHandler → List Event → ResourceHandler → List Event → Prop
  | nil : Passes search expectedFailures api [] s log s log
  | cons (hsetup : t.autoloadsRelated = false) (hdeps : s.dependenciesAreBroken = false)
      (hstop : api.stopFlag log = false)
      (hmethod : t.method s (log ++ [.bodyStarted]) = (r, s₁, log₁))
      (hmeets : Meets search (t.reason expectedFailures) r) :
      Passes search expectedFailures api ts s₁ log₁ s' log' →
      Passes search expectedFailures api (t :: ts) s log s' log'

-- ---------------------------------------------------------------------------
-- One test
-- ---------------------------------------------------------------------------

section
variable {search : String → String → Bool} {expectedFailures : List (String × String)} {api : Api}
  {t : Test} {s s' : ResourceHandler} {log log' : List Event}

theorem caught_ok {func : Handler Unit} (h : func s log = (.ok (), s', log')) :
    caught func s log = (.ok none, s', log') := by
  unfold caught
  rw [run_tryCatch, run_bind_ok h]
  rfl

theorem caught_error {func : Handler Unit} (h : func s log = (.error e, s', log')) :
    caught func s log = (if e.isException then .ok (some e) else .error e, s', log') := by
  unfold caught
  rw [run_tryCatch, run_bind_error h]
  cases he : e.isException <;> simp [he]

variable (search) in
/-- The wrapped method ends where the method does; it passes what is no
`Exception` on. -/
theorem expectFailure_run {func : Handler Unit} (h : func s log = (r, s', log')) :
    ∃ r', expectFailure search reason func s log = (r', s', log') ∧
      (r' = .ok () ↔ Meets search (some reason) r) ∧
      ∀ e, r' = .error e → e.isException = false → r = .error e := by
  have hfailed (msg : String) : ∀ e : Raised,
      (.error (.exn (.assertion msg)) : Except Raised Unit) = .error e →
        e.isException = false → r = .error e := by
    rintro e he hex
    obtain rfl := Except.error.inj he
    simp [Raised.isException, Exn.isException] at hex
  unfold expectFailure
  cases r with
  | ok _ =>
    refine ⟨_, run_bind_ok (caught_ok h), ?_, hfailed _⟩
    simp [Meets]
  | error e =>
    have hc := caught_error h
    cases hex : e.isException with
    | false =>
      rw [hex] at hc
      refine ⟨.error e, run_bind_error hc, ?_, fun e' he' _ => he'⟩
      simp [Meets, hex]
    | true =>
      rw [hex] at hc
      rw [run_bind_ok (a := some e) hc]
      cases hs : search reason (raisedStr e) with
      | true =>
        refine ⟨.ok (), by simp [hs], ?_, nofun⟩
        simp [Meets, hex, hs]
      | false =>
        refine ⟨_, by simp only [hs]; rfl, ?_, hfailed _⟩
        simp [Meets, hs]

variable (search expectedFailures) in
theorem decorated_run (h : t.method s log = (r, s', log')) :
    ∃ r', t.decorated search expectedFailures s log = (r', s', log') ∧
      (r' = .ok () ↔ Meets search (t.reason expectedFailures) r) ∧
      ∀ e, r' = .error e → e.isException = false → r = .error e := by
  unfold Test.decorated
  cases t.reason expectedFailures with
  | none => exact ⟨r, h, .rfl, fun _ he _ => he⟩
  | some reason => exact expectFailure_run search h

theorem callTestMethod_run (hs : s.dependenciesAreBroken = false) :
    callTestMethod api s log = startBody api s log := by
  unfold callTestMethod
  rw [run_bind_ok (run_get s log)]
  simp [hs]

theorem run_setUp (ht : t.autoloadsRelated = false) (s : ResourceHandler) (log : List Event) :
    t.run search expectedFailures api s log =
      (do callTestMethod api; t.decorated search expectedFailures : Handler Unit) s log := by
  refine run_bind_ok (a := ()) ?_
  unfold Test.setUp
  rw [if_neg (by simp [ht]), run_pure]

theorem run_related (ht : t.autoloadsRelated = true) (s : ResourceHandler) (log : List Event) :
    ∃ e, t.run search expectedFailures api s log = (.error e, s, log) ∧ e.isException = true := by
  refine ⟨.exn (.attribute "'ResourceHandler' object has no attribute 'related_resource_handler'"),
    run_bind_error ?_, rfl⟩
  unfold Test.setUp
  rw [if_pos ht, run_throw]

theorem run_broken (hs : s.dependenciesAreBroken = true) (t : Test) (log : List Event) :
    ∃ e, t.run search expectedFailures api s log = (.error e, s, log) ∧ e.isException = true := by
  cases ht : t.autoloadsRelated with
  | true => exact run_related ht s log
  | false =>
    refine ⟨.exn (.assertion "Dependencies are broken"), ?_, rfl⟩
    rw [run_setUp ht]
    refine run_bind_error ?_
    unfold callTestMethod
    rw [run_bind_ok (run_get s log)]
    simp [hs]

theorem run_stopped (ht : t.autoloadsRelated = false) (hs : s.dependenciesAreBroken = false)
    (hlog : api.stopFlag log = true) :
    t.run search expectedFailures api s log = (.error (.exn .keyboardInterrupt), s, log) := by
  rw [run_setUp ht]
  refine run_bind_error ?_
  rw [callTestMethod_run hs]
  simp [startBody, hlog]

theorem run_started (ht : t.autoloadsRelated = false) (hs : s.dependenciesAreBroken = false)
    (hlog : api.stopFlag log = false) :
    t.run search expectedFailures api s log =
      t.decorated search expectedFailures s (log ++ [.bodyStarted]) := by
  rw [run_setUp ht]
  refine run_bind_ok (a := ()) ?_
  rw [callTestMethod_run hs]
  simp [startBody, hlog]

theorem test_passes_iff : t.run search expectedFailures api s log = (.ok (), s', log') ↔
    t.autoloadsRelated = false ∧ s.dependenciesAreBroken = false ∧ api.stopFlag log = false ∧
      ∃ r, t.method s (log ++ [.bodyStarted]) = (r, s', log') ∧
        Meets search (t.reason expectedFailures) r := by
  have hfails (h : ∃ e, t.run search expectedFailures api s log = (.error e, s, log) ∧
      e.isException = true) : t.run search expectedFailures api s log ≠ (.ok (), s', log') := by
    obtain ⟨e, he, -⟩ := h
    simp [he]
  cases ht : t.autoloadsRelated with
  | true => simp [hfails (run_related ht s log)]
  | false =>
    cases hs : s.dependenciesAreBroken with
    | true => simp [hfails (run_broken hs t log)]
    | false =>
      cases hlog : api.stopFlag log with
      | true => simp [run_stopped ht hs hlog]
      | false =>
        rw [run_started ht hs hlog]
        rcases hm : t.method s (log ++ [.bodyStarted]) with ⟨r, s₁, log₁⟩
        obtain ⟨r', hrun, hok, -⟩ := decorated_run search expectedFailures hm
        rw [hrun]
        simp only [Prod.mk.injEq, true_and]
        constructor
        · rintro ⟨rfl, rfl, rfl⟩
          exact ⟨r, hm, hok.mp rfl⟩
        · rintro ⟨r₀, h, hmeets⟩
          obtain ⟨rfl, rfl, rfl⟩ : r = r₀ ∧ s₁ = s' ∧ log₁ = log' := by
            simpa only [Prod.mk.injEq] using hm.symm.trans h
          exact ⟨hok.mpr hmeets, rfl, rfl⟩

theorem successful_iff_passes (suite : List Test) :
    runTestSuite search expectedFailures api suite s log = (.ok true, s', log') ↔
      Passes search expectedFailures api suite s log s' log' := by
  induction suite generalizing s log with
  | nil =>
    constructor
    · intro h
      obtain ⟨-, rfl, rfl⟩ := Prod.mk.inj h |>.imp id Prod.mk.inj
      exact .nil
    · rintro ⟨⟩
      rfl
  | cons t ts ih =>
    refine attempts_cons_true.trans ⟨?_, ?_⟩
    · rintro ⟨s₁, log₁, ht, hts⟩
      obtain ⟨hsetup, hdeps, hstop, r, hm, hr⟩ := test_passes_iff.mp ht
      exact .cons hsetup hdeps hstop hm hr (ih.mp hts)
    · rintro (_ | ⟨hsetup, hdeps, hstop, hm, hr, hts⟩)
      exact ⟨_, _, test_passes_iff.mpr ⟨hsetup, hdeps, hstop, _, hm, hr⟩, ih.mpr hts⟩

-- ---------------------------------------------------------------------------
-- The rest of a suite
-- ---------------------------------------------------------------------------

theorem suite_fails (suite : List Test)
    (h : ∀ t ∈ suite, ∃ e, t.run search expectedFailures api s log = (.error e, s, log) ∧
      e.isException = true) :
    runTestSuite search expectedFailures api suite s log = (.ok suite.isEmpty, s, log) := by
  induction suite with
  | nil => rfl
  | cons t ts ih =>
    obtain ⟨e, hrun, he⟩ := h t (by simp)
    have hattempt := attempt_error (fun e : Raised => !e.isException) hrun
    rw [he] at hattempt
    exact attempts_cons hattempt (ih fun t ht => h t (by simp [ht]))

theorem runTestSuite_append
    (h : runTestSuite search expectedFailures api pre s log = (.ok b, s₁, log₁))
    (h' : runTestSuite search expectedFailures api post s₁ log₁ = (r, s', log')) :
    runTestSuite search expectedFailures api (pre ++ post) s log =
      (r.map (b && ·), s', log') := by
  unfold runTestSuite
  rw [List.map_append]
  exact attempts_append h h'

/-- A flag that is set ends the run at the first test that is set up. -/
theorem suite_interrupted (hs : s.dependenciesAreBroken = false) (hlog : api.stopFlag log = true)
    (suite : List Test) :
    runTestSuite search expectedFailures api suite s log =
      (if suite.all Test.autoloadsRelated then .ok suite.isEmpty
        else .error (.exn .keyboardInterrupt), s, log) := by
  induction suite with
  | nil => rfl
  | cons t ts ih =>
    cases ht : t.autoloadsRelated with
    | true =>
      have hfails : ∃ e, t.run search expectedFailures api s log = (.error e, s, log) ∧
          e.isException = true := run_related ht s log
      obtain ⟨e, hrun, he⟩ := hfails
      have hattempt := attempt_error (fun e : Raised => !e.isException) hrun
      rw [he] at hattempt
      refine (attempts_cons hattempt ih).trans ?_
      cases hall : ts.all Test.autoloadsRelated <;> simp [hall, ht, Except.map]
    | false =>
      refine (attempts_cons_error (attempt_error _ (run_stopped ht hs hlog))).trans ?_
      simp [ht]

/-- What is left of a suite once its first tests have run. With the dependencies
broken the others fail with no call and no body, whatever the flag and the
expected failures say; else a flag that is set ends the run at the next test
that is set up. -/
theorem rest_of_suite
    (h : runTestSuite search expectedFailures api pre s log = (.ok b, s₁, log₁))
    (post : List Test) :
    (s₁.dependenciesAreBroken = true →
      runTestSuite search expectedFailures api (pre ++ post) s log =
        (.ok (b && post.isEmpty), s₁, log₁)) ∧
    (s₁.dependenciesAreBroken = false → api.stopFlag log₁ = true →
      runTestSuite search expectedFailures api (pre ++ post) s log =
        (if post.all Test.autoloadsRelated then .ok (b && post.isEmpty)
          else .error (.exn .keyboardInterrupt), s₁, log₁)) := by
  refine ⟨fun hs => ?_, fun hs hlog => ?_⟩
  · exact runTestSuite_append h (suite_fails post fun t _ => run_broken hs t log₁)
  · refine (runTestSuite_append h (suite_interrupted hs hlog post)).trans ?_
    cases post.all Test.autoloadsRelated <;> simp [Except.map]

def commandTest (api : Api) (className methodName command : String) : Test where
  className := className
  methodName := methodName
  autoloadsRelated := false
  method := do
    let _ ← executeCommand api command []

def saveTest (api : Api) : Test :=
  commandTest api "TestSaveConfig" "test_save_running_config" "save"

def customTest (api : Api) : Test :=
  commandTest api "TestRunCustomCommand" "test_run_custom_command" "run_custom_command"

/-- The PyPi server is down for `save`; the flag is set once `flagAfter` calls are made. -/
def pypiDownForSave (flagAfter : Nat) : Api where
  autoLoad _ := .ok ()
  updateResourceDriver _ := .ok ()
  addAdditionalPorts _ := .ok ()
  setChildrenAttributes _ := .ok ()
  executeCommand _ name _ :=
    if name = "save" then .error (.cloudShellApi "100" pypiIsDown) else .ok "done"
  stopFlag log := decide (flagAfter ≤ log.length)

theorem rest_of_suite_pypi :
    runTestSuite (fun _ _ => false) [] (pypiDownForSave 9)
        ([saveTest (pypiDownForSave 9)] ++ [customTest (pypiDownForSave 9)]) {} [] =
      (.ok false, { dependenciesAreBroken := true },
        [.bodyStarted, .executeCommand "save" [] (.error (.cloudShellApi "100" pypiIsDown))]) := by
  have hsave : runTestSuite (fun _ _ => false) [] (pypiDownForSave 9)
      [saveTest (pypiDownForSave 9)] {} [] =
      (.ok false, { dependenciesAreBroken := true },
        [.bodyStarted, .executeCommand "save" [] (.error (.cloudShellApi "100" pypiIsDown))]) := rfl
  exact (rest_of_suite hsave _).1 rfl

-- ---------------------------------------------------------------------------
-- The stop flag
-- ---------------------------------------------------------------------------

def Event.NotBody : Event → Prop
  | .bodyStarted => False
  | _ => True

/-- The run has gone on from `log₀`, and each body started since did so while
the flag was not set. -/
structure StartsUnstopped (api : Api) (log₀ log : List Event) : Prop where
  goesOn : ∃ evs, log = log₀ ++ evs
  unstopped : ∀ as bs, log = log₀ ++ (as ++ .bodyStarted :: bs) → api.stopFlag (log₀ ++ as) = false

theorem StartsUnstopped.refl (log : List Event) : StartsUnstopped api log log where
  goesOn := ⟨[], by simp⟩
  unstopped as bs heq := by simp at heq

theorem StartsUnstopped.append (h : StartsUnstopped api log₀ log)
    (hevs : ∀ e ∈ evs, e.NotBody) : StartsUnstopped api log₀ (log ++ evs) := by
  obtain ⟨⟨before, rfl⟩, hbefore⟩ := h
  refine ⟨⟨before ++ evs, by simp⟩, fun as bs heq => ?_⟩
  rw [List.append_assoc, List.append_cancel_left_eq] at heq
  obtain ⟨cs, rfl, hcs⟩ | ⟨cs, rfl, hcs⟩ := List.append_eq_append_iff.mp heq
  · exact absurd (hevs .bodyStarted (by simp [hcs])) id
  · cases cs with
    | nil =>
      rw [List.nil_append] at hcs
      exact absurd (hevs .bodyStarted (by simp [← hcs])) id
    | cons c cs =>
      obtain ⟨rfl, rfl⟩ := List.cons.inj hcs
      exact hbefore as cs rfl

theorem StartsUnstopped.start (h : StartsUnstopped api log₀ log)
    (hstop : api.stopFlag log = false) : StartsUnstopped api log₀ (log ++ [.bodyStarted]) := by
  obtain ⟨⟨before, rfl⟩, hbefore⟩ := h
  refine ⟨⟨before ++ [.bodyStarted], by simp⟩, fun as bs heq => ?_⟩
  rw [List.append_assoc, List.append_cancel_left_eq] at heq
  obtain ⟨cs, rfl, hcs⟩ | ⟨cs, rfl, hcs⟩ := List.append_eq_append_iff.mp heq
  · cases cs with
    | nil => simpa using hstop
    | cons c cs => simp at hcs
  · cases cs with
    | nil => simpa using hstop
    | cons c cs =>
      obtain ⟨rfl, rfl⟩ := List.cons.inj hcs
      exact hbefore as cs rfl

theorem test_startsUnstopped (ht : Logs Event.NotBody t.method) (log₀ : List Event) :
    Hoare (fun _ log => StartsUnstopped api log₀ log) (t.run search expectedFailures api)
      fun _ _ log => StartsUnstopped api log₀ log := by
  intro s log hp
  have hfails (h : ∃ e, t.run search expectedFailures api s log = (.error e, s, log) ∧
      e.isException = true) : ∃ r s' evs, t.run search expectedFailures api s log =
        (r, s', log ++ evs) ∧ StartsUnstopped api log₀ (log ++ evs) := by
    obtain ⟨e, he, -⟩ := h
    exact ⟨_, s, [], by simpa using he, by simpa using hp⟩
  cases hsetup : t.autoloadsRelated with
  | true => exact hfails (run_related hsetup s log)
  | false =>
    cases hs : s.dependenciesAreBroken with
    | true => exact hfails (run_broken hs t log)
    | false =>
      cases hstop : api.stopFlag log with
      | true =>
        exact ⟨_, s, [], by simpa using run_stopped hsetup hs hstop, by simpa using hp⟩
      | false =>
        obtain ⟨r, s', evs, hm, hevs⟩ := ht s (log ++ [.bodyStarted])
        obtain ⟨r', hrun, -⟩ := decorated_run search expectedFailures hm
        refine ⟨r', s', .bodyStarted :: evs, ?_, ?_⟩
        · rw [run_started hsetup hs hstop, hrun, List.append_assoc]
          rfl
        · simpa using (hp.start hstop).append hevs

variable (search expectedFailures api) in
/-- However the tests end, no body starts once the flag is set, and only what is
no `Exception` leaves the run. -/
theorem suite_stops (hsuite : ∀ t ∈ suite, Logs Event.NotBody t.method) (s : ResourceHandler)
    (log : List Event) :
    ∃ r s' evs, runTestSuite search expectedFailures api suite s log = (r, s', log ++ evs) ∧
      (∀ as bs, evs = as ++ .bodyStarted :: bs → api.stopFlag (log ++ as) = false) ∧
      ∀ e, r = .error e → e.isException = false := by
  have hkeeps : Hoare (fun _ log' => StartsUnstopped api log log')
      (runTestSuite search expectedFailures api suite)
      fun _ _ log' => StartsUnstopped api log log' := by
    refine attempts_hoare fun m hm => ?_
    obtain ⟨t, ht, rfl⟩ := List.mem_map.mp hm
    exact test_startsUnstopped (hsuite t ht) log
  obtain ⟨r, s', evs, hrun, hstarts⟩ := hkeeps s log (.refl log)
  refine ⟨r, s', evs, hrun, fun as bs hevs => hstarts.unstopped as bs (by rw [hevs]), ?_⟩
  rintro e rfl
  simpa using fatal_of_attempts hrun

theorem executeCommand_notBody (api : Api) (name : String) (kwargs : List (String × String)) :
    Logs Event.NotBody (executeCommand api name kwargs) := by
  have hask : Logs Event.NotBody (executeCommandOnResource api name kwargs) := by
    refine .tryCatch' (fun s log => ⟨_, s, _, rfl, by simp [Event.NotBody]⟩) fun e => ?_
    split
    · split
      · exact .throw' _
      · exact .throw' _
    · exact .throw' _
  refine .tryCatch' (.bind .get' fun h => ?_) fun e => ?_
  · split
    · exact hask
    · exact .throw' _
  · split
    · exact .bind (.modify' _) fun _ => .throw' _
    · exact .throw' _

theorem suite_stops_custom : ∃ s' evs,
    runTestSuite (fun _ _ => false) [] (pypiDownForSave 1)
        [customTest (pypiDownForSave 1), saveTest (pypiDownForSave 1)] {} [] =
      (.error (.exn .keyboardInterrupt), s', evs) ∧
      ∀ as bs, evs = as ++ .bodyStarted :: bs → (pypiDownForSave 1).stopFlag as = false := by
  have hsuite : ∀ t ∈ [customTest (pypiDownForSave 1), saveTest (pypiDownForSave 1)],
      Logs Event.NotBody t.method := by
    simp only [List.forall_mem_cons, List.not_mem_nil, false_implies, implies_true, and_true]
    exact ⟨.bind (executeCommand_notBody _ _ _) fun _ => .pure' _,
      .bind (executeCommand_notBody _ _ _) fun _ => .pure' _⟩
  obtain ⟨r, s', evs, hrun, hstarts, -⟩ := suite_stops (fun _ _ => false) []
    (pypiDownForSave 1) hsuite {} []
  obtain rfl : r = .error (.exn .keyboardInterrupt) := (congrArg Prod.fst hrun).symm
  exact ⟨s', evs, hrun, hstarts⟩

end

-- ---------------------------------------------------------------------------
-- get_test_suite
-- ---------------------------------------------------------------------------

end ShellTests.BrokenDependencies

namespace ShellTests.TestCase

def all : List TestCase :=
  [testAutoloadNetworkDevices, testAutoloadShellFromTemplate, testAutoloadTrafficGeneratorDevices,
    testAutoloadVirtualTrafficGeneratorDevices, testAutoloadWithoutDevice, testAutoloadWithoutPorts,
    testConnectivity, testRestoreConfig, testRestoreConfigFromScp, testRestoreConfigFromTftp,
    testRestoreConfigFromTemplate, testRestoreConfigWithoutDevice, testRunCustomCommand,
    testRunCustomCommandShellFromTemplate, testRunCustomCommandWithoutDevice, testSaveConfig,
    testSaveConfigFromScp, testSaveConfigFromTftp, testSaveConfigFromTemplate,
    testSaveConfigWithoutDevice, testGetStatistics, testGetStatisticsWithoutDevice, testGetTestFile,
    testGetTestFileWithoutDevice, testLoadConfig, testLoadConfigWithoutDevice, testStartTraffic,
    testStartTrafficWithoutDevice, testStopTraffic, testStopTrafficWithoutDevice]

theorem mem_all (tc : TestCase) : tc ∈ all := by
  cases tc <;> simp [all]

/-- `type(self).__name__` -/
def className : TestCase → String
  | testAutoloadNetworkDevices => "TestAutoloadNetworkDevices"
  | testAutoloadShellFromTemplate => "TestAutoloadShellFromTemplate"
  | testAutoloadTrafficGeneratorDevices => "TestAutoloadTrafficGeneratorDevices"
  | testAutoloadVirtualTrafficGeneratorDevices => "TestAutoloadVirtualTrafficGeneratorDevices"
  | testAutoloadWithoutDevice => "TestAutoloadWithoutDevice"
  | testAutoloadWithoutPorts => "TestAutoloadWithoutPorts"
  | testConnectivity => "TestConnectivity"
  | testRestoreConfig => "TestRestoreConfig"
  | testRestoreConfigFromScp => "TestRestoreConfigFromScp"
  | testRestoreConfigFromTftp => "TestRestoreConfigFromTftp"
  | testRestoreConfigFromTemplate => "TestRestoreConfigFromTemplate"
  | testRestoreConfigWithoutDevice => "TestRestoreConfigWithoutDevice"
  | testRunCustomCommand => "TestRunCustomCommand"
  | testRunCustomCommandShellFromTemplate => "TestRunCustomCommandShellFromTemplate"
  | testRunCustomCommandWithoutDevice => "TestRunCustomCommandWithoutDevice"
  | testSaveConfig => "TestSaveConfig"
  | testSaveConfigFromScp => "TestSaveConfigFromScp"
  | testSaveConfigFromTftp => "TestSaveConfigFromTftp"
  | testSaveConfigFromTemplate => "TestSaveConfigFromTemplate"
  | testSaveConfigWithoutDevice => "TestSaveConfigWithoutDevice"
  | testGetStatistics => "TestGetStatistics"
  | testGetStatisticsWithoutDevice => "TestGetStatisticsWithoutDevice"
  | testGetTestFile => "TestGetTestFile"
  | testGetTestFileWithoutDevice => "TestGetTestFileWithoutDevice"
  | testLoadConfig => "TestLoadConfig"
  | testLoadConfigWithoutDevice => "TestLoadConfigWithoutDevice"
  | testStartTraffic => "TestStartTraffic"
  | testStartTrafficWithoutDevice => "TestStartTrafficWithoutDevice"
  | testStopTraffic => "TestStopTraffic"
  | testStopTrafficWithoutDevice => "TestStopTrafficWithoutDevice"

/-- `RUN_AUTOLOAD_FOR_RELATED_RESOURCE` of the classes that have it. -/
def autoloadsRelated : TestCase → Bool
  | testLoadConfig | testStartTraffic | testStopTraffic | testGetStatistics
  | testGetTestFile => true
  | _ => false

def restoreTestNames : List String :=
  ["test_orchestration_restore", "test_restore_running_config_append",
    "test_restore_running_config_override", "test_restore_startup_config_append",
    "test_restore_startup_config_override"]

def saveTestNames : List String :=
  ["test_orchestration_save_deep", "test_orchestration_save_shallow", "test_save_running_config",
    "test_save_startup_config"]

/-- `TestLoader().getTestCaseNames(test_case)`: the inherited names with the
class's own, sorted. -/
def testNames : TestCase → List String
  | testAutoloadNetworkDevices | testAutoloadTrafficGeneratorDevices
  | testAutoloadVirtualTrafficGeneratorDevices | testAutoloadWithoutDevice => ["test_structure"]
  | testAutoloadShellFromTemplate => ["test_execute_without_error"]
  | testAutoloadWithoutPorts => ["test_autoload"]
  | testConnectivity => ["test_connectivity"]
  | testRestoreConfig | testRestoreConfigFromScp | testRestoreConfigFromTftp
  | testRestoreConfigWithoutDevice => restoreTestNames
  | testRestoreConfigFromTemplate =>
    ["test_orchestration_restore", "test_restore_running_config_append"]
  | testRunCustomCommand | testRunCustomCommandShellFromTemplate
  | testRunCustomCommandWithoutDevice =>
    ["test_run_custom_command", "test_run_custom_config_command"]
  | testSaveConfig | testSaveConfigFromScp | testSaveConfigFromTftp
  | testSaveConfigWithoutDevice => saveTestNames
  | testSaveConfigFromTemplate =>
    ["test_orchestration_save_deep", "test_orchestration_save_shallow", "test_save_running_config"]
  | testGetStatistics | testGetStatisticsWithoutDevice => ["test_get_statistics"]
  | testGetTestFile | testGetTestFileWithoutDevice => ["test_get_test_file"]
  | testLoadConfig | testLoadConfigWithoutDevice => ["test_load_config"]
  | testStartTraffic | testStartTrafficWithoutDevice => ["test_start_traffic"]
  | testStopTraffic | testStopTrafficWithoutDevice => ["test_stop_traffic"]

def keys (tc : TestCase) : List String := tc.testNames.map (tc.className ++ "." ++ ·)

theorem keys_nodup (tc : TestCase) : tc.keys.Nodup := by
  have hall : ∀ tc ∈ all, tc.keys.Nodup := by decide +kernel
  exact hall tc (mem_all tc)

theorem keys_disjoint {tc tc' : TestCase} (h : tc ≠ tc') : tc.keys.Disjoint tc'.keys := by
  have hall : ∀ tc ∈ all, ∀ tc' ∈ all, tc ≠ tc' → ∀ key ∈ tc.keys, key ∉ tc'.keys := by
    decide +kernel
  exact fun key => hall tc (mem_all tc) tc' (mem_all tc') h key

end ShellTests.TestCase

namespace ShellTests.BrokenDependencies

open Prog
open ReportResult (DeviceType)

section
variable (methods : TestCase → String → Handler Unit)

def instances (tc : TestCase) : List Test :=
  tc.testNames.map fun name => ⟨tc.className, name, tc.autoloadsRelated, methods tc name⟩

variable (conf : ServersConfig) (lower : String → String)

def getTestSuite (family : String) (deviceType : DeviceType) (commands : List String) :
    Option (List Test) := do
  let testCases ← selectTestCases conf lower family deviceType commands
  pure (testCases.flatMap (instances methods))

end

section
variable {methods : TestCase → String → Handler Unit} {conf : ServersConfig}
  {lower : String → String} {search : String → String → Bool}
  {expectedFailures : List (String × String)} {api : Api}

theorem selectTestCases_nodup
    (h : selectTestCases conf lower family deviceType commands = some testCases) :
    testCases.Nodup := by
  obtain ⟨casesMap, -, hselect⟩ := Option.bind_eq_some_iff.mp h
  obtain rfl := Option.some.inj hselect
  refine foldl_keeps (fun _ name hnodup => ?_) _ _ (nodup_initialTestCases family casesMap)
  exact (extends_addCommand ⟨hnodup, List.nil_prefix⟩ name).1

theorem instances_testName (tc : TestCase) :
    (instances methods tc).map Test.testName = tc.keys := by
  unfold instances TestCase.keys
  rw [List.map_map]
  rfl

theorem testName_nodup
    (h : getTestSuite methods conf lower family deviceType commands = some suite) :
    (suite.map Test.testName).Nodup := by
  obtain ⟨testCases, hselect, hsuite⟩ := Option.bind_eq_some_iff.mp h
  obtain rfl := Option.some.inj hsuite
  simp only [List.map_flatMap, instances_testName]
  refine List.nodup_flatMap.mpr ⟨fun tc _ => tc.keys_nodup, ?_⟩
  exact (selectTestCases_nodup hselect).imp TestCase.keys_disjoint

theorem run_of_testName_ne {t : Test} (h : t.testName ≠ key) (reason : String) :
    t.run search ((key, reason) :: expectedFailures) api = t.run search expectedFailures api := by
  have hreason : t.reason ((key, reason) :: expectedFailures) = t.reason expectedFailures := by
    unfold Test.reason
    rw [List.lookup_cons, beq_false_of_ne h]
  unfold Test.run Test.decorated
  rw [hreason]

theorem map_run_of_testName_ne {suite : List Test} (h : ∀ t ∈ suite, t.testName ≠ key)
    (reason : String) :
    suite.map (Test.run search ((key, reason) :: expectedFailures) api) =
      suite.map (Test.run search expectedFailures api) :=
  List.map_congr_left fun t ht => run_of_testName_ne (h t ht) reason

/-- An entry that is added to `expected_failures` concerns one test of a suite
at most: the others are run as without it. -/
theorem entry_concerns_one
    (h : getTestSuite methods conf lower family deviceType commands = some suite)
    (key reason : String) :
    (∀ t ∈ suite, t.testName ≠ key) ∧
        runTestSuite search ((key, reason) :: expectedFailures) api suite =
          runTestSuite search expectedFailures api suite ∨
      ∃ pre t post, suite = pre ++ t :: post ∧ t.testName = key ∧
        (∀ t' ∈ pre ++ post, t'.testName ≠ key) ∧
        runTestSuite search ((key, reason) :: expectedFailures) api suite =
          attempts (fun e => !e.isException)
            (pre.map (Test.run search expectedFailures api) ++
              t.run search ((key, reason) :: expectedFailures) api ::
                post.map (Test.run search expectedFailures api)) := by
  by_cases hkey : ∀ t ∈ suite, t.testName ≠ key
  · refine .inl ⟨hkey, ?_⟩
    unfold runTestSuite
    rw [map_run_of_testName_ne hkey]
  · push Not at hkey
    obtain ⟨t, ht, rfl⟩ := hkey
    obtain ⟨pre, post, rfl⟩ := List.append_of_mem ht
    have hnodup := testName_nodup h
    rw [List.map_append, List.map_cons, List.nodup_middle, List.nodup_cons,
      ← List.map_append] at hnodup
    have hothers : ∀ t' ∈ pre ++ post, t'.testName ≠ t.testName :=
      fun t' ht' heq => hnodup.1 (heq ▸ List.mem_map_of_mem ht')
    refine .inr ⟨pre, t, post, rfl, rfl, hothers, ?_⟩
    unfold runTestSuite
    rw [List.map_append, List.map_cons,
      map_run_of_testName_ne fun t' ht' => hothers t' (List.mem_append_left _ ht'),
      map_run_of_testName_ne fun t' ht' => hothers t' (List.mem_append_right _ ht')]

def saveSuite : Option (List Test) :=
  getTestSuite (fun _ _ => pure ()) { ftpConf := some ⟨⟨"10.0.0.1"⟩, none, none⟩ } lowerAscii
    "CS_Router" .realDevice ["Save"]

theorem entry_concerns_one_save :
    ∃ suite pre t post, saveSuite = some suite ∧
      suite = pre ++ t :: post ∧ t.testName = "TestSaveConfig.test_save_running_config" ∧
      runTestSuite (fun _ _ => false) [("TestSaveConfig.test_save_running_config", "Timeout")]
          (pypiDownForSave 9) suite =
        attempts (fun e => !e.isException)
          (pre.map (Test.run (fun _ _ => false) [] (pypiDownForSave 9)) ++
            t.run (fun _ _ => false) [("TestSaveConfig.test_save_running_config", "Timeout")]
              (pypiDownForSave 9) ::
              post.map (Test.run (fun _ _ => false) [] (pypiDownForSave 9))) := by
  have hnames : saveSuite.map (·.map Test.testName) =
      some ("TestAutoloadNetworkDevices.test_structure" :: TestCase.testSaveConfig.keys) := by
    decide +kernel
  obtain ⟨suite, hsuite, -⟩ := Option.map_eq_some_iff.mp hnames
  rw [hsuite, Option.map_some, Option.some.injEq] at hnames
  obtain ⟨hnone, -⟩ | ⟨pre, t, post, hsplit, hkey, -, hrun⟩ := entry_concerns_one hsuite
    "TestSaveConfig.test_save_running_config" "Timeout"
  · have hmem : "TestSaveConfig.test_save_running_config" ∈ suite.map Test.testName := by
      rw [hnames]
      decide +kernel
    obtain ⟨t, ht, heq⟩ := List.mem_map.mp hmem
    exact absurd heq (hnone t ht)
  · exact ⟨suite, pre, t, post, hsuite, hsplit, hkey, hrun⟩

end

end ShellTests.BrokenDependencies
