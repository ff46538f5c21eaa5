import Mathlib.Data.List.Nodup
import ShellTests.RunBinding
import ShellTests.RunOutcome

/-!
# The reports of a run

A resource thread appends its report to that of its sandbox, and a sandbox
thread the report of the sandbox to the `Reporting`. `Books` is what of the
state the reports depend on, and the invariant says for each sandbox whose
reports it holds so far, in the order in which they were appended.
-/

namespace ShellTests.RunTests

open Machine

/-- A test of the thread `j` of the sandbox `i` fails, or is not run at all. -/
def Act.fails (i j : Nat) : Act → Bool
  | .skipTest i' j' => i' == i && j' == j
  | .endTest i' j' ok => !ok && (i' == i && j' == j)
  | _ => false

/-- `wasSuccessful()` of the suite that the thread ran. -/
def suiteResult (i j : Nat) (acts : List Act) : Bool := !acts.any (Act.fails i j)

theorem suiteResult_append (i j : Nat) (acts : List Act) (act : Act) :
    suiteResult i j (acts ++ [act]) = (suiteResult i j acts && !act.fails i j) := by
  simp [suiteResult]

namespace Conf

variable (conf : Conf)

def testsAt (i j : Nat) : Bool := ((conf.resourcesOf i)[j]?.map conf.runTests).getD false

def reportAt (i : Nat) (acts : List Act) (j : Nat) : Option ResourceReport :=
  (conf.resourcesOf i)[j]?.map fun r => ⟨r, suiteResult i j acts⟩

/-- One report for each place of a resource with `run_tests`. -/
def expectedReports (i : Nat) (acts : List Act) : List ResourceReport :=
  ((List.range (conf.resourcesOf i).length).filter (conf.testsAt i)).filterMap
    (conf.reportAt i acts)

end Conf

/-- The `Reporting` has one report for each sandbox, and that has one for each
name of a resource with `run_tests`, with the result of its suite. -/
structure AllReported (conf : Conf) (acts : List Act) (s : State) : Prop where
  sandboxes : s.sandboxesReports.Perm (List.range conf.sandboxes.length)
  names : ∀ i, (conf.namesOf i).map conf.handlerNamed = (conf.resourcesOf i).map some
  resources : ∀ i, (s.resourcesReports i).Perm (conf.expectedReports i acts)

-- ---------------------------------------------------------------------------
-- The books
-- ---------------------------------------------------------------------------

structure Books where
  sandbox : Nat → SandboxPc
  resource : Nat → Nat → Option ResourcePc
  resourcesReports : Nat → List ResourceReport
  sandboxesReports : List Nat

def State.books (s : State) : Books :=
  ⟨s.sandbox, s.resource, s.resourcesReports, s.sandboxesReports⟩

namespace Books

variable (b : Books)

def setSandbox (i : Nat) (pc : SandboxPc) : Books :=
  { b with sandbox := Function.update b.sandbox i pc }

def setResource (i j : Nat) (pc : ResourcePc) : Books :=
  { b with resource := Function.update b.resource i (Function.update (b.resource i) j (some pc)) }

def addReport (i : Nat) (report : ResourceReport) : Books :=
  { b with
    resourcesReports :=
      Function.update b.resourcesReports i (b.resourcesReports i ++ [report]) }

def addSandboxReport (i : Nat) : Books := { b with sandboxesReports := b.sandboxesReports ++ [i] }

end Books

inductive Stage
  | before
  | testing (ok : Bool)
  | reported
  | skipped
  | returned
  | raised

def ResourcePc.stage : ResourcePc → Stage
  | .queued | .check | .setup _ | .checkAgain => .before
  | .suite => .testing true
  | .tests _ ok | .plain _ ok | .lock _ ok | .choose _ ok | .borrow _ ok _ | .body _ ok _
  | .giveBack _ ok _ | .ending _ ok | .report ok => .testing ok
  | .checkLast | .teardown _ => .reported
  | .autoload => .skipped
  | .done (.ok ()) => .returned
  | .done (.error _) => .raised

/-- The stages that follow one another without a report; `fails` says whether
the step fails a test. -/
inductive Advance (runTests fails : Bool) : Stage → Stage → Prop
  | before : fails = false → Advance runTests fails .before .before
  | testing : Advance runTests fails (.testing ok) (.testing (ok && !fails))
  | toTests : fails = false → runTests → Advance runTests fails .before (.testing true)
  | toAutoload : fails = false → ¬ runTests → Advance runTests fails .before .skipped
  | reported : fails = false → Advance runTests fails .reported .reported
  | returned : fails = false → stage = .reported ∨ stage = .skipped →
      Advance runTests fails stage .returned
  | raised : fails = false → stage ≠ .skipped → stage ≠ .returned →
      Advance runTests fails stage .raised

inductive SandboxMove (conf : Conf) (i : Nat) : SandboxPc → SandboxPc → Prop
  | start : i < conf.sandboxes.length → SandboxMove conf i .queued .check
  | check : SandboxMove conf i .check .tests
  | tests : SandboxMove conf i .tests .lookup
  | lookup : conf.unknownName i = none → SandboxMove conf i .lookup (.add 0)
  | add : SandboxMove conf i (.add j) (.add (j + 1))
  | allAdded : SandboxMove conf i (.add j) (.submit 0)
  | allSubmitted : SandboxMove conf i (.submit j) .wait
  | failed : pc = .check ∨ pc = .lookup ∨ (∃ j, pc = .add j) ∨ pc = .wait →
      SandboxMove conf i pc (.done (.error e))

inductive Books.Step (conf : Conf) (b : Books) : Act → Books → Prop
  | idle : (∀ i j, act.fails i j = false) → Step conf b act b
  | sandbox : (∀ i j, act.fails i j = false) → SandboxMove conf i (b.sandbox i) pc →
      Step conf b act (b.setSandbox i pc)
  | submit : b.sandbox i = .submit j → b.resource i j = none →
      Step conf b (.sandbox i reply) ((b.setResource i j .queued).setSandbox i (.submit (j + 1)))
  | waited : b.sandbox i = .wait →
      (∀ j < (conf.resourcesOf i).length, b.resource i j = some (.done (.ok ()))) →
      Step conf b (.sandbox i reply) (b.setSandbox i .report)
  | reportSandbox : b.sandbox i = .report →
      Step conf b (.sandbox i reply) ((b.addSandboxReport i).setSandbox i (.done (.ok ())))
  | thread : b.resource i j = some pc →
      Advance (conf.testsAt i j) (act.fails i j) pc.stage pc'.stage →
      (∀ i' j', (i', j') ≠ (i, j) → act.fails i' j' = false) →
      Step conf b act (b.setResource i j pc')
  | reportResource : b.resource i j = some (.report ok) → (conf.resourcesOf i)[j]? = some r →
      Step conf b (.resource i j reply) ((b.addReport i ⟨r, ok⟩).setResource i j .checkLast)

-- ---------------------------------------------------------------------------
-- A step of the machine on the books
-- ---------------------------------------------------------------------------

variable {conf : Conf} {s s' : State} {act : Act}

theorem thread_step {t : State} (hpc : s.resource i j = some pc)
    (hadvance : Advance (conf.testsAt i j) (act.fails i j) pc.stage pc'.stage)
    (hothers : ∀ i' j', (i', j') ≠ (i, j) → act.fails i' j' = false) (ht : t.books = s.books) :
    Books.Step conf s.books act (t.setResource i j pc').books := by
  have hbooks : (t.setResource i j pc').books = s.books.setResource i j pc' := by
    rw [← ht]
    rfl
  rw [hbooks]
  exact .thread hpc hadvance hothers

theorem sandbox_step {t : State} (hfails : ∀ i j, act.fails i j = false)
    (hmove : SandboxMove conf i (s.sandbox i) pc) (ht : t.books = s.books) :
    Books.Step conf s.books act (t.setSandbox i pc).books := by
  have hbooks : (t.setSandbox i pc).books = s.books.setSandbox i pc := by
    rw [← ht]
    rfl
  rw [hbooks]
  exact .sandbox hfails hmove

theorem resource_step {t : State} {reply : Reply} (hpc : s.resource i j = some pc)
    (hadvance : Advance (conf.testsAt i j) false pc.stage pc'.stage) (ht : t.books = s.books) :
    Books.Step conf s.books (.resource i j reply) (t.setResource i j pc').books :=
  thread_step hpc hadvance (fun _ _ _ => rfl) ht

theorem advance_testing {pc pc' : ResourcePc} {runTests fails : Bool}
    (hpc : pc.stage = .testing ok) (hpc' : pc'.stage = .testing (ok && !fails)) :
    Advance runTests fails pc.stage pc'.stage := by
  rw [hpc, hpc']
  exact .testing

theorem testsAt_eq (h : (conf.resourcesOf i)[j]? = some r) :
    conf.testsAt i j = conf.runTests r := by
  simp [Conf.testsAt, h]

theorem books_nextSandbox (hthreads : Threads conf s) (hpc : s.sandbox i = pc)
    (h : nextSandbox conf s i reply pc = some s') :
    Books.Step conf s.books (.sandbox i reply) s'.books := by
  have hmove {t : State} {pc'} (hmove : SandboxMove conf i pc pc') (ht : t.books = s.books) :
      Books.Step conf s.books (.sandbox i reply) (t.setSandbox i pc').books :=
    sandbox_step (fun _ _ => rfl) (hpc ▸ hmove) ht
  cases pc with
  | queued =>
    simp only [nextSandbox] at h
    split at h <;> cases h
    rename_i hstart
    exact hmove (.start hstart.1) rfl
  | check =>
    cases h
    split
    · exact hmove (.failed (.inl rfl)) rfl
    · exact hmove .check rfl
  | tests =>
    cases h
    exact hmove .tests rfl
  | lookup =>
    simp only [nextSandbox] at h
    split at h
    · cases h
      rename_i hnil
      exact hmove (.lookup (by simp [Conf.unknownName, hnil])) rfl
    · split at h <;> cases h
      · exact hmove (.failed (.inr (.inl rfl))) rfl
      · exact hmove (.failed (.inr (.inl rfl))) rfl
      · exact hmove (.lookup (by assumption)) rfl
  | add j =>
    have hfailed {e} : SandboxMove conf i (.add j) (.done (.error e)) :=
      .failed (.inr (.inr (.inl ⟨j, rfl⟩)))
    simp only [nextSandbox] at h
    split at h
    · split at h
      · split at h <;> cases h
        · exact hmove (t := s.addResource i _) .add rfl
        · exact hmove hfailed rfl
      · cases h
        exact hmove .add rfl
    · cases h
      exact hmove .allAdded rfl
  | submit j =>
    simp only [nextSandbox] at h
    split at h <;> cases h
    · refine .submit hpc ?_
      rw [Option.eq_none_iff_forall_ne_some]
      intro pc hresource
      have hsubmitted := (hthreads.place i j pc hresource).2
      simp [hpc, SandboxPc.submitted] at hsubmitted
    · exact hmove .allSubmitted rfl
  | wait =>
    simp only [nextSandbox] at h
    split at h <;> cases h
    rename_i hall
    exact .waited hpc (by simpa [State.books] using hall)
  | report =>
    cases h
    exact .reportSandbox hpc
  | done r => cases h

theorem books_runCommand {commands : List ResourceCommand} (hpc : s.resource i j = some pc)
    (hmore : ∀ k, Advance (conf.testsAt i j) false pc.stage (at? k).stage)
    (hraised : Advance (conf.testsAt i j) false pc.stage .raised)
    (hafter : Advance (conf.testsAt i j) false pc.stage after.stage) :
    Books.Step conf s.books (.resource i j reply)
      (runCommand s i j r commands k reply at? after).books := by
  unfold runCommand
  split
  · rename_i command _
    refine resource_step (t := s.execute i r _ command.command) hpc ?_ rfl
    split
    · exact hmore (k + 1)
    · exact hraised
  · exact resource_step hpc hafter rfl

theorem books_connectivity {bound : Nat → State} {tests : List Test}
    (hpc : s.resource i j = some pc) (hstage : pc.stage = .testing ok)
    (hbound : ∀ b, s.binding r = some b →
      Books.Step conf s.books (.resource i j reply) (bound b).books) :
    Books.Step conf s.books (.resource i j reply) (connectivity s i j r tests ok bound).books := by
  unfold connectivity
  split
  · exact hbound _ (by assumption)
  · have hending : Advance (conf.testsAt i j) false pc.stage (ResourcePc.ending tests ok).stage :=
      advance_testing hstage (by simp [ResourcePc.stage])
    exact resource_step (t := s.unlock) hpc hending rfl

theorem books_nextResource (hpc : s.resource i j = some pc)
    (hr : (conf.resourcesOf i)[j]? = some r) (h : nextResource conf s i j r reply pc = some s') :
    Books.Step conf s.books (.resource i j reply) s'.books := by
  have hbefore : Advance (conf.testsAt i j) false .before .before := .before rfl
  have htesting {ok : Bool} : Advance (conf.testsAt i j) false (.testing ok) (.testing ok) := by
    simpa only [Bool.not_false, Bool.and_true] using
      (Advance.testing : Advance (conf.testsAt i j) false (.testing ok) (.testing (ok && !false)))
  have hreported : Advance (conf.testsAt i j) false .reported .reported := .reported rfl
  have hraised : Advance (conf.testsAt i j) false .before .raised := .raised rfl (by simp) (by simp)
  have htestingRaised {ok : Bool} : Advance (conf.testsAt i j) false (.testing ok) .raised :=
    .raised rfl (by simp) (by simp)
  have hreportedRaised : Advance (conf.testsAt i j) false .reported .raised :=
    .raised rfl (by simp) (by simp)
  cases pc with
  | queued =>
    cases h
    exact resource_step hpc hbefore rfl
  | check =>
    cases h
    split
    · exact resource_step hpc hraised rfl
    · exact resource_step hpc hbefore rfl
  | setup k =>
    cases h
    exact books_runCommand hpc (fun _ => hbefore) hraised hbefore
  | checkAgain =>
    cases h
    split
    · exact resource_step hpc hraised rfl
    · split
      · exact resource_step hpc (.toTests rfl (by rwa [testsAt_eq hr])) rfl
      · exact resource_step hpc (.toAutoload rfl (by rwa [testsAt_eq hr])) rfl
  | suite =>
    simp only [nextResource] at h
    split at h <;> cases h
    exact resource_step hpc htestingRaised rfl
  | tests tests ok =>
    cases tests with
    | nil =>
      cases h
      exact resource_step hpc htesting rfl
    | cons test tests =>
      simp only [nextResource] at h
      split at h
      · cases h
        exact resource_step hpc htestingRaised rfl
      · split at h <;> cases h
        · exact resource_step hpc htesting rfl
        · exact resource_step hpc htesting rfl
  | plain | ending | done => cases h
  | lock tests ok =>
    simp only [nextResource] at h
    split at h <;> cases h
    exact resource_step (t := { s with lock := some (i, j) }) hpc htesting rfl
  | choose tests ok =>
    cases h
    refine books_connectivity hpc rfl fun b hb => ?_
    split
    · exact resource_step hpc htesting rfl
    · exact resource_step (t := s.unlock) hpc htesting rfl
  | borrow tests ok dut =>
    cases h
    refine books_connectivity hpc rfl fun b hb => ?_
    split
    · exact resource_step (t := s.addResource b dut) hpc htesting rfl
    · exact resource_step (t := s.unlock) hpc htesting rfl
  | body tests ok dut =>
    cases h
    exact resource_step hpc htesting rfl
  | giveBack tests ok dut =>
    cases h
    refine books_connectivity hpc rfl fun b hb => ?_
    split
    · exact resource_step (t := (s.removeResource b dut).unlock) hpc htesting rfl
    · exact resource_step (t := s.unlock) hpc htesting rfl
  | report ok =>
    cases h
    exact .reportResource hpc hr
  | checkLast =>
    cases h
    split
    · exact resource_step hpc hreportedRaised rfl
    · exact resource_step hpc hreported rfl
  | teardown k =>
    cases h
    exact books_runCommand hpc (fun _ => hreported) hreportedRaised (.returned rfl (.inl rfl))
  | autoload =>
    cases h
    exact resource_step hpc (.returned rfl (.inr rfl)) rfl

theorem books_step (hthreads : Threads conf s) (h : step conf s act = some s') :
    Books.Step conf s.books act s'.books := by
  cases act with
  | main =>
    obtain ⟨main, flag, rfl⟩ := nextMain_frame h
    exact .idle fun _ _ => rfl
  | interrupt =>
    have hbooks : s'.books = s.books := by
      simp only [step, interrupt] at h
      split at h
      · cases h
      · split at h <;> cases h <;> rfl
    rw [hbooks]
    exact .idle fun _ _ => rfl
  | sandbox i reply => exact books_nextSandbox hthreads rfl h
  | result i j =>
    simp only [step, result] at h
    split at h
    · split at h <;> cases h
      rename_i hwait _ _
      exact sandbox_step (fun _ _ => rfl) (.failed (.inr (.inr (.inr hwait)))) rfl
    · cases h
  | resource i j reply =>
    simp only [step] at h
    split at h
    · exact books_nextResource (by assumption) (by assumption) h
    · cases h
  | suite i j tests =>
    simp only [step] at h
    split at h <;> cases h
    rename_i hpc
    have hadvance : Advance (conf.testsAt i j) false (.testing true) (.testing true) := .testing
    exact thread_step hpc hadvance (fun _ _ _ => rfl) rfl
  | command i j name text =>
    simp only [step] at h
    split at h
    · cases h
      rename_i tests ok r hpc hr
      exact thread_step (t := s.execute i r name text) hpc
        (advance_testing rfl (by simp [ResourcePc.stage, Act.fails])) (fun _ _ _ => rfl) rfl
    · cases h
  | skipTest i j =>
    simp only [step] at h
    split at h <;> cases h
    rename_i hpc
    refine thread_step hpc (advance_testing rfl (by simp [ResourcePc.stage, Act.fails])) ?_ rfl
    intro i' j' hne
    simp only [Act.fails]
    grind
  | endTest i j ok =>
    have hothers (i' j' : Nat) (hne : (i', j') ≠ (i, j)) :
        (Act.endTest i j ok).fails i' j' = false := by
      simp only [Act.fails]
      grind
    simp only [step] at h
    split at h <;> cases h
    · rename_i hpc
      exact thread_step hpc (advance_testing rfl (by simp [ResourcePc.stage, Act.fails]))
        hothers rfl
    · rename_i hpc
      exact thread_step hpc (advance_testing rfl (by simp [ResourcePc.stage, Act.fails]))
        hothers rfl

-- ---------------------------------------------------------------------------
-- Whose reports a sandbox holds
-- ---------------------------------------------------------------------------

/-- What a thread at a stage stands for: the result `ok` of its tests, and
whether its report is `held`. -/
def Standing (runTests ok : Bool) (held : Prop) : Option Stage → Prop
  | none | some .before => ok = true ∧ ¬ held
  | some (.testing ok') => runTests ∧ ok = ok' ∧ ¬ held
  | some .reported => runTests ∧ held
  | some .skipped => runTests = false ∧ ¬ held
  | some .returned => held ↔ runTests
  | some .raised => held → runTests

theorem Standing.runTests {runTests ok : Bool} {held : Prop} {stage : Option Stage}
    (h : Standing runTests ok held stage) (hheld : held) : runTests := by
  match stage with
  | none | some .before | some .skipped => exact absurd hheld h.2
  | some (.testing _) => exact absurd hheld h.2.2
  | some .reported => exact h.1
  | some .returned => exact h.mp hheld
  | some .raised => exact h hheld

theorem Standing.advance {runTests ok fails : Bool} {held : Prop} {stage stage' : Stage}
    (h : Standing runTests ok held (some stage)) (ha : Advance runTests fails stage stage') :
    Standing runTests (ok && !fails) held (some stage') := by
  cases ha with
  | before hfails => simpa [hfails] using h
  | testing =>
    obtain ⟨hrun, rfl, hnot⟩ := h
    exact ⟨hrun, rfl, hnot⟩
  | toTests hfails hrun => exact ⟨hrun, by simp [hfails, h.1], h.2⟩
  | toAutoload hfails hrun => exact ⟨by simpa using hrun, h.2⟩
  | reported hfails => exact h
  | returned hfails hstage =>
    rcases hstage with rfl | rfl
    · exact iff_of_true h.2 h.1
    · exact iff_of_false h.2 (by simp [h.1])
  | raised hfails => exact h.runTests

theorem Standing.not_fails {runTests ok fails : Bool} {held : Prop} {stage stage' : Stage}
    (h : Standing runTests ok held (some stage)) (ha : Advance runTests fails stage stage')
    (hheld : held) : fails = false := by
  cases ha with
  | testing => exact absurd hheld h.2.2
  | _ => assumption

/-- A sandbox holds the reports of the threads `held`, in this order. -/
structure Kept (conf : Conf) (acts : List Act) (b : Books) (held : Nat → List Nat) : Prop where
  nodup : ∀ i, (held i).Nodup
  reports : ∀ i, b.resourcesReports i = (held i).filterMap (conf.reportAt i acts)
  standing : ∀ i j, Standing (conf.testsAt i j) (suiteResult i j acts) (j ∈ held i)
    ((b.resource i j).map ResourcePc.stage)

variable {b b' : Books} {acts : List Act} {held : Nat → List Nat}

theorem suiteResult_of_not_fails (h : act.fails i j = false) :
    suiteResult i j (acts ++ [act]) = suiteResult i j acts := by
  simp [suiteResult_append, h]

theorem reportAt_of_not_fails (h : act.fails i j = false) :
    conf.reportAt i (acts ++ [act]) j = conf.reportAt i acts j := by
  simp only [Conf.reportAt, suiteResult_of_not_fails h]

theorem Kept.reports_append (h : Kept conf acts b held)
    (hfails : ∀ i, ∀ j ∈ held i, act.fails i j = false) (i : Nat) :
    b.resourcesReports i = (held i).filterMap (conf.reportAt i (acts ++ [act])) := by
  rw [h.reports i]
  exact List.filterMap_congr fun j hj => (reportAt_of_not_fails (hfails i j hj)).symm

theorem Kept.idle (h : Kept conf acts b held) (hfails : ∀ i j, act.fails i j = false)
    (hresource : b'.resource = b.resource) (hreports : b'.resourcesReports = b.resourcesReports) :
    Kept conf (acts ++ [act]) b' held where
  nodup := h.nodup
  reports i := by
    rw [hreports]
    exact h.reports_append (fun i j _ => hfails i j) i
  standing i j := by
    rw [hresource, suiteResult_of_not_fails (hfails i j)]
    exact h.standing i j

theorem books_setResource (b : Books) (i j : Nat) (pc : ResourcePc) (i' j' : Nat) :
    i' = i ∧ j' = j ∧ (b.setResource i j pc).resource i' j' = some pc ∨
      (i', j') ≠ (i, j) ∧ (b.setResource i j pc).resource i' j' = b.resource i' j' :=
  update_entry b.resource i j (some pc) i' j'

theorem Kept.setResource (h : Kept conf acts b held)
    (hothers : ∀ i' j', (i', j') ≠ (i, j) → act.fails i' j' = false)
    (hheld : j ∈ held i → act.fails i j = false)
    (hstanding : Standing (conf.testsAt i j) (suiteResult i j (acts ++ [act])) (j ∈ held i)
      (some pc.stage)) :
    Kept conf (acts ++ [act]) (b.setResource i j pc) held where
  nodup := h.nodup
  reports := by
    refine h.reports_append fun i' j' hj' => ?_
    by_cases hij : (i', j') = (i, j)
    · obtain ⟨rfl, rfl⟩ := Prod.mk.inj hij
      exact hheld hj'
    · exact hothers i' j' hij
  standing i' j' := by
    rcases books_setResource b i j pc i' j' with ⟨rfl, rfl, heq⟩ | ⟨hne, heq⟩
    · rw [heq]
      exact hstanding
    · rw [heq, suiteResult_of_not_fails (hothers i' j' hne)]
      exact h.standing i' j'

theorem Kept.addReport (h : Kept conf acts b held) (hpc : b.resource i j = some (.report ok))
    (hr : (conf.resourcesOf i)[j]? = some r) (hfails : ∀ i j, act.fails i j = false) :
    Kept conf (acts ++ [act]) ((b.addReport i ⟨r, ok⟩).setResource i j .checkLast)
      (Function.update held i (held i ++ [j])) := by
  have hstanding := h.standing i j
  rw [hpc] at hstanding
  obtain ⟨hrun, hok, hnot⟩ := hstanding
  constructor
  · intro i'
    by_cases hi : i' = i
    · subst hi
      rw [Function.update_self]
      exact (h.nodup i').append (List.nodup_singleton j) (by simpa using hnot)
    · rw [Function.update_of_ne hi]
      exact h.nodup i'
  · intro i'
    have hreports :
        b.resourcesReports i' = (held i').filterMap (conf.reportAt i' (acts ++ [act])) :=
      h.reports_append (fun i j _ => hfails i j) i'
    by_cases hi : i' = i
    · subst hi
      have hreport : conf.reportAt i' (acts ++ [act]) j = some ⟨r, ok⟩ := by
        rw [reportAt_of_not_fails (hfails i' j)]
        simp [Conf.reportAt, hr, hok]
      simp [Books.setResource, Books.addReport, hreports, hreport]
    · simpa [Books.setResource, Books.addReport, Function.update_of_ne hi] using hreports
  · intro i' j'
    rw [suiteResult_of_not_fails (hfails i' j')]
    rcases books_setResource (b.addReport i ⟨r, ok⟩) i j .checkLast i' j' with
      ⟨rfl, rfl, heq⟩ | ⟨hne, heq⟩
    · rw [heq]
      exact ⟨hrun, by simp⟩
    · have hsame : j' ∈ Function.update held i (held i ++ [j]) i' ↔ j' ∈ held i' := by
        by_cases hi : i' = i
        · subst hi
          have hj : j' ≠ j := by
            rintro rfl
            exact hne rfl
          simp [hj]
        · simp [hi]
      rw [heq, propext hsame]
      exact h.standing i' j'

theorem kept_step (h : Kept conf acts b held) (hs : Books.Step conf b act b') :
    ∃ held', Kept conf (acts ++ [act]) b' held' := by
  cases hs with
  | idle hfails => exact ⟨held, h.idle hfails rfl rfl⟩
  | sandbox hfails => exact ⟨held, h.idle hfails rfl rfl⟩
  | @submit i j reply hpc hnone =>
    have hstanding := h.standing i j
    rw [hnone] at hstanding
    have hqueued : Kept conf (acts ++ [.sandbox i reply]) (b.setResource i j .queued) held :=
      h.setResource (fun _ _ _ => rfl) (fun _ => rfl)
        (by rw [suiteResult_of_not_fails rfl]; exact hstanding)
    exact ⟨held, hqueued.nodup, hqueued.reports, hqueued.standing⟩
  | waited => exact ⟨held, h.idle (fun _ _ => rfl) rfl rfl⟩
  | reportSandbox => exact ⟨held, h.idle (fun _ _ => rfl) rfl rfl⟩
  | @thread i j pc _ _ hpc hadvance hothers =>
    have hstanding := h.standing i j
    rw [hpc] at hstanding
    refine ⟨held, h.setResource hothers (hstanding.not_fails hadvance) ?_⟩
    rw [suiteResult_append]
    exact hstanding.advance hadvance
  | reportResource hpc hr => exact ⟨_, h.addReport hpc hr fun _ _ => rfl⟩

-- ---------------------------------------------------------------------------
-- Which sandboxes have reported
-- ---------------------------------------------------------------------------

def SandboxPc.looked : SandboxPc → Bool
  | .add _ | .submit _ | .wait | .report | .done (.ok ()) => true
  | _ => false

def SandboxPc.waited : SandboxPc → Bool
  | .report | .done (.ok ()) => true
  | _ => false

structure SandboxKept (conf : Conf) (b : Books) (i : Nat) (pc : SandboxPc) : Prop where
  started : pc ≠ .queued → i < conf.sandboxes.length
  known : pc.looked → conf.unknownName i = none
  waited : pc.waited → ∀ j < (conf.resourcesOf i).length, b.resource i j = some (.done (.ok ()))
  reported : i ∈ b.sandboxesReports ↔ pc = .done (.ok ())

structure SandboxesKept (conf : Conf) (b : Books) : Prop where
  nodup : b.sandboxesReports.Nodup
  each : ∀ i, SandboxKept conf b i (b.sandbox i)

theorem SandboxMove.started (h : SandboxMove conf i pc pc') (hpc : pc = .queued) :
    i < conf.sandboxes.length := by
  cases h with
  | start hi => exact hi
  | failed hor => simp [hpc] at hor
  | _ => cases hpc

theorem SandboxMove.looked (h : SandboxMove conf i pc pc') (hpc : pc'.looked) :
    pc.looked ∨ conf.unknownName i = none := by
  cases h with
  | lookup hnone => exact .inr hnone
  | add | allAdded | allSubmitted => exact .inl rfl
  | _ => cases hpc

theorem SandboxMove.not_waited (h : SandboxMove conf i pc pc') :
    pc.waited = false ∧ pc'.waited = false := by
  cases h with
  | failed hor => rcases hor with rfl | rfl | ⟨j, rfl⟩ | rfl <;> exact ⟨rfl, rfl⟩
  | _ => exact ⟨rfl, rfl⟩

theorem not_returned_of_not_waited (h : SandboxPc.waited pc = false) : pc ≠ .done (.ok ()) := by
  rintro rfl
  cases h

theorem Advance.not_returned (h : Advance runTests fails stage stage') : stage ≠ .returned := by
  cases h with
  | returned _ hstage => rcases hstage with rfl | rfl <;> nofun
  | raised _ _ hne => exact hne
  | _ => nofun

theorem SandboxKept.move (h : SandboxKept conf b i pc) (hmove : SandboxMove conf i pc pc') :
    SandboxKept conf b i pc' := by
  obtain ⟨hold, hnew⟩ := hmove.not_waited
  refine ⟨fun _ => ?_, fun hlooked => (hmove.looked hlooked).elim h.known id, by simp [hnew], ?_⟩
  · by_cases hqueued : pc = .queued
    · exact hmove.started hqueued
    · exact h.started hqueued
  · exact iff_of_false (fun hmem => not_returned_of_not_waited hold (h.reported.mp hmem))
      (not_returned_of_not_waited hnew)

theorem SandboxKept.congr (h : SandboxKept conf b i pc) (hresource : b'.resource = b.resource)
    (hreports : i ∈ b'.sandboxesReports ↔ i ∈ b.sandboxesReports) : SandboxKept conf b' i pc :=
  ⟨h.started, h.known, by rw [hresource]; exact h.waited, hreports.trans h.reported⟩

theorem SandboxesKept.setSandbox (h : SandboxesKept conf b) (hpc : SandboxKept conf b i pc) :
    SandboxesKept conf (b.setSandbox i pc) := by
  refine ⟨h.nodup, fun i' => ?_⟩
  by_cases hi : i' = i
  · subst hi
    have hnew : (b.setSandbox i' pc).sandbox i' = pc := Function.update_self ..
    rw [hnew]
    exact hpc.congr rfl .rfl
  · have hsame : (b.setSandbox i pc).sandbox i' = b.sandbox i' := Function.update_of_ne hi ..
    rw [hsame]
    exact (h.each i').congr rfl .rfl

theorem SandboxesKept.setResource (h : SandboxesKept conf b)
    (hold : b.resource i j ≠ some (.done (.ok ()))) :
    SandboxesKept conf (b.setResource i j pc) := by
  refine ⟨h.nodup, fun i' => ?_⟩
  refine ⟨(h.each i').started, (h.each i').known, fun hi' j' hj' => ?_, (h.each i').reported⟩
  have hdone := (h.each i').waited hi' j' hj'
  rcases books_setResource b i j pc i' j' with ⟨rfl, rfl, -⟩ | ⟨-, heq⟩
  · exact absurd hdone hold
  · rw [heq, hdone]

theorem sandboxesKept_step (h : SandboxesKept conf b) (hs : Books.Step conf b act b') :
    SandboxesKept conf b' := by
  cases hs with
  | idle => exact h
  | sandbox hfails hmove => exact h.setSandbox ((h.each _).move hmove)
  | @submit i j _ hpc hnone =>
    have hqueued : SandboxesKept conf (b.setResource i j .queued) :=
      h.setResource (by rw [hnone]; nofun)
    have hi : SandboxKept conf b i (.submit j) := hpc ▸ h.each i
    refine hqueued.setSandbox ⟨fun _ => hi.started nofun, fun _ => hi.known rfl, nofun, ?_⟩
    exact iff_of_false (fun hmem => nomatch hi.reported.mp hmem) nofun
  | @waited i _ hpc hall =>
    have hi : SandboxKept conf b i .wait := hpc ▸ h.each i
    refine h.setSandbox ⟨fun _ => hi.started nofun, fun _ => hi.known rfl, fun _ => hall, ?_⟩
    exact iff_of_false (fun hmem => nomatch hi.reported.mp hmem) nofun
  | @reportSandbox i _ hpc =>
    have hi : SandboxKept conf b i .report := hpc ▸ h.each i
    have hnot : i ∉ b.sandboxesReports := fun hmem => nomatch hi.reported.mp hmem
    refine ⟨h.nodup.append (List.nodup_singleton i) (by simpa using hnot), fun i' => ?_⟩
    by_cases hi' : i' = i
    · subst hi'
      have hdone : ((b.addSandboxReport i').setSandbox i' (.done (.ok ()))).sandbox i' =
          .done (.ok ()) := Function.update_self ..
      rw [hdone]
      exact ⟨fun _ => hi.started nofun, fun _ => hi.known rfl, fun _ => hi.waited rfl,
        iff_of_true (by simp [Books.setSandbox, Books.addSandboxReport]) rfl⟩
    · have hsame : ((b.addSandboxReport i).setSandbox i (.done (.ok ()))).sandbox i' =
          b.sandbox i' := Function.update_of_ne hi' ..
      rw [hsame]
      exact (h.each i').congr rfl (by simp [Books.setSandbox, Books.addSandboxReport, hi'])
  | thread hpc hadvance =>
    refine h.setResource fun hdone => hadvance.not_returned ?_
    rw [Option.some.inj (hpc.symm.trans hdone)]
    rfl
  | @reportResource i j ok r _ hpc hr =>
    have hreport : SandboxesKept conf (b.addReport i ⟨r, ok⟩) :=
      ⟨h.nodup, fun i' => (h.each i').congr rfl .rfl⟩
    refine hreport.setResource fun hdone => ?_
    cases hpc.symm.trans hdone

-- ---------------------------------------------------------------------------
-- A run that ends well
-- ---------------------------------------------------------------------------

structure RunKept (conf : Conf) (acts : List Act) (s : State) : Prop where
  threads : Threads conf s
  sandboxes : SandboxesKept conf s.books
  reports : ∃ held, Kept conf acts s.books held

theorem runKept_init : RunKept conf [] {} := by
  refine ⟨⟨nofun, nofun, nofun⟩, ⟨.nil, fun i => ⟨by simp [State.books], nofun, nofun, ?_⟩⟩,
    fun _ => [], fun _ => .nil, fun _ => rfl, fun _ _ => ⟨rfl, by simp⟩⟩
  simp [State.books]

theorem runKept_step (h : RunKept conf acts s) (hs : step conf s act = some s') :
    RunKept conf (acts ++ [act]) s' := by
  have hbooks := books_step h.threads hs
  obtain ⟨held, hheld⟩ := h.reports
  exact ⟨threads_moves h.threads (step_moves hs), sandboxesKept_step h.sandboxes hbooks,
    kept_step hheld hbooks⟩

theorem run_kept (h : run (step conf) {} acts = some s) : RunKept conf acts s := by
  have hkept : RunKept conf ([] ++ acts) s :=
    run_invariant (fun _ _ _ _ => runKept_step) runKept_init h
  rwa [List.nil_append] at hkept

theorem map_handlerNamed (h : conf.unknownName i = none) :
    (conf.namesOf i).map conf.handlerNamed = (conf.resourcesOf i).map some := by
  have hknown : ∀ name ∈ conf.namesOf i, conf.handlerNamed name ≠ none := by
    simpa [Conf.unknownName] using h
  unfold Conf.resourcesOf
  generalize conf.namesOf i = names at hknown
  induction names with
  | nil => rfl
  | cons name names ih =>
    obtain ⟨r, hr⟩ := Option.ne_none_iff_exists'.mp (hknown name (by simp))
    have hnames := ih fun name' hname' => hknown name' (by simp [hname'])
    simp only [List.map_cons, hr, List.filterMap_cons_some hr, hnames]

theorem namesOf_of_le (h : conf.sandboxes.length ≤ i) : conf.namesOf i = [] := by
  simp [Conf.namesOf, List.getElem?_eq_none_iff.mpr h]

theorem testsAt_lt (h : conf.testsAt i j) : j < (conf.resourcesOf i).length := by
  by_contra hj
  simp [Conf.testsAt, List.getElem?_eq_none_iff.mpr (Nat.le_of_not_lt hj)] at h

/-- When all threads of a sandbox have returned, it holds the reports of those that test. -/
theorem Kept.held_perm (h : Kept conf acts b held)
    (hdone : ∀ j < (conf.resourcesOf i).length, b.resource i j = some (.done (.ok ()))) :
    (held i).Perm ((List.range (conf.resourcesOf i).length).filter (conf.testsAt i)) := by
  refine (List.perm_ext_iff_of_nodup (h.nodup i) (List.nodup_range.filter _)).mpr fun j => ?_
  rw [List.mem_filter, List.mem_range]
  have hstanding := h.standing i j
  constructor
  · intro hj
    have htests := hstanding.runTests hj
    exact ⟨testsAt_lt htests, htests⟩
  · rintro ⟨hj, htests⟩
    rw [hdone j hj] at hstanding
    exact hstanding.mpr htests

theorem all_returned (h : Inv conf s) (hended : s.main = .ended (.ok ()))
    (hi : i < conf.sandboxes.length) : s.sandbox i = .done (.ok ()) := by
  have hall : allEnded conf s := h.settled (by rw [hended]; rfl)
  have hnil : exceptions conf s = [] := by
    have houtcome : Outcome conf s (.ok ()) := h.outcome _ (by rw [hended]; rfl)
    unfold Outcome at houtcome
    split at houtcome
    · cases houtcome
    · rcases houtcome with ⟨hnil, -⟩ | ⟨-, msg, hmsg⟩
      · exact hnil
      · cases hmsg
  have hdone := sandbox_of_allEnded hall hi
  cases hpc : s.sandbox i with
  | done r =>
    cases r with
    | ok => rfl
    | error e =>
      have hmem : e ∈ exceptions conf s := mem_exceptions.mpr ⟨i, hi, hpc⟩
      simp [hnil] at hmem
  | _ => simp [hpc, SandboxPc.isDone] at hdone

/-- Where main returns, no report is lost, there twice, or in another sandbox. -/
theorem all_reported (h : run (step conf) {} acts = some s) (hended : s.main = .ended (.ok ())) :
    AllReported conf acts s := by
  obtain ⟨-, hsandboxes, held, hheld⟩ := run_kept h
  have hreturned (i : Nat) (hi : i < conf.sandboxes.length) : s.sandbox i = .done (.ok ()) :=
    all_returned (reach_inv (.of_free_run acts rfl h)) hended hi
  have hkept (i : Nat) (hi : i < conf.sandboxes.length) :
      SandboxKept conf s.books i (.done (.ok ())) := hreturned i hi ▸ hsandboxes.each i
  refine ⟨?_, fun i => ?_, fun i => ?_⟩
  · refine (List.perm_ext_iff_of_nodup hsandboxes.nodup List.nodup_range).mpr fun i => ?_
    rw [List.mem_range, (hsandboxes.each i).reported]
    refine ⟨fun hdone => (hsandboxes.each i).started ?_, hreturned i⟩
    rw [hdone]
    nofun
  · by_cases hi : i < conf.sandboxes.length
    · exact map_handlerNamed ((hkept i hi).known rfl)
    · simp [Conf.resourcesOf, namesOf_of_le (Nat.le_of_not_lt hi)]
  · have hdone : ∀ j < (conf.resourcesOf i).length, s.resource i j = some (.done (.ok ())) := by
      by_cases hi : i < conf.sandboxes.length
      · exact (hkept i hi).waited rfl
      · simp [Conf.resourcesOf, namesOf_of_le (Nat.le_of_not_lt hi)]
    have hreports : s.resourcesReports i = (held i).filterMap (conf.reportAt i acts) :=
      hheld.reports i
    rw [hreports]
    exact (hheld.held_perm hdone).filterMap _

def oneTest (j : Nat) (ok : Bool) : List Act :=
  List.replicate 4 (.resource 0 j (.ok ())) ++
    [.suite 0 j [.plain], .resource 0 j (.ok ()), .endTest 0 j ok] ++
    List.replicate 4 (.resource 0 j (.ok ()))

def twoSandboxes : List Act :=
  List.replicate 12 (.sandbox 0 (.ok ())) ++ List.replicate 8 (.sandbox 1 (.ok ())) ++
    oneTest 0 true ++ List.replicate 5 (.resource 0 1 (.ok ())) ++ oneTest 2 false ++
    List.replicate 2 (.sandbox 0 (.ok ())) ++ List.replicate 3 .main

/-- A sandbox names a resource with tests twice, and the second suite fails; it
names one without tests, and the other sandbox names none. -/
theorem all_reported_two :
    let conf : Conf := ⟨[{ name := "a", resourceNames := ["R", "S", "R"] }, { name := "b" }],
      [{ name := "R", shellName := "shell" },
        { name := "S", shellName := "shell", runTests := false }]⟩
    ∃ acts s, run (step conf) {} acts = some s ∧ s.main = .ended (.ok ()) ∧
      s.resourcesReports 0 = [⟨0, true⟩, ⟨0, false⟩] ∧ AllReported conf acts s := by
  intro conf
  have hends : (run (step conf) {} twoSandboxes).map (fun s => (s.main, s.resourcesReports 0)) =
      some (.ended (.ok ()), [⟨0, true⟩, ⟨0, false⟩]) := by
    decide +kernel
  obtain ⟨s, hrun, heq⟩ := Option.map_eq_some_iff.mp hends
  obtain ⟨hended, hreports⟩ := Prod.mk.inj heq
  exact ⟨twoSandboxes, s, hrun, hended, hreports, all_reported hrun hended⟩

end ShellTests.RunTests
