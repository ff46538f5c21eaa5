import Mathlib.Data.List.Perm.Basic
import Mathlib.Logic.Function.Basic
import ShellTests.Lib.Machine
import ShellTests.CloudShell

/-!
# Threads of the tests

`AutomatedTestsRunner._run_tests_for_sandboxes` with a thread for each sandbox,
`RunTestsForSandbox.run`, and under it a thread for each resource that the
sandbox names, `_execute_resource_tests`. A sandbox is its place in the config,
a resource its place in the list of the storage, and a resource thread the
place of its resource among the names of its sandbox.
-/

namespace ShellTests.RunTests

open Machine

structure Conf where
  sandboxes : List SandboxConfig
  handlers : List ResourceConfig
  deriving DecidableEq, Repr

namespace Conf

variable (conf : Conf)

def namesOf (i : Nat) : List String := (conf.sandboxes[i]?.map (·.resourceNames)).getD []

/-- `handler_storage.resource_handlers_dict[name]`: the last of that name. -/
def handlerNamed (name : String) : Option Nat :=
  (List.range conf.handlers.length).reverse.find? fun r =>
    conf.handlers[r]?.map (·.name) == some name

def resourcesOf (i : Nat) : List Nat := (conf.namesOf i).filterMap conf.handlerNamed

def unknownName (i : Nat) : Option String :=
  (conf.namesOf i).find? fun name => conf.handlerNamed name = none

def runTests (r : Nat) : Bool := (conf.handlers[r]?.map (·.runTests)).getD false

def setupCommands (r : Nat) : List ResourceCommand :=
  (conf.handlers[r]?.map (·.setupCommands)).getD []

def teardownCommands (r : Nat) : List ResourceCommand :=
  (conf.handlers[r]?.map (·.teardownCommands)).getD []

/-- `get_other_device_for_connectivity` of the resource `r`, bound to the sandbox `b`. -/
def otherDevice (b r : Nat) : Option Nat :=
  (List.range conf.handlers.length).find? fun d =>
    d ≠ r && (conf.handlers[d]?.map fun c => decide (c.name ∈ conf.namesOf b)).getD false

end Conf

/-- The line that main is about to run; `again`: in the except clause. -/
inductive Main
  -- ft.wait(futures, return_when=ft.FIRST_EXCEPTION)
  | wait (again : Bool)
  | waitAll (again : Bool)
  | classify (again : Bool)
  -- except KeyboardInterrupt: stop_flag.set()
  | stop
  | exit (r : Except Exn Unit)
  | ended (r : Except Exn Unit)
  deriving DecidableEq, Repr

inductive SandboxPc
  | queued
  | check
  | tests
  -- self.handler_storage.resource_handlers_dict[name] for each name
  | lookup
  -- the loop of `resource_handlers`, at place `j`
  | add (j : Nat)
  -- the set comprehension, at place `j`
  | submit (j : Nat)
  | wait
  | report
  | done (r : Except Exn Unit)
  deriving DecidableEq, Repr

inductive Test
  | plain
  | connectivity
  deriving DecidableEq, Repr

/-- The line that a resource thread is about to run; `tests` are still to be
run, and `ok` says whether all were successful so far. -/
inductive ResourcePc
  | queued
  | check
  -- self.run_resource_commands(setup_commands), at place `k`
  | setup (k : Nat)
  | checkAgain
  | suite
  -- _callTestMethod of the next test
  | tests (tests : List Test) (ok : Bool)
  | plain (tests : List Test) (ok : Bool)
  | lock (tests : List Test) (ok : Bool)
  -- self.get_other_device_for_connectivity()
  | choose (tests : List Test) (ok : Bool)
  -- dut_handler.autoload_finished.wait(600), and then it is added
  | borrow (tests : List Test) (ok : Bool) (dut : Nat)
  | body (tests : List Test) (ok : Bool) (dut : Nat)
  | giveBack (tests : List Test) (ok : Bool) (dut : Nat)
  -- the end of a test method, which may be expected to fail
  | ending (tests : List Test) (ok : Bool)
  | report (ok : Bool)
  | checkLast
  | teardown (k : Nat)
  | autoload
  | done (r : Except Exn Unit)
  deriving DecidableEq, Repr

/-- A command that the thread of a sandbox executed on a resource, in the
sandbox that the resource was bound to. -/
structure Command where
  sandbox : Nat
  resource : Nat
  name : String
  text : String
  ran : Option Nat
  deriving DecidableEq, Repr

structure ResourceReport where
  resource : Nat
  isSuccess : Bool
  deriving DecidableEq, Repr

structure State where
  main : Main := .wait false
  interrupted : Bool := false
  stopFlag : Bool := false
  sandbox : Nat → SandboxPc := fun _ => .queued
  resource : Nat → Nat → Option ResourcePc := fun _ _ => none
  binding : Nat → Option Nat := fun _ => none
  members : Nat → List Nat := fun _ => []
  -- the thread that holds `TestConnectivity.LOCK`
  lock : Option (Nat × Nat) := none
  commands : List Command := []
  -- the reports of the resources, of each sandbox
  resourcesReports : Nat → List ResourceReport := fun _ => []
  -- the reports of the sandboxes, in the `Reporting`
  sandboxesReports : List Nat := []

/-- What a remote call answers: it raises an `Exception`, so a
`KeyboardInterrupt` of a thread comes from its checks of the stop flag. -/
abbrev Reply := Except { e : Exn // e.isException } Unit

/-- Main or a thread runs its next line, where `reply` is what a remote call
answers that the line makes; the user interrupts main; a resource thread ends a
sandbox thread by its exception; a suite is built; a test runs a command, is
not run at all, or ends. -/
inductive Act
  | main
  | interrupt
  | sandbox (i : Nat) (reply : Reply)
  | result (i j : Nat)
  | resource (i j : Nat) (reply : Reply)
  | suite (i j : Nat) (tests : List Test)
  | command (i j : Nat) (name text : String)
  | skipTest (i j : Nat)
  | endTest (i j : Nat) (ok : Bool)

namespace State

variable (s : State)

def setSandbox (i : Nat) (pc : SandboxPc) : State :=
  { s with sandbox := Function.update s.sandbox i pc }

def setResource (i j : Nat) (pc : ResourcePc) : State :=
  { s with resource := Function.update s.resource i (Function.update (s.resource i) j (some pc)) }

/-- `sandbox_handler.add_resource_to_reservation(resource_handler)`, when it succeeds. -/
def addResource (b r : Nat) : State :=
  { s with
    binding := Function.update s.binding r (some b)
    members := Function.update s.members b (r :: s.members b) }

/-- `sandbox_handler.remove_resource_from_reservation(resource_handler)`, when it succeeds. -/
def removeResource (b r : Nat) : State :=
  { s with
    binding := Function.update s.binding r none
    members := Function.update s.members b ((s.members b).filter (· ≠ r)) }

def execute (i r : Nat) (name text : String) : State :=
  { s with commands := s.commands ++ [⟨i, r, name, text, s.binding r⟩] }

def unlock : State := { s with lock := none }

end State

def SandboxPc.isDone : SandboxPc → Bool
  | .done _ => true
  | _ => false

def ResourcePc.isDone : ResourcePc → Bool
  | .done _ => true
  | _ => false

def exceptions (conf : Conf) (s : State) : List Exn :=
  (List.range conf.sandboxes.length).filterMap fun i =>
    match s.sandbox i with
    | .done (.error e) => some e
    | _ => none

def allEnded (conf : Conf) (s : State) : Bool :=
  (List.range conf.sandboxes.length).all fun i => (s.sandbox i).isDone

/-- What `_wait_for_futures` raises for these exceptions, each an object of its own. -/
def verdict : List Exn → Option Exn
  | [] => none
  | [.keyboardInterrupt] => some .keyboardInterrupt
  | exceptions => some (.baseAutomation
      ("Sandbox threads finished with exceptions: " ++ toString (exceptions.map Exn.str)))

def nextMain (conf : Conf) (s : State) : Option State :=
  match s.main with
  | .wait again =>
    if exceptions conf s ≠ [] then some { s with stopFlag := true, main := .waitAll again }
    else if allEnded conf s then some { s with main := .classify again }
    else none
  | .waitAll again => if allEnded conf s then some { s with main := .classify again } else none
  | .classify again =>
    match again, verdict (exceptions conf s) with
    | false, none => some { s with main := .exit (.ok ()) }
    | false, some .keyboardInterrupt => some { s with main := .stop }
    | false, some e => some { s with main := .exit (.error e) }
    | true, none => some { s with main := .exit (.error .keyboardInterrupt) }
    | true, some e => some { s with main := .exit (.error e) }
  | .stop => some { s with stopFlag := true, main := .wait true }
  | .exit r => if allEnded conf s then some { s with main := .ended r } else none
  | .ended _ => none

def interrupt (s : State) : Option State :=
  match s.main with
  | .wait false | .waitAll false => some { s with main := .stop, interrupted := true }
  | _ => none

def running (conf : Conf) (s : State) : Nat :=
  (List.range conf.sandboxes.length).countP fun i =>
    !(s.sandbox i).isDone && s.sandbox i ≠ .queued

def resourcesDone (conf : Conf) (s : State) (i : Nat) : Bool :=
  (List.range (conf.resourcesOf i).length).all fun j => (s.resource i j).any (·.isDone)

def nextSandbox (conf : Conf) (s : State) (i : Nat) (reply : Reply) : SandboxPc → Option State
  | .queued =>
    if i < conf.sandboxes.length ∧ running conf s < 5 then some (s.setSandbox i .check) else none
  | .check =>
    some (s.setSandbox i (if s.stopFlag then .done (.error .keyboardInterrupt) else .tests))
  | .tests => some (s.setSandbox i .lookup)
  | .lookup =>
    if conf.namesOf i = [] then some (s.setSandbox i (.add 0))
    else match reply, conf.unknownName i with
      | .error e, _ => some (s.setSandbox i (.done (.error e)))
      | .ok (), some name => some (s.setSandbox i (.done (.error (.key name))))
      | .ok (), none => some (s.setSandbox i (.add 0))
  | .add j =>
    match (conf.resourcesOf i)[j]? with
    | some r =>
      if conf.runTests r then
        match reply with
        | .ok () => some ((s.addResource i r).setSandbox i (.add (j + 1)))
        | .error e => some (s.setSandbox i (.done (.error e)))
      else some (s.setSandbox i (.add (j + 1)))
    | none => some (s.setSandbox i (.submit 0))
  | .submit j =>
    if j < (conf.resourcesOf i).length then
      some ((s.setResource i j .queued).setSandbox i (.submit (j + 1)))
    else some (s.setSandbox i .wait)
  | .wait =>
    if (List.range (conf.resourcesOf i).length).all
        fun j => s.resource i j = some (.done (.ok ())) then
      some (s.setSandbox i .report)
    else none
  | .report =>
    some ({ s with sandboxesReports := s.sandboxesReports ++ [i] }.setSandbox i (.done (.ok ())))
  | .done _ => none

/-- `future.result()` of the resource thread `j`, which has raised. -/
def result (conf : Conf) (s : State) (i j : Nat) : Option State :=
  match s.sandbox i, s.resource i j with
  | .wait, some (.done (.error e)) =>
    if resourcesDone conf s i ∧ j < (conf.resourcesOf i).length then
      some (s.setSandbox i (.done (.error e)))
    else none
  | _, _ => none

/-- What executing a command raises. -/
def commandReply (s : State) (r : Nat) (reply : Reply) : Reply :=
  if s.binding r = none then .error ⟨.baseAutomation "You have to add Sandbox Handler", rfl⟩
  else reply

def commandName : ResourceCommandMode → String
  | .config => "run_custom_config_command"
  | .enable => "run_custom_command"

/-- The command at place `k` of `run_resource_commands`, or what comes after them. -/
def runCommand (s : State) (i j r : Nat) (commands : List ResourceCommand) (k : Nat)
    (reply : Reply) (at? : Nat → ResourcePc) (after : ResourcePc) : State :=
  match commands[k]? with
  | some command =>
    let pc := match commandReply s r reply with
      | .ok () => at? (k + 1)
      | .error e => .done (.error e)
    (s.execute i r (commandName command.mode) command.command).setResource i j pc
  | none => s.setResource i j after

def State.endConnectivity (s : State) (i j : Nat) (tests : List Test) (ok : Bool) : State :=
  s.unlock.setResource i j (.ending tests ok)

/-- A step of a connectivity test needs the sandbox that its own resource is
bound to, and fails without one. -/
def connectivity (s : State) (i j r : Nat) (tests : List Test) (ok : Bool)
    (bound : Nat → State) : State :=
  match s.binding r with
  | some b => bound b
  | none => s.endConnectivity i j tests ok

def nextResource (conf : Conf) (s : State) (i j r : Nat) (reply : Reply) :
    ResourcePc → Option State
  | .queued => some (s.setResource i j .check)
  | .check =>
    some (s.setResource i j (if s.stopFlag then .done (.error .keyboardInterrupt) else .setup 0))
  | .setup k => some (runCommand s i j r (conf.setupCommands r) k reply .setup .checkAgain)
  | .checkAgain =>
    some (s.setResource i j
      (if s.stopFlag then .done (.error .keyboardInterrupt)
       else if conf.runTests r then .suite else .autoload))
  | .suite =>
    match reply with
    | .error e => some (s.setResource i j (.done (.error e)))
    | .ok () => none
  | .tests [] ok => some (s.setResource i j (.report ok))
  | .tests (test :: tests) ok =>
    if s.stopFlag then some (s.setResource i j (.done (.error .keyboardInterrupt)))
    else match test with
      | .plain => some (s.setResource i j (.plain tests ok))
      | .connectivity => some (s.setResource i j (.lock tests ok))
  | .plain .. => none
  | .lock tests ok =>
    if s.lock = none then some ({ s with lock := some (i, j) }.setResource i j (.choose tests ok))
    else none
  | .choose tests ok =>
    some (connectivity s i j r tests ok fun b =>
      match reply, conf.otherDevice b r with
      | .ok (), some dut => s.setResource i j (.borrow tests ok dut)
      | _, _ => s.endConnectivity i j tests ok)
  | .borrow tests ok dut =>
    some (connectivity s i j r tests ok fun b =>
      match reply with
      | .ok () => (s.addResource b dut).setResource i j (.body tests ok dut)
      | .error _ => s.endConnectivity i j tests ok)
  | .body tests ok dut => some (s.setResource i j (.giveBack tests ok dut))
  | .giveBack tests ok dut =>
    some (connectivity s i j r tests ok fun b =>
      match reply with
      | .ok () => (s.removeResource b dut).endConnectivity i j tests ok
      | .error _ => s.endConnectivity i j tests ok)
  | .ending .. => none
  | .report ok =>
    some ({ s with
      resourcesReports :=
        Function.update s.resourcesReports i (s.resourcesReports i ++ [ResourceReport.mk r ok])
      }.setResource i j .checkLast)
  | .checkLast =>
    some (s.setResource i j (if s.stopFlag then .done (.error .keyboardInterrupt) else .teardown 0))
  | .teardown k =>
    some (runCommand s i j r (conf.teardownCommands r) k reply .teardown (.done (.ok ())))
  -- an Exception of it is logged and passed over
  | .autoload => some (s.setResource i j (.done (.ok ())))
  | .done _ => none

def step (conf : Conf) (s : State) : Act → Option State
  | .main => nextMain conf s
  | .interrupt => if s.interrupted then none else interrupt s
  | .sandbox i reply => nextSandbox conf s i reply (s.sandbox i)
  | .result i j => result conf s i j
  | .resource i j reply =>
    match s.resource i j, (conf.resourcesOf i)[j]? with
    | some pc, some r => nextResource conf s i j r reply pc
    | _, _ => none
  | .suite i j tests =>
    if s.resource i j = some .suite then some (s.setResource i j (.tests tests true)) else none
  | .command i j name text =>
    match s.resource i j, (conf.resourcesOf i)[j]? with
    | some (.plain tests ok), some r =>
      some ((s.execute i r name text).setResource i j (.plain tests ok))
    | _, _ => none
  | .skipTest i j =>
    match s.resource i j with
    | some (.tests (_ :: tests) _) => some (s.setResource i j (.tests tests false))
    | _ => none
  | .endTest i j ok =>
    match s.resource i j with
    | some (.plain tests ok') | some (.ending tests ok') =>
      some (s.setResource i j (.tests tests (ok' && ok)))
    | _ => none

def init (s : State) : Prop := s = {}

-- ---------------------------------------------------------------------------
-- What a step can do
-- ---------------------------------------------------------------------------

theorem sandbox_setSandbox (s : State) (i i' : Nat) (pc : SandboxPc) :
    i' = i ∧ (s.setSandbox i pc).sandbox i' = pc ∨
      (s.setSandbox i pc).sandbox i' = s.sandbox i' := by
  by_cases hi : i' = i
  · subst hi
    exact .inl ⟨rfl, by simp [State.setSandbox]⟩
  · exact .inr (by simp [State.setSandbox, Function.update_of_ne hi])

theorem update_entry [DecidableEq ι] [DecidableEq κ] (f : ι → κ → α) (i : ι) (j : κ) (a : α)
    (i' : ι) (j' : κ) :
    i' = i ∧ j' = j ∧ Function.update f i (Function.update (f i) j a) i' j' = a ∨
      (i', j') ≠ (i, j) ∧ Function.update f i (Function.update (f i) j a) i' j' = f i' j' := by
  by_cases hi : i' = i
  · subst hi
    by_cases hj : j' = j
    · subst hj
      exact .inl ⟨rfl, rfl, by simp⟩
    · exact .inr ⟨by simp [hj], by simp [Function.update_of_ne hj]⟩
  · exact .inr ⟨by simp [hi], by simp [Function.update_of_ne hi]⟩

theorem resource_setResource (s : State) (i j i' j' : Nat) (pc : ResourcePc) :
    i' = i ∧ j' = j ∧ (s.setResource i j pc).resource i' j' = some pc ∨
      (s.setResource i j pc).resource i' j' = s.resource i' j' :=
  (update_entry s.resource i j (some pc) i' j').imp_right And.right

variable {conf : Conf} {s : State}

def SandboxPc.early : SandboxPc → Bool
  | .queued | .check | .tests | .lookup | .add 0 => true
  | _ => false

def ResourcePc.testing : ResourcePc → Bool
  | .queued | .check | .setup _ | .checkAgain | .autoload | .done _ => false
  | _ => true

theorem not_done_of_testing (h : pc.testing) : ResourcePc.isDone pc = false := by
  revert h
  cases pc <;> simp [ResourcePc.testing, ResourcePc.isDone]

inductive Moves (conf : Conf) (s : State) : Act → State → Prop
  | main : nextMain conf s = some s' → Moves conf s .main s'
  | interrupt : s.main = .wait false ∨ s.main = .waitAll false →
      Moves conf s .interrupt { s with main := .stop, interrupted := true }
  | early : (s.sandbox i).early → s.sandbox i ≠ .add 0 → pc.early → pc ≠ .queued →
      Moves conf s (.sandbox i reply) (s.setSandbox i pc)
  | stopped : s.sandbox i = .check → s.stopFlag →
      Moves conf s (.sandbox i reply) (s.setSandbox i (.done (.error .keyboardInterrupt)))
  | failed : s.sandbox i = .lookup ∨ (∃ j, s.sandbox i = .add j) → e.isException →
      Moves conf s (.sandbox i reply) (s.setSandbox i (.done (.error e)))
  | added : s.sandbox i = .add j → (conf.resourcesOf i)[j]? = some r → conf.runTests r →
      Moves conf s (.sandbox i (.ok ())) ((s.addResource i r).setSandbox i (.add (j + 1)))
  | notAdded : s.sandbox i = .add j → (conf.resourcesOf i)[j]? = some r → ¬ conf.runTests r →
      Moves conf s (.sandbox i reply) (s.setSandbox i (.add (j + 1)))
  | allAdded : s.sandbox i = .add j → (conf.resourcesOf i).length ≤ j →
      Moves conf s (.sandbox i reply) (s.setSandbox i (.submit 0))
  | submitted : s.sandbox i = .submit j → j < (conf.resourcesOf i).length →
      Moves conf s (.sandbox i reply) ((s.setResource i j .queued).setSandbox i (.submit (j + 1)))
  | allSubmitted : s.sandbox i = .submit j → (conf.resourcesOf i).length ≤ j →
      Moves conf s (.sandbox i reply) (s.setSandbox i .wait)
  | raised : s.sandbox i = .wait → s.resource i j = some (.done (.error e)) →
      resourcesDone conf s i → Moves conf s (.result i j) (s.setSandbox i (.done (.error e)))
  | waited : s.sandbox i = .wait →
      (∀ j < (conf.resourcesOf i).length, s.resource i j = some (.done (.ok ()))) →
      Moves conf s (.sandbox i reply) (s.setSandbox i .report)
  | reported : s.sandbox i = .report →
      Moves conf s (.sandbox i reply)
        ({ s with sandboxesReports := s.sandboxesReports ++ [i] }.setSandbox i (.done (.ok ())))
  | stop : s.resource i j = some pc → pc.isDone = false → s.stopFlag →
      Moves conf s act (s.setResource i j (.done (.error .keyboardInterrupt)))
  | work : s.resource i j = some pc → pc.isDone = false →
      (pc'.testing → pc.testing ∨ ∃ r, (conf.resourcesOf i)[j]? = some r ∧ conf.runTests r) →
      pc' ≠ .done (.error .keyboardInterrupt) →
      Moves conf s act ({ s with lock, resourcesReports }.setResource i j pc')
  | setup : s.resource i j = some (.setup k) → (conf.resourcesOf i)[j]? = some r →
      k < (conf.setupCommands r).length → pc.testing = false →
      pc ≠ .done (.error .keyboardInterrupt) →
      Moves conf s (.resource i j reply) ((s.execute i r name text).setResource i j pc)
  | execute : s.resource i j = some pc → (conf.resourcesOf i)[j]? = some r → pc.testing →
      pc' ≠ .done (.error .keyboardInterrupt) →
      Moves conf s act ((s.execute i r name text).setResource i j pc')
  | borrow : s.resource i j = some (.borrow tests ok dut) → (conf.resourcesOf i)[j]? = some r →
      s.binding r = some b →
      Moves conf s (.resource i j (.ok ()))
        ((s.addResource b dut).setResource i j (.body tests ok dut))
  | giveBack : s.resource i j = some (.giveBack tests ok dut) → (conf.resourcesOf i)[j]? = some r →
      s.binding r = some b →
      Moves conf s (.resource i j (.ok ())) ((s.removeResource b dut).endConnectivity i j tests ok)

theorem sandbox_moves (hpc : s.sandbox i = pc) (h : nextSandbox conf s i reply pc = some s') :
    Moves conf s (.sandbox i reply) s' := by
  cases pc with
  | queued =>
    simp only [nextSandbox] at h
    split at h <;> cases h
    exact .early (by rw [hpc]; rfl) (by simp [hpc]) rfl (by simp)
  | check =>
    cases h
    split
    · exact .stopped hpc (by assumption)
    · exact .early (by rw [hpc]; rfl) (by simp [hpc]) rfl (by simp)
  | tests =>
    cases h
    exact .early (by rw [hpc]; rfl) (by simp [hpc]) rfl (by simp)
  | lookup =>
    have hearly : Moves conf s (.sandbox i reply) (s.setSandbox i (.add 0)) :=
      .early (by rw [hpc]; rfl) (by simp [hpc]) rfl (by simp)
    simp only [nextSandbox] at h
    split at h
    · cases h
      exact hearly
    · split at h <;> cases h
      · exact .failed (.inl hpc) (‹{ e : Exn // e.isException }›).property
      · exact .failed (.inl hpc) rfl
      · exact hearly
  | add j =>
    simp only [nextSandbox] at h
    split at h
    · split at h
      · split at h <;> cases h
        · exact .added hpc (by assumption) (by assumption)
        · exact .failed (.inr ⟨j, hpc⟩) (‹{ e : Exn // e.isException }›).property
      · cases h
        exact .notAdded hpc (by assumption) (by assumption)
    · cases h
      exact .allAdded hpc (List.getElem?_eq_none_iff.mp (by assumption))
  | submit j =>
    simp only [nextSandbox] at h
    split at h <;> cases h
    · exact .submitted hpc (by assumption)
    · exact .allSubmitted hpc (Nat.le_of_not_lt (by assumption))
  | wait =>
    simp only [nextSandbox] at h
    split at h <;> cases h
    rename_i hall
    exact .waited hpc (by simpa using hall)
  | report =>
    cases h
    exact .reported hpc
  | done r => cases h

theorem connectivity_moves {bound : Nat → State} (hpc : s.resource i j = some pc)
    (htesting : pc.testing) (hdone : pc.isDone = false)
    (hbound : ∀ b, s.binding r = some b → Moves conf s act (bound b)) :
    Moves conf s act (connectivity s i j r tests ok bound) := by
  unfold connectivity
  split
  · exact hbound _ (by assumption)
  · exact .work hpc hdone (fun _ => .inl htesting) (by simp)

theorem exception_ne (e : { e : Exn // e.isException }) :
    ResourcePc.done (.error e) ≠ .done (.error .keyboardInterrupt) := by
  intro hki
  have hexception := e.property
  simp only [ResourcePc.done.injEq, Except.error.injEq] at hki
  simp [hki, Exn.isException] at hexception

theorem runCommand_ne (s : State) (r : Nat) (reply : Reply) (at? : ResourcePc)
    (hat : at? ≠ .done (.error .keyboardInterrupt)) :
    (match commandReply s r reply with
      | .ok () => at?
      | .error e => .done (.error e)) ≠ .done (.error .keyboardInterrupt) := by
  split
  · exact hat
  · exact exception_ne _

theorem resource_moves (hpc : s.resource i j = some pc) (hr : (conf.resourcesOf i)[j]? = some r)
    (h : nextResource conf s i j r reply pc = some s') : Moves conf s (.resource i j reply) s' := by
  cases pc with
  | setup k =>
    simp only [nextResource, Option.some.injEq] at h
    subst h
    unfold runCommand
    split
    · rename_i command hcommand
      refine .setup hpc hr (List.getElem?_eq_some_iff.mp hcommand).1 ?_
        (runCommand_ne _ _ _ _ (by simp))
      split <;> rfl
    · exact .work hpc rfl (by simp [ResourcePc.testing]) (by simp)
  | teardown k =>
    simp only [nextResource, Option.some.injEq] at h
    subst h
    unfold runCommand
    split
    · exact .execute hpc hr rfl (runCommand_ne _ _ _ _ (by simp))
    · exact .work hpc rfl (by simp [ResourcePc.testing]) (by simp)
  | queued =>
    cases h
    exact .work hpc rfl (by simp [ResourcePc.testing]) (by simp)
  | check | checkLast =>
    cases h
    split
    · exact .stop hpc rfl (by assumption)
    · exact .work hpc rfl (by simp [ResourcePc.testing]) (by simp)
  | checkAgain =>
    cases h
    split
    · exact .stop hpc rfl (by assumption)
    split
    · exact .work hpc rfl (fun _ => .inr ⟨_, hr, by assumption⟩) (by simp)
    · exact .work hpc rfl (by simp [ResourcePc.testing]) (by simp)
  | suite =>
    simp only [nextResource] at h
    split at h <;> cases h
    exact .work hpc rfl (by simp [ResourcePc.testing]) (exception_ne _)
  | tests tests ok =>
    cases tests with
    | nil =>
      cases h
      exact .work hpc rfl (fun _ => .inl rfl) (by simp)
    | cons test tests =>
      simp only [nextResource] at h
      split at h
      · cases h
        exact .stop hpc rfl (by assumption)
      · split at h <;> cases h
        · exact .work hpc rfl (fun _ => .inl rfl) (by simp)
        · exact .work hpc rfl (fun _ => .inl rfl) (by simp)
  | plain | ending | done => cases h
  | lock tests ok =>
    simp only [nextResource] at h
    split at h <;> cases h
    exact .work hpc rfl (fun _ => .inl rfl) (by simp)
  | choose tests ok =>
    cases h
    refine connectivity_moves hpc rfl rfl fun b hb => ?_
    split
    · exact .work hpc rfl (fun _ => .inl rfl) (by simp)
    · exact .work hpc rfl (fun _ => .inl rfl) (by simp)
  | borrow tests ok dut =>
    cases h
    refine connectivity_moves hpc rfl rfl fun b hb => ?_
    split
    · exact .borrow hpc hr hb
    · exact .work hpc rfl (fun _ => .inl rfl) (by simp)
  | body tests ok dut =>
    cases h
    exact .work hpc rfl (fun _ => .inl rfl) (by simp)
  | giveBack tests ok dut =>
    cases h
    refine connectivity_moves hpc rfl rfl fun b hb => ?_
    split
    · exact .giveBack hpc hr hb
    · exact .work hpc rfl (fun _ => .inl rfl) (by simp)
  | report ok =>
    cases h
    exact .work hpc rfl (fun _ => .inl rfl) (by simp)
  | autoload =>
    cases h
    exact .work hpc rfl (by simp [ResourcePc.testing]) (by simp)

theorem step_moves (h : step conf s act = some s') : Moves conf s act s' := by
  cases act with
  | main => exact .main h
  | interrupt =>
    simp only [step, interrupt] at h
    split at h
    · cases h
    · split at h <;> cases h
      · exact .interrupt (.inl (by assumption))
      · exact .interrupt (.inr (by assumption))
  | sandbox i reply => exact sandbox_moves rfl h
  | result i j =>
    simp only [step, result] at h
    split at h
    · split at h <;> cases h
      rename_i hdone
      exact .raised (by assumption) (by assumption) hdone.1
    · cases h
  | resource i j reply =>
    simp only [step] at h
    split at h
    · exact resource_moves (by assumption) (by assumption) h
    · cases h
  | suite i j tests =>
    simp only [step] at h
    split at h <;> cases h
    rename_i hpc
    exact .work hpc rfl (fun _ => .inl rfl) (by simp)
  | command i j name text =>
    simp only [step] at h
    split at h
    · cases h
      exact .execute (by assumption) (by assumption) rfl (by simp)
    · cases h
  | skipTest i j =>
    simp only [step] at h
    split at h <;> cases h
    rename_i hpc
    exact .work hpc rfl (fun _ => .inl rfl) (by simp)
  | endTest i j ok =>
    simp only [step] at h
    split at h <;> cases h
    · rename_i hpc
      exact .work hpc rfl (fun _ => .inl rfl) (by simp)
    · rename_i hpc
      exact .work hpc rfl (fun _ => .inl rfl) (by simp)

end ShellTests.RunTests
