import ShellTests.CloudShell

/-!
# Broken dependencies

CloudShell reports that a driver's dependencies cannot be installed with an
error text; `resource_autoload` and `_execute_command` turn it into a
`DependenciesBrokenError`, and `ResourceHandler` keeps a flag for the tests
that come after it.
-/

namespace ShellTests.BrokenDependencies

open Prog

inductive Raised
  | dependenciesBroken
  | exn (e : Exn)
  deriving DecidableEq, Repr

def Raised.isException : Raised → Bool
  | .dependenciesBroken => true
  | .exn e => e.isException

inductive Event
  | autoLoad (r : Except Exn Unit)
  | updateResourceDriver (r : Except Exn Unit)
  | addAdditionalPorts (r : Except Exn Unit)
  | setChildrenAttributes (r : Except Exn Unit)
  | executeCommand (name : String) (kwargs : List (String × String)) (r : Except Exn String)
  | bodyStarted

/-- The answers, in the light of what was called before. The ports and the
children attributes take several calls, of which none raises a
`DependenciesBrokenError`. -/
structure Api where
  autoLoad : List Event → Except Exn Unit
  updateResourceDriver : List Event → Except Exn Unit
  addAdditionalPorts : List Event → Except Exn Unit
  setChildrenAttributes : List Event → Except Exn Unit
  executeCommand : List Event → String → List (String × String) → Except Exn String
  stopFlag : List Event → Bool

structure ResourceHandler where
  dependenciesAreBroken : Bool := false
  -- whether the resource was added to a sandbox
  hasSandboxHandler : Bool := true
  autoloadStarted : Bool := false
  autoloadFinished : Bool := false
  isAutoloadSuccess : Option Bool := none

structure Conf where
  additionalPorts : Bool := false
  childrenAttributes : Bool := false

abbrev Handler (α : Type) := Prog ResourceHandler Raised Event α

def ask (reply : List Event → Except Exn α) (event : Except Exn α → Event) : Handler α :=
  fun s log => ((reply log).mapError .exn, s, log ++ [event (reply log)])

variable (api : Api) (conf : Conf)

def pypiIsDown : String := "The PyPi server process might be down or inaccessible"

/-- `except CloudShellAPIError as e` of the two methods of `CloudShellHandler`. -/
def checkDependencies (m : Handler α) : Handler α :=
  tryCatch m fun e => match e with
    | .exn (.cloudShellApi _ message) =>
      if mentions pypiIsDown message then throw .dependenciesBroken else throw e
    | _ => throw e

def resourceAutoload : Handler Unit := checkDependencies (ask api.autoLoad .autoLoad)

def executeCommandOnResource (name : String) (kwargs : List (String × String)) : Handler String :=
  checkDependencies (ask (api.executeCommand · name kwargs) (.executeCommand name kwargs))

def setBroken : Handler Unit := modify fun h => { h with dependenciesAreBroken := true }

/-- `_autoload`: an exception of one `except` clause is not caught by the other. -/
def autoloadOnce : Handler Unit :=
  tryCatch (resourceAutoload api) fun e => match e with
    | .exn (.cloudShellApi code message) =>
      if code ≠ "129" ∧ message ≠ "no driver associated" then throw e
      else do
        ask api.updateResourceDriver .updateResourceDriver
        resourceAutoload api
    | .dependenciesBroken => do
      setBroken
      throw e
    | _ => throw e

def onlyIf (c : Bool) (m : Handler Unit) : Handler Unit := if c then m else pure ()

def additionalSteps : Handler Unit := do
  onlyIf conf.additionalPorts (ask api.addAdditionalPorts .addAdditionalPorts)
  onlyIf conf.childrenAttributes (ask api.setChildrenAttributes .setChildrenAttributes)

def autoloadBody : Handler Unit := do
  autoloadOnce api
  additionalSteps api conf

def endAutoload (success : Bool) : Handler Unit :=
  modify fun h => { h with isAutoloadSuccess := some success, autoloadFinished := true }

def autoload : Handler Unit := do
  modify fun h => { h with autoloadStarted := true }
  tryCatch (autoloadBody api conf) fun e => do
    onlyIf e.isException (endAutoload false)
    throw e
  endAutoload true
  modify fun h => { h with autoloadStarted := false }

def autoloadIfNeeded : Handler Unit := do
  let h ← get
  if h.autoloadFinished then pure ()
  -- another thread runs it, and this one waits for the end
  else if h.autoloadStarted then pure ()
  else autoload api conf

def executeCommand (name : String) (kwargs : List (String × String)) : Handler String :=
  tryCatch
    (do
      let h ← get
      if h.hasSandboxHandler then executeCommandOnResource api name kwargs
      else throw (.exn (.baseAutomation "You have to add Sandbox Handler")))
    fun e => match e with
      | .dependenciesBroken => do
        setBroken
        throw e
      | _ => throw e

/-- `BaseTestCase._callTestMethod`, up to the body of the test. -/
def startBody : Handler Unit := fun s log =>
  if api.stopFlag log then (.error (.exn .keyboardInterrupt), s, log)
  else (.ok (), s, log ++ [.bodyStarted])

/-- `BaseResourceServiceTestCase._callTestMethod` -/
def callTestMethod : Handler Unit := do
  let h ← get
  if h.dependenciesAreBroken then throw (.exn (.assertion "Dependencies are broken"))
  else startBody api

/-- What is done with a resource, by its thread or by the tests. -/
inductive Step
  | autoload
  | autoloadIfNeeded
  | executeCommand (name : String) (kwargs : List (String × String))
  | test
  deriving DecidableEq, Repr

def perform : Step → Handler Unit
  | .autoload => autoload api conf
  | .autoloadIfNeeded => autoloadIfNeeded api conf
  | .executeCommand name kwargs => do
    let _ ← executeCommand api name kwargs
  | .test => callTestMethod api

/-- A run: whoever takes a step may catch what it raises, and go on. -/
def run (steps : List Step) : Handler Unit := sweep (perform api conf) steps

-- ---------------------------------------------------------------------------
-- The flag stays
-- ---------------------------------------------------------------------------

variable {api : Api} {conf : Conf}

def Broken (h : ResourceHandler) (_ : List Event) : Prop := h.dependenciesAreBroken = true

def KeepsBroken (m : Handler α) : Prop := Hoare Broken m fun _ => Broken

theorem KeepsBroken.bind {m : Handler α} {f : α → Handler β} (hm : KeepsBroken m)
    (hf : ∀ a, KeepsBroken (f a)) : KeepsBroken (m >>= f) :=
  Hoare.bind hm hf fun _ _ _ h => h

theorem KeepsBroken.tryCatch {m : Handler α} {h : Raised → Handler α} (hm : KeepsBroken m)
    (hh : ∀ e, KeepsBroken (h e)) : KeepsBroken (tryCatch m h) :=
  Hoare.tryCatch' hm (fun _ _ _ h => h) hh

theorem keepsBroken_pure (a : α) : KeepsBroken (pure a) := .pure' fun _ _ h => h

theorem keepsBroken_throw (e : Raised) : KeepsBroken (throw e : Handler α) := .throw' fun _ _ h => h

theorem keepsBroken_get : KeepsBroken (get : Handler ResourceHandler) := .get' fun _ _ h => h

theorem keepsBroken_modify {f : ResourceHandler → ResourceHandler}
    (hf : ∀ h, h.dependenciesAreBroken = true → (f h).dependenciesAreBroken = true) :
    KeepsBroken (modify f : Handler PUnit) := .modify' fun h _ => hf h

theorem keepsBroken_ask (reply : List Event → Except Exn α) (event : Except Exn α → Event) :
    KeepsBroken (ask reply event) := fun _ _ h => ⟨_, _, _, rfl, h⟩

theorem keepsBroken_checkDependencies {m : Handler α} (hm : KeepsBroken m) :
    KeepsBroken (checkDependencies m) := by
  refine hm.tryCatch fun e => ?_
  split
  · split
    · exact keepsBroken_throw _
    · exact keepsBroken_throw _
  · exact keepsBroken_throw _

theorem keepsBroken_setBroken : KeepsBroken setBroken := keepsBroken_modify fun _ _ => rfl

theorem keepsBroken_autoloadOnce : KeepsBroken (autoloadOnce api) := by
  have hautoload : KeepsBroken (resourceAutoload api) :=
    keepsBroken_checkDependencies (keepsBroken_ask _ _)
  refine hautoload.tryCatch fun e => ?_
  split
  · split
    · exact keepsBroken_throw _
    · exact (keepsBroken_ask _ _).bind fun _ => hautoload
  · exact keepsBroken_setBroken.bind fun _ => keepsBroken_throw _
  · exact keepsBroken_throw _

theorem KeepsBroken.onlyIf {c : Bool} {m : Handler Unit} (hm : KeepsBroken m) :
    KeepsBroken (onlyIf c m) := by
  unfold BrokenDependencies.onlyIf
  split
  · exact hm
  · exact keepsBroken_pure _

theorem keepsBroken_additionalSteps : KeepsBroken (additionalSteps api conf) :=
  (keepsBroken_ask _ _).onlyIf.bind fun _ => (keepsBroken_ask _ _).onlyIf

theorem keepsBroken_endAutoload (success : Bool) : KeepsBroken (endAutoload success) :=
  keepsBroken_modify fun _ h => h

theorem keepsBroken_autoload : KeepsBroken (autoload api conf) := by
  refine .bind (keepsBroken_modify ?_) fun _ => .bind (.tryCatch ?_ fun e => ?_) fun _ =>
    (keepsBroken_endAutoload true).bind fun _ => keepsBroken_modify ?_
  · exact fun _ h => h
  · exact keepsBroken_autoloadOnce.bind fun _ => keepsBroken_additionalSteps
  · exact (keepsBroken_endAutoload false).onlyIf.bind fun _ => keepsBroken_throw e
  · exact fun _ h => h

theorem keepsBroken_perform (step : Step) : KeepsBroken (perform api conf step) := by
  cases step with
  | autoload => exact keepsBroken_autoload
  | autoloadIfNeeded =>
    refine keepsBroken_get.bind fun h => ?_
    split
    · exact keepsBroken_pure _
    split
    · exact keepsBroken_pure _
    · exact keepsBroken_autoload
  | executeCommand name kwargs =>
    refine .bind (.tryCatch (keepsBroken_get.bind fun h => ?_) fun e => ?_) fun _ =>
      keepsBroken_pure _
    · split
      · exact keepsBroken_checkDependencies (keepsBroken_ask _ _)
      · exact keepsBroken_throw _
    · split
      · exact keepsBroken_setBroken.bind fun _ => keepsBroken_throw _
      · exact keepsBroken_throw _
  | test =>
    refine keepsBroken_get.bind fun h => ?_
    split
    · exact keepsBroken_throw _
    · intro s log hs
      unfold startBody
      split
      · exact ⟨_, _, [], by rw [List.append_nil], hs⟩
      · exact ⟨_, _, _, rfl, hs⟩

theorem keepsBroken_run (steps : List Step) : KeepsBroken (run api conf steps) :=
  .each' fun step _ => (keepsBroken_perform step).tryCatch fun _ => keepsBroken_pure _

-- ---------------------------------------------------------------------------
-- When the error gets out
-- ---------------------------------------------------------------------------

/-- The first AutoLoad fails for want of a driver, the driver is updated, and
the second finds the dependencies broken. -/
def SecondBreaks (api : Api) (log : List Event) : Prop :=
  ∃ code message code' message',
    api.autoLoad log = .error (.cloudShellApi code message) ∧
    mentions pypiIsDown message = false ∧ (code = "129" ∨ message = "no driver associated") ∧
    api.updateResourceDriver (log ++ [.autoLoad (api.autoLoad log)]) = .ok () ∧
    api.autoLoad (log ++ [.autoLoad (api.autoLoad log), .updateResourceDriver (.ok ())]) =
      .error (.cloudShellApi code' message') ∧
    mentions pypiIsDown message' = true

def checked : Except Exn α → Except Raised α
  | .ok a => .ok a
  | .error (.cloudShellApi code message) =>
    if mentions pypiIsDown message then .error .dependenciesBroken
    else .error (.exn (.cloudShellApi code message))
  | .error e => .error (.exn e)

theorem checkDependencies_ask (reply : List Event → Except Exn α) (event : Except Exn α → Event)
    (s : ResourceHandler) (log : List Event) :
    checkDependencies (ask reply event) s log =
      (checked (reply log), s, log ++ [event (reply log)]) := by
  rw [checkDependencies, run_tryCatch, ask]
  rcases reply log with e | a
  · cases e <;> simp only [Except.mapError, checked]
    all_goals first | rfl | (split <;> rfl)
  · rfl

theorem checked_broken {r : Except Exn α} : checked r = .error .dependenciesBroken ↔
    ∃ code message, r = .error (.cloudShellApi code message) ∧
      mentions pypiIsDown message = true := by
  rcases r with e | a
  · cases e with
    | cloudShellApi code message =>
      cases hm : mentions pypiIsDown message <;> simp [checked, hm]
    | _ => simp [checked]
  · simp [checked]

theorem checked_cloudShellApi {r : Except Exn α} :
    checked r = .error (.exn (.cloudShellApi code message)) ↔
      r = .error (.cloudShellApi code message) ∧ mentions pypiIsDown message = false := by
  rcases r with e | a
  · cases e with
    | cloudShellApi code' message' =>
      cases hm : mentions pypiIsDown message' <;> simp [checked, hm]
      · rintro rfl rfl
        exact hm
      · rintro rfl rfl
        exact hm
    | _ => simp [checked]
  · simp [checked]

theorem resourceAutoload_eq (s : ResourceHandler) (log : List Event) :
    resourceAutoload api s log =
      (checked (api.autoLoad log), s, log ++ [.autoLoad (api.autoLoad log)]) :=
  checkDependencies_ask _ _ s log

/-- The flag is set when the first AutoLoad finds the dependencies broken, and
not when the second does. -/
theorem autoloadOnce_broken
    (h : autoloadOnce api s log = (.error .dependenciesBroken, s', log')) :
    s'.dependenciesAreBroken = true ∧ ¬ SecondBreaks api log ∨ s' = s ∧ SecondBreaks api log := by
  rw [autoloadOnce, run_tryCatch, resourceAutoload_eq] at h
  cases hfirst : checked (api.autoLoad log) with
  | ok _ => simp [hfirst] at h
  | error e =>
    rw [hfirst] at h
    dsimp only at h
    split at h
    · rename_i code message
      obtain ⟨hlog, hm⟩ := checked_cloudShellApi.mp hfirst
      split at h
      · cases h
      · rename_i hcode
        rw [run_bind, ask] at h
        cases hupdate : api.updateResourceDriver (log ++ [.autoLoad (api.autoLoad log)]) with
        | error e => simp [hupdate, Except.mapError] at h
        | ok _ =>
          simp only [hupdate, Except.mapError, resourceAutoload_eq, List.append_assoc,
            List.cons_append, List.nil_append] at h
          obtain ⟨hsecond, hs⟩ := Prod.mk.inj h
          obtain ⟨code', message', hlog', hm'⟩ := checked_broken.mp hsecond
          refine .inr ⟨(congrArg Prod.fst hs).symm, code, message, code', message', hlog, hm, ?_,
            hupdate, hlog', hm'⟩
          exact Decidable.or_iff_not_not_and_not.mpr hcode
    · -- the sibling clause
      obtain ⟨code, message, hlog, hm⟩ := checked_broken.mp hfirst
      refine .inl ⟨?_, ?_⟩
      · obtain ⟨-, hs⟩ := Prod.mk.inj h
        rw [← (Prod.mk.inj hs).1]
      · rintro ⟨code', message', -, -, hlog', hm', -⟩
        simp_all
    · rename_i hne
      obtain rfl := Except.error.inj (Prod.mk.inj h).1
      exact absurd rfl hne

theorem ask_not_broken (reply : List Event → Except Exn α) (event : Except Exn α → Event)
    (s : ResourceHandler) (log : List Event) :
    (ask reply event s log).1 ≠ .error .dependenciesBroken := by
  rw [ask]
  cases reply log <;> simp [Except.mapError]

theorem onlyIf_ask_not_broken (c : Bool) (reply : List Event → Except Exn Unit)
    (event : Except Exn Unit → Event) (s : ResourceHandler) (log : List Event) :
    (onlyIf c (ask reply event) s log).1 ≠ .error .dependenciesBroken := by
  cases c
  · simp [onlyIf]
  · exact ask_not_broken reply event s log

theorem additionalSteps_not_broken (s : ResourceHandler) (log : List Event) :
    (additionalSteps api conf s log).1 ≠ .error .dependenciesBroken := by
  have hports := onlyIf_ask_not_broken conf.additionalPorts api.addAdditionalPorts
    .addAdditionalPorts s log
  rw [additionalSteps, run_bind]
  split
  · exact onlyIf_ask_not_broken _ _ _ _ _
  · rename_i h
    rwa [h] at hports

theorem autoloadBody_broken
    (h : autoloadBody api conf s log = (.error .dependenciesBroken, s', log')) :
    autoloadOnce api s log = (.error .dependenciesBroken, s', log') := by
  rw [autoloadBody, run_bind] at h
  split at h
  · exact absurd (congrArg Prod.fst h) (additionalSteps_not_broken _ _)
  · rename_i e _ _ honce
    rw [honce, ← h]

theorem autoload_broken (h : autoload api conf s log = (.error .dependenciesBroken, s', log')) :
    s'.dependenciesAreBroken = true ↔
      ¬ (s.dependenciesAreBroken = false ∧ SecondBreaks api log) := by
  rw [autoload, run_bind, run_modify] at h
  dsimp only at h
  rw [run_bind, run_tryCatch] at h
  rcases hbody : autoloadBody api conf { s with autoloadStarted := true } log with ⟨r, s₁, log₁⟩
  rw [hbody] at h
  cases r with
  | ok _ => cases h
  | error e =>
    obtain ⟨rfl, hs⟩ : e = .dependenciesBroken ∧
        s'.dependenciesAreBroken = s₁.dependenciesAreBroken := by
      cases he : e.isException <;>
        simp only [onlyIf, he, run_bind, run_throw, run_pure, endAutoload, run_modify, if_true,
          Bool.false_eq_true, if_false, Prod.mk.injEq, Except.error.injEq] at h
      · exact ⟨h.1, by rw [← h.2.1]⟩
      · exact ⟨h.1, by rw [← h.2.1]⟩
    rw [hs]
    obtain ⟨hflag, hno⟩ | ⟨rfl, hyes⟩ := autoloadOnce_broken (autoloadBody_broken hbody)
    · simp [hflag, hno]
    · simp [hyes]

theorem executeCommand_broken
    (h : executeCommand api name kwargs s log = (.error .dependenciesBroken, s', log')) :
    s'.dependenciesAreBroken = true := by
  rw [executeCommand, run_tryCatch] at h
  split at h
  · cases h
  · split at h
    · obtain ⟨-, hs⟩ := Prod.mk.inj h
      rw [← (Prod.mk.inj hs).1]
    · rename_i hne
      obtain rfl := Except.error.inj (Prod.mk.inj h).1
      exact absurd rfl hne

/-- A step of a run in which the error gets past the clause that sets the flag. -/
def Missed (api : Api) (s : ResourceHandler) (log : List Event) : Step → Prop
  | .autoload => s.dependenciesAreBroken = false ∧ SecondBreaks api log
  | .autoloadIfNeeded => s.autoloadFinished = false ∧ s.autoloadStarted = false ∧
      s.dependenciesAreBroken = false ∧ SecondBreaks api log
  | _ => False

theorem perform_broken (step : Step)
    (h : perform api conf step s log = (.error .dependenciesBroken, s', log')) :
    s'.dependenciesAreBroken = true ↔ ¬ Missed api s log step := by
  cases step with
  | autoload => exact autoload_broken h
  | autoloadIfNeeded =>
    rw [perform, autoloadIfNeeded, run_bind, run_get] at h
    dsimp only at h
    split at h
    · cases h
    split at h
    · cases h
    · rw [autoload_broken h]
      simp_all [Missed]
  | executeCommand name kwargs =>
    rw [perform, run_bind] at h
    split at h
    · cases h
    · rename_i hcommand
      obtain ⟨he, hs⟩ := Prod.mk.inj h
      rw [Except.error.inj he, (Prod.mk.inj hs).1] at hcommand
      simp [executeCommand_broken hcommand, Missed]
  | test =>
    rw [perform, callTestMethod, run_bind, run_get] at h
    dsimp only at h
    split at h
    · cases h
    · unfold startBody at h
      split at h <;> cases h

/-- Whatever is done with the resource from here on, the flag is set, and a
test fails before its body. -/
def Remembered (api : Api) (conf : Conf) (s : ResourceHandler) (log : List Event) : Prop :=
  ∀ later r s' log', run api conf later s log = (r, s', log') →
    s'.dependenciesAreBroken = true ∧
      perform api conf .test s' log' =
        (.error (.exn (.assertion "Dependencies are broken")), s', log')

theorem remembered_of_broken (h : s.dependenciesAreBroken = true) :
    Remembered api conf s log := by
  intro later r s' log' hrun
  obtain ⟨_, _, _, hrun', hbroken⟩ := keepsBroken_run later s log h
  rw [hrun] at hrun'
  obtain ⟨-, hs⟩ := Prod.mk.inj hrun'
  rw [← (Prod.mk.inj hs).1] at hbroken
  have hflag : s'.dependenciesAreBroken = true := hbroken
  exact ⟨hflag, by simp [perform, callTestMethod, run_bind, hflag]⟩

/-- An escaped error is remembered for the rest of the run unless it came from
the second AutoLoad of `_autoload`. -/
theorem broken_remembered_iff (api : Api) (conf : Conf) (step : Step)
    (h : perform api conf step s log = (.error .dependenciesBroken, s', log')) :
    Remembered api conf s' log' ↔ ¬ Missed api s log step := by
  rw [← perform_broken step h]
  constructor
  · exact fun hr => (hr [] _ _ _ rfl).1
  · exact remembered_of_broken

def answering (first second : Except Exn Unit) : Api where
  autoLoad log := if log.isEmpty then first else second
  updateResourceDriver _ := .ok ()
  addAdditionalPorts _ := .ok ()
  setChildrenAttributes _ := .ok ()
  executeCommand _ _ _ := .ok ""
  stopFlag _ := false

def noDriver : Exn := .cloudShellApi "129" "no driver associated"
def pypiDown : Exn := .cloudShellApi "100" pypiIsDown

theorem broken_remembered_once : ∃ s' log',
    perform (answering (.error pypiDown) (.ok ())) {} .autoload {} [] =
      (.error .dependenciesBroken, s', log') ∧
    Remembered (answering (.error pypiDown) (.ok ())) {} s' log' := by
  have h : perform (answering (.error pypiDown) (.ok ())) {} .autoload {} [] =
      (.error .dependenciesBroken, _, _) := rfl
  refine ⟨_, _, h, (broken_remembered_iff _ _ _ h).mpr ?_⟩
  rintro ⟨-, code, message, -, -, hfirst, hm, -⟩
  obtain ⟨rfl, rfl⟩ := Exn.cloudShellApi.inj (Except.error.inj hfirst)
  exact absurd hm (by decide)

/-- The second AutoLoad lets the error out, and the next test runs its body. -/
theorem broken_forgotten : ∃ s' log',
    perform (answering (.error noDriver) (.error pypiDown)) {} .autoload {} [] =
      (.error .dependenciesBroken, s', log') ∧
    s'.dependenciesAreBroken = false ∧
    perform (answering (.error noDriver) (.error pypiDown)) {} .test s' log' =
      (.ok (), s', log' ++ [.bodyStarted]) ∧
    ¬ Remembered (answering (.error noDriver) (.error pypiDown)) {} s' log' := by
  refine ⟨_, _, rfl, rfl, rfl, fun h => ?_⟩
  exact absurd (h [] _ _ _ rfl).1 (by decide)

end ShellTests.BrokenDependencies
