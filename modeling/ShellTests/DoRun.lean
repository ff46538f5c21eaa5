import Mathlib.Logic.Function.Basic
import Mathlib.Data.List.Perm.Basic
import ShellTests.Lib.Machine
import ShellTests.DoHandler

/-!
# The with statement of a DoHandler

Main submits the tasks, waits for them and updates the config; the tasks end in
any order, and the user may interrupt main once in `prepare`. A task, and the
end of one reservation, are one step each.
-/

namespace ShellTests.DoRun

open Machine Prog

inductive Task
  | cs
  | app (i : Nat)
  deriving DecidableEq, Repr

inductive Future (α : Type)
  | absent
  | pending
  | done (r : Except Exn α)
  deriving DecidableEq, Repr

inductive Finish
  -- if self._conf.do_conf.cs_on_do_conf is not None
  | cs
  -- for sandbox_handler in self._sandbox_handlers; these are to come
  | apps (remaining : List SandboxHandler)
  deriving DecidableEq, Repr

/-- The line that main is about to run; the exception `e` is on its way. -/
inductive Main
  | submitCs
  | submitApps (i : Nat)
  -- for future in ft.as_completed(app_futures); these are to come
  | collect (futures : List Nat)
  | resultCs
  | join (e : Option Exn)
  -- the except clause of `prepare`
  | caught (e : Exn)
  | body
  | finishing (inPrepare : Bool) (e : Option Exn) (at? : Finish)
  | left (e : Option Exn)
  deriving DecidableEq, Repr

structure State where
  main : Main := .submitCs
  csFuture : Future CloudShellConfig := .absent
  appFuture : Nat → Future DeploymentResourceHandler := fun _ => .absent
  -- `_cs_on_do_sandbox_handler` and `_sandbox_handlers`
  csHandler : Option SandboxHandler := none
  appHandlers : List SandboxHandler := []
  csConf : Option CloudShellConfig := none
  resourcesConf : List ResourceConfig := []
  interrupted : Bool := false
  -- the calls to Do, with the task that made them or `none` for main
  log : List (Option Task × Event) := []

/-- Main runs its next line; the user interrupts it; a task runs; main looks at
the app future `i`; the block of the with statement ends; `finish` ends the
reservation of CloudShell, or one that its loop has still to come to. -/
inductive Act
  | next
  | interrupt
  | complete (task : Task) (api : Api)
  | collect (i : Nat) (api : Api)
  | leaveBody (e : Option Exn)
  | endCs (api : Api)
  | endApp (i : Nat) (api : Api)

def State.record (s : State) (caller : Option Task) (evs : List Event) : State :=
  { s with log := s.log ++ evs.map (caller, ·) }

def deletesCs (conf : DoConfig) : Bool := conf.csOnDoConf.any (·.deleteCs)

def Future.isPending : Future α → Bool
  | .pending => true
  | _ => false

def allDone (conf : DoConfig) (s : State) : Bool :=
  !s.csFuture.isPending && (List.range conf.networkingApps.length).all fun i =>
    !(s.appFuture i).isPending

def nextFinish (conf : DoConfig) (s : State) (inPrepare : Bool) (e : Option Exn) :
    Finish → Option State
  | .cs =>
    if deletesCs conf then
      match s.csHandler with
      | none => some { s with main := .finishing inPrepare e (.apps s.appHandlers) }
      | some _ => none
    else if conf.csOnDoConf.isSome && s.csConf.isNone then
      -- self._conf.cs_conf.host
      some { s with main := .left (some (.attribute "'NoneType' object has no attribute 'host'")) }
    else some { s with main := .finishing inPrepare e (.apps s.appHandlers) }
  | .apps [] => some { s with main := .left e }
  | .apps _ => none

def next (conf : DoConfig) (s : State) : Option State :=
  match s.main with
  | .submitCs =>
    some { s with
      main := .submitApps 0
      csFuture := if conf.csOnDoConf.isSome then .pending else .absent }
  | .submitApps i =>
    if i < conf.networkingApps.length then
      some { s with
        main := .submitApps (i + 1)
        appFuture := Function.update s.appFuture i .pending }
    else some { s with main := .collect (List.range conf.networkingApps.length) }
  | .collect [] => some { s with main := if conf.csOnDoConf.isSome then .resultCs else .join none }
  | .resultCs =>
    match s.csFuture with
    | .done (.ok csConf) => some { s with main := .join none, csConf := some csConf }
    | .done (.error e) => some { s with main := .join (some e) }
    | _ => none
  | .join e =>
    if allDone conf s then some { s with main := e.elim .body .caught } else none
  | .caught e =>
    some { s with main := if e.isException then .finishing true (some e) .cs else .left (some e) }
  | .finishing inPrepare e finish => nextFinish conf s inPrepare e finish
  | _ => none

/-- Where a KeyboardInterrupt takes main to; `prepare` catches none. -/
def interruptedAt : Main → Option Main
  | .submitCs | .submitApps _ | .collect _ | .resultCs => some (.join (some .keyboardInterrupt))
  | .join _ => some (.caught .keyboardInterrupt)
  | .caught _ | .finishing true _ _ => some (.left (some .keyboardInterrupt))
  | _ => none

def complete (conf : DoConfig) (s : State) (api : Api) : Task → Option State
  | .cs =>
    match s.csFuture, conf.csOnDoConf with
    | .pending, some csOnDoConf =>
      let (r, csHandler, evs) := CSCreator.createCloudshell api csOnDoConf s.csHandler []
      some ({ s with csFuture := .done r, csHandler }.record (some .cs) evs)
    | _, _ => none
  | .app i =>
    match s.appFuture i, conf.networkingApps[i]? with
    | .pending, some appConf =>
      let (r, appHandlers, evs) := NetworkingAppsHandler.createApp api appConf s.appHandlers []
      some ({ s with appFuture := Function.update s.appFuture i (.done r), appHandlers }.record
        (some (.app i)) evs)
    | _, _ => none

def collect (s : State) (i : Nat) (api : Api) : Option State :=
  match s.main, s.appFuture i with
  | .collect futures, .done r =>
    if i ∈ futures then
      match r with
      | .error e => some { s with main := .join (some e) }
      | .ok handler =>
        let (r, resourcesConf, evs) := updateResourceConf api handler s.resourcesConf []
        let main := match r with
          | .ok _ => .collect (futures.erase i)
          | .error e => .join (some e)
        some ({ s with main, resourcesConf }.record none evs)
    else none
  | _, _ => none

/-- One EndReservation of `finish`, and where main goes when it does not raise. -/
def endOne (s : State) (handler : SandboxHandler) (api : Api) (main : Main) : State :=
  let (r, _, evs) := (SandboxHandler.endReservation api handler false : Cs Unit Unit) () []
  match r with
  | .ok _ => { s with main }.record none evs
  | .error e => { s with main := .left (some e) }.record none evs

def step (conf : DoConfig) (s : State) : Act → Option State
  | .next => next conf s
  | .interrupt =>
    if s.interrupted then none
    else (interruptedAt s.main).map fun main => { s with main, interrupted := true }
  | .complete task api => complete conf s api task
  | .collect i api => collect s i api
  | .leaveBody e =>
    if s.main = .body then some { s with main := .finishing false e .cs } else none
  | .endCs api =>
    match s.main, s.csHandler with
    | .finishing inPrepare e .cs, some handler =>
      if deletesCs conf then
        some (endOne s handler api (.finishing inPrepare e (.apps s.appHandlers)))
      else none
    | _, _ => none
  | .endApp i api =>
    match s.main with
    | .finishing inPrepare e (.apps remaining) =>
      remaining[i]?.map fun handler =>
        endOne s handler api (.finishing inPrepare e (.apps (remaining.eraseIdx i)))
    | _ => none

def init (s : State) : Prop := ∃ csConf resourcesConf, s = { csConf, resourcesConf }

-- ---------------------------------------------------------------------------
-- What a step can do
-- ---------------------------------------------------------------------------

variable {conf : DoConfig} {s : State}

/-- Main is still in `_prepare`, or has left it with what `prepare` does not catch. -/
def Main.working : Main → Bool
  | .submitCs | .submitApps _ | .collect _ | .resultCs | .join _ => true
  | .caught e => !e.isException
  | _ => false

inductive Moves (conf : DoConfig) (s : State) : Act → State → Prop
  | work : s.main.working → main.working → main ≠ .submitCs → (∀ e ∈ evs, e.reserved? = none) →
      Moves conf s act ({ s with main, csConf, resourcesConf, interrupted }.record none evs)
  | submitCs : s.main = .submitCs → (∀ r, csFuture ≠ .done r) →
      Moves conf s .next { s with main := .submitApps 0, csFuture }
  | submitApp : s.main = .submitApps i → i < conf.networkingApps.length →
      Moves conf s .next
        { s with main := .submitApps (i + 1), appFuture := Function.update s.appFuture i .pending }
  | prepared : s.main.working → allDone conf s → main = .body ∨ (∃ e, main = .caught e) →
      Moves conf s .next { s with main }
  | failed : s.main = .caught e → e.isException →
      Moves conf s .next { s with main := .finishing true (some e) .cs }
  | escaped : s.main = .caught e → ¬ e.isException →
      Moves conf s .next { s with main := .left (some e) }
  | interrupted : (∃ e, s.main = .caught e) ∨ (∃ e finish, s.main = .finishing true e finish) →
      Moves conf s .interrupt
        { s with main := .left (some .keyboardInterrupt), interrupted := true }
  | bodyEnded : s.main = .body →
      Moves conf s (.leaveBody e) { s with main := .finishing false e .cs }
  | csKept : s.main = .finishing inPrepare e .cs → (deletesCs conf → s.csHandler = none) →
      Moves conf s .next { s with main := .finishing inPrepare e (.apps s.appHandlers) }
  | csUnknown : s.main = .finishing inPrepare e .cs → ¬ deletesCs conf → conf.csOnDoConf ≠ none →
      s.csConf = none → Moves conf s .next { s with main := .left e' }
  | csEnded : s.main = .finishing inPrepare e .cs → deletesCs conf → s.csHandler = some handler →
      s' = endOne s handler api (.finishing inPrepare e (.apps s.appHandlers)) →
        Moves conf s (.endCs api) s'
  | appEnded : s.main = .finishing inPrepare e (.apps remaining) → remaining[i]? = some handler →
      s' = endOne s handler api (.finishing inPrepare e (.apps (remaining.eraseIdx i))) →
      Moves conf s (.endApp i api) s'
  | finished : s.main = .finishing inPrepare e (.apps []) →
      Moves conf s .next { s with main := .left e }
  | csCreated : s.csFuture = .pending →
      CSCreator.createCloudshell api csOnDoConf s.csHandler [] = (r, csHandler, evs) →
      Moves conf s (.complete .cs api)
        ({ s with csFuture := .done r, csHandler }.record (some .cs) evs)
  | appCreated : s.appFuture i = .pending →
      i < conf.networkingApps.length →
      NetworkingAppsHandler.createApp api appConf s.appHandlers [] = (r, appHandlers, evs) →
      Moves conf s (.complete (.app i) api)
        ({ s with appFuture := Function.update s.appFuture i (.done r), appHandlers }.record
          (some (.app i)) evs)

theorem moves_work (hmain : s.main.working) (hmain' : main.working) (hnew : main ≠ .submitCs) :
    Moves conf s act { s with main, csConf, resourcesConf, interrupted } := by
  have hnone : ∀ e ∈ ([] : List Event), e.reserved? = none := by simp
  have h : Moves conf s act ({ s with main, csConf, resourcesConf, interrupted }.record none []) :=
    .work hmain hmain' hnew hnone
  simpa [State.record] using h

theorem updateResourceConf_emits (api : Api) (handler : DeploymentResourceHandler)
    (confs : List ResourceConfig) :
    Triple (updateResourceConf api handler) confs fun _ _ evs => ∀ e ∈ evs, e.reserved? = none := by
  refine .bind (.get' (Q := fun _ _ evs => evs = []) rfl) ?_ (by rintro _ _ _ rfl; simp)
  rintro confs' s' evs rfl
  split
  · exact .throw' (by simp)
  · refine .bind
      (.call' (Q := fun _ _ evs => ∀ e ∈ evs, e.reserved? = none) fun r => by simp; rfl) ?_ ?_
    · exact fun info s'' evs hevs => .modify' (by simpa using hevs)
    · exact fun _ _ _ h => by simpa using h

theorem nextFinish_moves (hmain : s.main = .finishing inPrepare e finish)
    (h : nextFinish conf s inPrepare e finish = some s') : Moves conf s .next s' := by
  unfold nextFinish at h
  split at h
  · split at h
    · split at h <;> cases h
      exact .csKept hmain fun _ => by assumption
    · rename_i hdeletes
      split at h
      · rename_i hunknown
        cases h
        simp only [Bool.and_eq_true, Option.isSome_iff_ne_none,
          Option.isNone_iff_eq_none] at hunknown
        exact .csUnknown hmain hdeletes hunknown.1 hunknown.2
      · cases h
        exact .csKept hmain fun h => (hdeletes h).elim
  · cases h
    exact .finished hmain
  · cases h

theorem next_moves (h : next conf s = some s') : Moves conf s .next s' := by
  unfold next at h
  split at h
  · rename_i hmain
    cases h
    refine .submitCs hmain fun r => ?_
    split <;> simp
  · rename_i i hmain
    split at h <;> cases h
    · exact .submitApp hmain (by assumption)
    · exact moves_work (by rw [hmain]; rfl) rfl (by simp)
  · rename_i hmain
    cases h
    refine moves_work (by rw [hmain]; rfl) ?_ ?_ <;> (split <;> simp [Main.working])
  · rename_i hmain
    split at h <;> cases h
    · exact moves_work (by rw [hmain]; rfl) rfl (by simp)
    · exact moves_work (by rw [hmain]; rfl) rfl (by simp)
  · rename_i e hmain
    split at h <;> cases h
    refine .prepared (by rw [hmain]; rfl) (by assumption) ?_
    cases e with
    | none => exact .inl rfl
    | some e => exact .inr ⟨e, rfl⟩
  · rename_i e hmain
    cases h
    split
    · exact .failed hmain (by assumption)
    · exact .escaped hmain (by assumption)
  · exact nextFinish_moves (by assumption) h
  · cases h

theorem interrupt_moves (h : interruptedAt s.main = some main) :
    Moves conf s .interrupt { s with main, interrupted := true } := by
  unfold interruptedAt at h
  split at h <;> cases h
  case h_6 hmain => exact .interrupted (.inl ⟨_, hmain⟩)
  case h_7 hmain => exact .interrupted (.inr ⟨_, _, hmain⟩)
  all_goals
    rename_i hmain
    exact moves_work (by rw [hmain]; rfl) rfl (by simp)

theorem complete_moves (h : complete conf s api task = some s') :
    Moves conf s (.complete task api) s' := by
  cases task with
  | cs =>
    simp only [complete] at h
    split at h
    · cases h
      exact .csCreated (by assumption) rfl
    · cases h
  | app i =>
    simp only [complete] at h
    split at h
    · rename_i appConf hpending hconf
      cases h
      exact .appCreated hpending (List.getElem?_eq_some_iff.mp hconf).1 rfl
    · cases h

theorem collect_moves (h : collect s i api = some s') : Moves conf s (.collect i api) s' := by
  unfold collect at h
  split at h
  · rename_i futures r hmain hdone
    split at h
    · split at h
      · cases h
        exact moves_work (by rw [hmain]; rfl) rfl (by simp)
      · rename_i handler
        obtain ⟨r, confs, evs, hrun, hevs⟩ :=
          updateResourceConf_emits api handler s.resourcesConf []
        rw [hrun] at h
        cases h
        refine .work (by rw [hmain]; rfl) ?_ ?_ (by simpa using hevs) <;>
          cases r <;> simp [Main.working]
    · cases h
  · cases h

theorem step_moves (h : step conf s act = some s') : Moves conf s act s' := by
  cases act with
  | next => exact next_moves h
  | interrupt =>
    simp only [step] at h
    split at h
    · cases h
    · obtain ⟨main, hmain, rfl⟩ := Option.map_eq_some_iff.mp h
      exact interrupt_moves hmain
  | complete task api => exact complete_moves h
  | collect i api => exact collect_moves h
  | leaveBody e =>
    simp only [step] at h
    split at h <;> cases h
    exact .bodyEnded (by assumption)
  | endCs api =>
    simp only [step] at h
    split at h
    · split at h <;> cases h
      exact .csEnded (by assumption) (by assumption) (by assumption) rfl
    · cases h
  | endApp i api =>
    simp only [step] at h
    split at h
    · obtain ⟨handler, hhandler, rfl⟩ := Option.map_eq_some_iff.mp h
      exact .appEnded (by assumption) hhandler rfl
    · cases h

-- ---------------------------------------------------------------------------
-- What is still to be ended
-- ---------------------------------------------------------------------------

def answersFor (conf : DoConfig) : Option Task → Bool
  | some (.app _) => true
  | some .cs => deletesCs conf
  | none => false

def owed (conf : DoConfig) (log : List (Option Task × Event)) : List ReservationId :=
  reserved ((log.filter fun call => answersFor conf call.1).map (·.2))

def endedOn (log : List (Option Task × Event)) : List ReservationId := ended (log.map (·.2))

theorem owed_record (s : State) (caller : Option Task) (evs : List Event) :
    owed conf (s.record caller evs).log =
      owed conf s.log ++ if answersFor conf caller then reserved evs else [] := by
  have hfilter : ((evs.map (caller, ·)).filter fun call => answersFor conf call.1).map (·.2) =
      if answersFor conf caller then evs else [] := by
    by_cases hcaller : answersFor conf caller <;> simp [hcaller, List.filter_map, Function.comp_def]
  simp only [owed, State.record, List.filter_append, List.map_append, reserved_append, hfilter]
  split <;> rfl

theorem endedOn_record (s : State) (caller : Option Task) (evs : List Event) :
    endedOn (s.record caller evs).log = endedOn s.log ++ ended evs := by
  simp [endedOn, State.record, Function.comp_def]

def Covered (conf : DoConfig) (log : List (Option Task × Event))
    (held : List ReservationId) : Prop :=
  ∀ rid, (owed conf log).count rid ≤ (endedOn log).count rid + held.count rid

def held (conf : DoConfig) (s : State) : List ReservationId :=
  (if deletesCs conf then heldBy s.csHandler else []) ++ s.appHandlers.map (·.reservationId)

def toCome (conf : DoConfig) (s : State) : Finish → List ReservationId
  | .cs => held conf s
  | .apps remaining => remaining.map (·.reservationId)

def toEnd (conf : DoConfig) (s : State) : List ReservationId :=
  match s.main with
  | .finishing _ _ finish => toCome conf s finish
  | .left _ => []
  | _ => held conf s

/-- Main leaves `prepare` with what is not an `Exception`, or leaves `finish`
before its end, only while no handler is still to come. -/
def Unhindered (conf : DoConfig) (s : State) : Act → Prop
  | .next =>
    (∀ e, s.main = .caught e → ¬ e.isException → held conf s = [] ∧ allDone conf s) ∧
      ∀ inPrepare e, s.main = .finishing inPrepare e .cs → ¬ deletesCs conf →
        conf.csOnDoConf ≠ none →
        s.csConf = none → s.appHandlers = []
  | .interrupt =>
    (∀ e, s.main = .caught e → held conf s = [] ∧ allDone conf s) ∧
      ∀ e finish, s.main = .finishing true e finish → toCome conf s finish = []
  | .endCs api => ∀ handler, s.csHandler = some handler →
      Raises (SandboxHandler.endReservation api handler false : Cs Unit Unit) () [] →
        s.appHandlers = []
  | .endApp i api =>
      ∀ inPrepare e remaining handler, s.main = .finishing inPrepare e (.apps remaining) →
      remaining[i]? = some handler →
      Raises (SandboxHandler.endReservation api handler false : Cs Unit Unit) () [] →
      remaining.eraseIdx i = []
  | _ => True

structure Inv (conf : DoConfig) (s : State) : Prop where
  covered : Covered conf s.log (toEnd conf s)
  -- no attempt was made before the task of CloudShell ran
  fresh : (∀ r, s.csFuture ≠ .done r) → s.csHandler = none
  begins : s.main = .submitCs → s.csFuture = .absent
  idle : s.main.working = false → allDone conf s

theorem pending_not_done (h : allDone conf s) :
    s.csFuture ≠ .pending ∧ ∀ i < conf.networkingApps.length, s.appFuture i ≠ .pending := by
  simp only [allDone, Bool.and_eq_true, List.all_eq_true, List.mem_range, Bool.not_eq_true'] at h
  obtain ⟨hcs, happs⟩ := h
  refine ⟨fun hpending => by simp [hpending, Future.isPending] at hcs, fun i hi hpending => ?_⟩
  have hi' := happs i hi
  simp [hpending, Future.isPending] at hi'

theorem toEnd_working (h : s.main.working) : toEnd conf s = held conf s := by
  unfold toEnd
  split
  · rename_i hmain
    rw [hmain] at h
    cases h
  · rename_i hmain
    rw [hmain] at h
    cases h
  · rfl

theorem covered_main (h : Covered conf s.log reservations) :
    Covered conf (s.record none evs).log reservations := by
  intro rid
  have hrid := h rid
  rw [owed_record, endedOn_record]
  simp only [answersFor, Bool.false_eq_true, if_false, List.append_nil, List.count_append]
  omega

theorem covered_task (task : Task) (h : Covered conf s.log reservations) (hevs : Balanced new evs) :
    Covered conf (s.record (some task) evs).log
      (reservations ++ if answersFor conf (some task) then new else []) := by
  intro rid
  have hrid := h rid
  have hnew := hevs rid
  rw [owed_record, endedOn_record]
  split <;> simp only [List.count_append, List.count_nil] <;> omega

theorem endOne_eq (s : State) (handler : SandboxHandler) (api : Api) (main : Main) :
    ∃ evs, ended evs = [handler.reservationId] ∧
      (endOne s handler api main = { s with main }.record none evs ∨
        Raises (SandboxHandler.endReservation api handler false : Cs Unit Unit) () [] ∧
          ∃ e, endOne s handler api main = { s with main := .left (some e) }.record none evs) := by
  obtain ⟨r, u, evs, hrun, -, -, hended⟩ := endReservation_ends api handler () []
  refine ⟨evs, hended, ?_⟩
  unfold endOne
  rw [hrun]
  cases r with
  | ok _ => exact .inl rfl
  | error e => exact .inr ⟨⟨e, by rw [hrun]⟩, e, rfl⟩

theorem covered_endOne (h : Covered conf s.log reservations)
    (hrest : reservations.Perm (handler.reservationId :: rest))
    (hraises : Raises (SandboxHandler.endReservation api handler false : Cs Unit Unit) () [] →
      rest = [])
    (hmain : toEnd conf { s with main } = rest) :
    Covered conf (endOne s handler api main).log (toEnd conf (endOne s handler api main)) := by
  obtain ⟨evs, hended, heq⟩ := endOne_eq s handler api main
  have hcovered : Covered conf (s.record none evs).log rest := by
    intro rid
    have hrid := h rid
    rw [owed_record, endedOn_record, hended]
    rw [hrest.count_eq rid, List.count_cons] at hrid
    simp only [answersFor, Bool.false_eq_true, if_false, List.append_nil, List.count_append,
      List.count_cons, List.count_nil]
    omega
  rcases heq with heq | ⟨hr, e, heq⟩
  · rw [heq]
    have hsame : toEnd conf ({ s with main }.record none evs) = rest := hmain
    rw [hsame]
    exact hcovered
  · rw [heq]
    have hnil : rest = [] := hraises hr
    rw [hnil] at hcovered
    exact hcovered

theorem inv_main (h : Inv conf s) (hsame : toEnd conf s = toEnd conf { s with main, interrupted })
    (hnew : main ≠ .submitCs) (hidle : main.working = false → allDone conf s) :
    Inv conf { s with main, interrupted } :=
  ⟨hsame ▸ h.covered, h.fresh, fun hbegins => (hnew hbegins).elim, hidle⟩

theorem idle_of (h : Inv conf s) (hmain : s.main = main) (hidle : main.working = false) :
    allDone conf s :=
  h.idle (by rw [hmain, hidle])

theorem held_csKept (h : deletesCs conf → s.csHandler = none) :
    held conf s = s.appHandlers.map (·.reservationId) := by
  unfold held
  split
  · simp [h (by assumption), heldBy]
  · rfl

theorem inv_endOne (rest : List ReservationId) (h : Inv conf s) (hidle : allDone conf s)
    (hrest : (toEnd conf s).Perm (handler.reservationId :: rest))
    (hraises : Raises (SandboxHandler.endReservation api handler false : Cs Unit Unit) () [] →
      rest = [])
    (hmain : toEnd conf { s with main } = rest) (hnew : main ≠ .submitCs) :
    Inv conf (endOne s handler api main) := by
  have hcovered := covered_endOne h.covered hrest hraises hmain
  obtain ⟨evs, -, heq | ⟨-, e, heq⟩⟩ := endOne_eq s handler api main <;> rw [heq] at hcovered ⊢
  · exact ⟨hcovered, h.fresh, fun hbegins => (hnew hbegins).elim, fun _ => hidle⟩
  · exact ⟨hcovered, h.fresh, by simp [State.record], fun _ => hidle⟩

theorem inv_task (h : Inv conf s) (hworking : s.main.working) (hevs : Balanced new evs)
    (hmain : s'.main = s.main) (hlog : s'.log = s.log)
    (hheld : (held conf s').Perm (held conf s ++ if answersFor conf (some task) then new else []))
    (hfresh : (∀ r, s'.csFuture ≠ .done r) → s'.csHandler = none)
    (hbegins : s.main = .submitCs → s'.csFuture = .absent) :
    Inv conf (s'.record (some task) evs) := by
  have hcovered := h.covered
  rw [toEnd_working hworking] at hcovered
  have hworking' : (s'.record (some task) evs).main.working := hmain ▸ hworking
  refine ⟨?_, hfresh, fun hb => hbegins (hmain ▸ hb), fun hidle => by simp [hworking'] at hidle⟩
  intro rid
  have hrid := covered_task task hcovered hevs rid
  have hsame : held conf (s'.record (some task) evs) = held conf s' := rfl
  rw [← hheld.count_eq rid] at hrid
  rw [toEnd_working hworking', hsame]
  simpa [State.record, hlog] using hrid

theorem inv_moves (h : Inv conf s) (hm : Moves conf s act s') (hg : Unhindered conf s act) :
    Inv conf s' := by
  cases hm with
  | @work main evs act csConf resourcesConf interrupted hmain hmain' hnew hevs =>
    have hcovered := h.covered
    rw [toEnd_working hmain] at hcovered
    let t := { s with main, csConf, resourcesConf, interrupted }.record none evs
    have hworking : t.main.working := hmain'
    refine ⟨?_, h.fresh, fun hbegins => (hnew hbegins).elim,
      fun hidle => by simp [t, hworking] at hidle⟩
    rw [toEnd_working hworking]
    exact covered_main hcovered
  | submitCs hmain hfuture =>
    have hcovered := h.covered
    rw [toEnd_working (by rw [hmain]; rfl)] at hcovered
    exact ⟨hcovered, fun _ => h.fresh (by simp [h.begins hmain]), by simp, by simp [Main.working]⟩
  | submitApp hmain hi =>
    have hcovered := h.covered
    rw [toEnd_working (by rw [hmain]; rfl)] at hcovered
    exact ⟨hcovered, h.fresh, by simp, by simp [Main.working]⟩
  | prepared hmain hdone hmain' =>
    rcases hmain' with rfl | ⟨e, rfl⟩
    · exact inv_main h (toEnd_working hmain) (by simp) fun _ => hdone
    · exact inv_main h (toEnd_working hmain) (by simp) fun _ => hdone
  | failed hmain he =>
    refine inv_main h ?_ (by simp) fun _ => idle_of h hmain (by simp [Main.working, he])
    rw [toEnd, hmain]
    rfl
  | escaped hmain he =>
    obtain ⟨hheld, hdone⟩ := hg.1 _ hmain he
    refine inv_main h ?_ (by simp) fun _ => hdone
    rw [toEnd, hmain]
    exact hheld
  | interrupted hmain =>
    rcases hmain with ⟨e, hmain⟩ | ⟨e, finish, hmain⟩
    · obtain ⟨hheld, hdone⟩ := hg.1 _ hmain
      refine inv_main h ?_ (by simp) fun _ => hdone
      rw [toEnd, hmain]
      exact hheld
    · refine inv_main h ?_ (by simp) fun _ => idle_of h hmain rfl
      rw [toEnd, hmain]
      exact hg.2 _ _ hmain
  | bodyEnded hmain =>
    refine inv_main h ?_ (by simp) fun _ => idle_of h hmain rfl
    rw [toEnd, hmain]
    rfl
  | csKept hmain hkept =>
    refine inv_main h ?_ (by simp) fun _ => idle_of h hmain rfl
    rw [toEnd, hmain]
    exact held_csKept hkept
  | csUnknown hmain hdeletes hconf hunknown =>
    refine inv_main h ?_ (by simp) fun _ => idle_of h hmain rfl
    rw [toEnd, hmain]
    simp [toCome, toEnd, held, hdeletes, hg.2 _ _ hmain hdeletes hconf hunknown]
  | finished hmain =>
    refine inv_main h ?_ (by simp) fun _ => idle_of h hmain rfl
    rw [toEnd, hmain]
    rfl
  | csEnded hmain hdeletes hhandler hs =>
    subst hs
    refine inv_endOne (s.appHandlers.map (·.reservationId)) h (idle_of h hmain rfl) ?_
      (fun hraises => by simp [hg _ hhandler hraises]) rfl (by simp)
    rw [toEnd, hmain]
    simp [toCome, held, hdeletes, hhandler, heldBy]
  | @appEnded inPrepare e remaining i handler s' api hmain hhandler hs =>
    subst hs
    refine inv_endOne ((remaining.eraseIdx i).map (·.reservationId)) h (idle_of h hmain rfl) ?_
      (fun hraises => by simp [hg _ _ _ _ hmain hhandler hraises]) rfl (by simp)
    obtain ⟨hi, rfl⟩ := List.getElem?_eq_some_iff.mp hhandler
    rw [toEnd, hmain]
    exact ((List.getElem_cons_eraseIdx_perm hi).map _).symm
  | @csCreated api csOnDoConf r csHandler evs hpending hrun =>
    have hworking : s.main.working := by
      by_contra hidle
      exact (pending_not_done (h.idle (by simpa using hidle))).1 hpending
    obtain ⟨r', csHandler', evs', hrun', hevs⟩ :=
      createCloudshell_balanced api csOnDoConf s.csHandler []
    rw [hrun] at hrun'
    obtain ⟨rfl, rfl, rfl⟩ : r = r' ∧ csHandler = csHandler' ∧ evs = evs' := by simpa using hrun'
    refine inv_task h hworking hevs rfl rfl ?_ (by simp) fun hbegins => ?_
    · have hnone : s.csHandler = none := h.fresh (by simp [hpending])
      by_cases hdeletes : deletesCs conf
      · simpa [held, hdeletes, hnone, answersFor, heldBy] using List.perm_append_comm
      · simp [held, hdeletes, answersFor]
    · simp [h.begins hbegins] at hpending
  | @appCreated i api appConf r appHandlers evs hpending hi hrun =>
    have hworking : s.main.working := by
      by_contra hidle
      exact (pending_not_done (h.idle (by simpa using hidle))).2 i hi hpending
    obtain ⟨r', appHandlers', evs', hrun', new, hnew, hevs⟩ :=
      createApp_balanced api appConf s.appHandlers []
    rw [hrun] at hrun'
    obtain ⟨rfl, rfl, rfl⟩ : r = r' ∧ appHandlers = appHandlers' ∧ evs = evs' := by
      simpa using hrun'
    refine inv_task h hworking hevs rfl rfl ?_ h.fresh h.begins
    simp [held, hnew, answersFor]

theorem inv_init (h : init s) : Inv conf s := by
  obtain ⟨csConf, resourcesConf, rfl⟩ := h
  refine ⟨fun rid => ?_, fun _ => rfl, fun _ => rfl, by simp [Main.working]⟩
  simp [owed, reserved]

/-- While nothing makes main leave before its `finish` has gone through all
handlers, every reservation that is to be ended was ended when the with
statement is left. -/
theorem left_ended (conf : DoConfig) (h : Reach (step conf) (Unhindered conf) init s)
    (hleft : s.main = .left e) (rid : ReservationId) :
    (owed conf s.log).count rid ≤ (endedOn s.log).count rid := by
  have hi : Inv conf s := h.invariant (fun _ => inv_init) fun _ _ _ hi hg hs =>
    inv_moves hi (step_moves hs) hg
  have hcovered := hi.covered rid
  rw [toEnd, hleft] at hcovered
  simpa using hcovered

def oneTopology : Api :=
  { Api.obliging with
    getTopologiesByCategory := fun _ _ => .ok ["Environments/App"]
    getTopologyDetails := fun _ _ => .ok ["App"]
    getReservationResourcesPositions := fun _ _ => .ok ["App_1"]
    getResourceDetails := fun _ _ =>
      .ok ⟨"10.0.0.1", [("OS Login", "user"), ("OS Password", "password")]⟩ }

def refusingEnd : Api :=
  { oneTopology with endReservation := fun _ _ => .error (.cloudShellApi "100" "") }

def appConf (name : String) : NetworkingAppConf := ⟨name, "App"⟩

def startWith (csConf : Option CloudShellConfig) (apps : List String) : State :=
  { csConf
    resourcesConf := apps.map fun app =>
      { name := app, shellName := "shell", networkingAppName := some app } }

theorem unhindered_next (h : ∀ e, s.main ≠ .caught e)
    (h' : ∀ inPrepare e, s.main ≠ .finishing inPrepare e .cs) :
    Unhindered conf s .next :=
  ⟨fun e he => (h e he).elim, fun inPrepare e he => (h' inPrepare e he).elim⟩

def bothEnded : List Act :=
  [.next, .next, .next, .complete (.app 0) oneTopology, .complete .cs oneTopology,
    .collect 0 oneTopology, .next, .next, .next, .leaveBody none, .endCs oneTopology,
    .endApp 0 oneTopology, .next]

theorem left_ended_both : ∃ s : State, s.main = .left none ∧
    owed ⟨some { csVersion := "App" }, [appConf "app"]⟩ s.log =
      ["Networking App App", "Environments/App"] ∧
    ∀ rid, (owed ⟨some { csVersion := "App" }, [appConf "app"]⟩ s.log).count rid ≤
      (endedOn s.log).count rid := by
  let conf : DoConfig := ⟨some { csVersion := "App" }, [appConf "app"]⟩
  let s := (run (step conf) (startWith none ["app"]) bothEnded).getD {}
  have hrun : run (step conf) (startWith none ["app"]) bothEnded = some s := rfl
  have hguard : Guarded (step conf) (Unhindered conf) (startWith none ["app"]) bothEnded := by
    simp only [bothEnded, Guarded]
    refine ⟨?_, ?_, ?_, trivial, trivial, trivial, ?_, ?_, ?_, trivial, ?_, ?_, ?_, trivial⟩
    case refine_7 =>
      rintro handler ⟨⟩ ⟨e, ⟨⟩⟩
    case refine_8 =>
      rintro inPrepare e remaining handler ⟨⟩ ⟨⟩ ⟨e', ⟨⟩⟩
    all_goals exact unhindered_next (by rintro _ ⟨⟩) (by rintro _ _ ⟨⟩)
  have howed : owed conf s.log = ["Networking App App", "Environments/App"] := by decide +kernel
  have hended (rid : ReservationId) : (owed conf s.log).count rid ≤ (endedOn s.log).count rid :=
    left_ended conf (.of_run bothEnded ⟨_, _, rfl⟩ hrun hguard) rfl rid
  exact ⟨s, rfl, howed, hended⟩

/-- The user interrupts main while an app is there; finish looks at a CloudShell
that was not made; the first of two EndReservation calls fails. Each time a
reservation is not ended. -/
theorem left_not_ended :
    (∃ s, Reach (step ⟨none, [appConf "app"]⟩) free init s ∧
      s.main = .left (some .keyboardInterrupt) ∧
      owed ⟨none, [appConf "app"]⟩ s.log = ["Networking App App"] ∧ endedOn s.log = []) ∧
    (∃ s e, Reach (step ⟨some { deleteCs := false }, [appConf "app"]⟩) free init s ∧
      s.main = .left e ∧
      owed ⟨some { deleteCs := false }, [appConf "app"]⟩ s.log = ["Networking App App"] ∧
        endedOn s.log = []) ∧
    ∃ s e, Reach (step ⟨none, [appConf "app", appConf "app"]⟩) free init s ∧ s.main = .left e ∧
      (owed ⟨none, [appConf "app", appConf "app"]⟩ s.log).length = 2 ∧
        (endedOn s.log).length = 1 := by
  refine ⟨?_, ?_, ?_⟩
  · exact ⟨_, .of_free_run
      [.next, .next, .next, .complete (.app 0) oneTopology, .interrupt, .next, .next]
      (⟨none, _, rfl⟩ : init (startWith none ["app"])) rfl, rfl, rfl, rfl⟩
  · exact ⟨_, some (.attribute _), .of_free_run [.next, .next, .next,
      .complete (.app 0) oneTopology, .complete .cs oneTopology, .collect 0 oneTopology,
      .next, .next, .next, .next, .next]
      (⟨none, _, rfl⟩ : init (startWith none ["app"])) rfl, rfl, rfl, rfl⟩
  · exact ⟨_, some (.cloudShellApi _ _), .of_free_run [.next, .next, .next, .next,
      .complete (.app 0) oneTopology, .complete (.app 1) oneTopology, .collect 0 oneTopology,
      .collect 1 oneTopology, .next, .next, .leaveBody none, .next, .endApp 0 refusingEnd]
      (⟨none, _, rfl⟩ : init (startWith none ["app"])) rfl, rfl, rfl, rfl⟩

end ShellTests.DoRun
