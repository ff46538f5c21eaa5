import Mathlib.Logic.Function.Basic
import ShellTests.Lib.Machine

/-!
# Autoload of one resource by several threads

The events, the lock and the result field of a `ResourceHandler`, and the
threads that call `autoload` and `autoload_if_needed` on it. One action is
one line of the source, taken by one thread; the remote calls inside the
`try` block end as the action says.
-/

namespace ShellTests.Autoload

open Machine

/-- What the `try` block of `autoload` runs: `_autoload`, then
`_add_additional_ports` and `set_children_attributes` where the conf asks for
them. -/
inductive Stage
  | autoload
  | additionalPorts
  | childrenAttributes
  deriving DecidableEq, Repr

structure Conf where
  additionalPorts : Bool
  childrenAttributes : Bool

def Conf.after (conf : Conf) : Stage → Option Stage
  | .autoload =>
    if conf.additionalPorts then some .additionalPorts
    else if conf.childrenAttributes then some .childrenAttributes else none
  | .additionalPorts => if conf.childrenAttributes then some .childrenAttributes else none
  | .childrenAttributes => none

inductive Pc
  | idle
  -- autoload_if_needed
  | checkFinished
  | checkStarted
  | waitFinished
  -- autoload; `ok` says whether the `try` block ended well
  | setStarted
  | acquire
  | body (stage : Stage)
  | setSuccess (ok : Bool)
  | setFinished (ok : Bool)
  | release (ok : Bool)
  | clearStarted
  deriving DecidableEq, Repr

-- What is remembered of a run; no line of the source reads it.
inductive Event (ι : Type)
  | bodyStarted (t : ι)
  | bodyEnded (t : ι) (ok : Bool)
  | returned (t : ι)
  | raised (t : ι)
  deriving DecidableEq, Repr

structure State (ι : Type) where
  autoloadStarted : Bool := false
  autoloadFinished : Bool := false
  isAutoloadSuccess : Option Bool := none
  autoloadLock : Option ι := none
  pc : ι → Pc := fun _ => .idle
  history : List (Event ι) := []

/-- A thread makes a call, runs its next line, or has the stage it is in
raise an `Exception`. -/
inductive Act (ι : Type)
  | autoload (t : ι)
  | autoloadIfNeeded (t : ι)
  | next (t : ι)
  | fail (t : ι)

variable {ι : Type}

def State.record (s : State ι) (e : Event ι) : State ι :=
  { s with history := s.history ++ [e] }

@[simp] theorem record_pc (s : State ι) (e : Event ι) : (s.record e).pc = s.pc := rfl
@[simp] theorem record_autoloadStarted (s : State ι) (e : Event ι) :
    (s.record e).autoloadStarted = s.autoloadStarted := rfl
@[simp] theorem record_autoloadFinished (s : State ι) (e : Event ι) :
    (s.record e).autoloadFinished = s.autoloadFinished := rfl
@[simp] theorem record_isAutoloadSuccess (s : State ι) (e : Event ι) :
    (s.record e).isAutoloadSuccess = s.isAutoloadSuccess := rfl
@[simp] theorem record_history (s : State ι) (e : Event ι) :
    (s.record e).history = s.history ++ [e] := rfl

variable [DecidableEq ι]

def State.goto (s : State ι) (t : ι) (p : Pc) : State ι :=
  { s with pc := Function.update s.pc t p }

@[simp] theorem goto_pc (s : State ι) (t : ι) (p : Pc) :
    (s.goto t p).pc = Function.update s.pc t p := rfl
@[simp] theorem goto_autoloadStarted (s : State ι) (t : ι) (p : Pc) :
    (s.goto t p).autoloadStarted = s.autoloadStarted := rfl
@[simp] theorem goto_autoloadFinished (s : State ι) (t : ι) (p : Pc) :
    (s.goto t p).autoloadFinished = s.autoloadFinished := rfl
@[simp] theorem goto_isAutoloadSuccess (s : State ι) (t : ι) (p : Pc) :
    (s.goto t p).isAutoloadSuccess = s.isAutoloadSuccess := rfl
@[simp] theorem goto_history (s : State ι) (t : ι) (p : Pc) :
    (s.goto t p).history = s.history := rfl

def next (conf : Conf) (s : State ι) (t : ι) : Option (State ι) :=
  match s.pc t with
  | .idle => none
  -- if not self.autoload_finished.is_set()
  | .checkFinished =>
    if s.autoloadFinished then some ((s.goto t .idle).record (.returned t))
    else some (s.goto t .checkStarted)
  -- if self._autoload_started.is_set()
  | .checkStarted => some (s.goto t (if s.autoloadStarted then .waitFinished else .setStarted))
  -- self.autoload_finished.wait()
  | .waitFinished =>
    if s.autoloadFinished then some ((s.goto t .idle).record (.returned t)) else none
  | .setStarted => some { s.goto t .acquire with autoloadStarted := true }
  | .acquire =>
    if s.autoloadLock = none then
      some ({ s.goto t (.body .autoload) with autoloadLock := some t }.record (.bodyStarted t))
    else none
  | .body stage =>
    match conf.after stage with
    | some stage' => some (s.goto t (.body stage'))
    | none => some ((s.goto t (.setSuccess true)).record (.bodyEnded t true))
  -- the except and the else branch differ in `ok` and in the `raise`
  | .setSuccess ok => some { s.goto t (.setFinished ok) with isAutoloadSuccess := some ok }
  | .setFinished ok => some { s.goto t (.release ok) with autoloadFinished := true }
  -- only the else branch gets to `self._autoload_started.clear()`
  | .release true => some { s.goto t .clearStarted with autoloadLock := none }
  | .release false => some ({ s.goto t .idle with autoloadLock := none }.record (.raised t))
  | .clearStarted => some ({ s.goto t .idle with autoloadStarted := false }.record (.returned t))

def step (conf : Conf) (s : State ι) : Act ι → Option (State ι)
  | .autoload t => if s.pc t = .idle then some (s.goto t .setStarted) else none
  | .autoloadIfNeeded t => if s.pc t = .idle then some (s.goto t .checkFinished) else none
  | .next t => next conf s t
  | .fail t =>
    match s.pc t with
    | .body _ => some ((s.goto t (.setSuccess false)).record (.bodyEnded t false))
    | _ => none

def init (s : State ι) : Prop := s = {}

-- ---------------------------------------------------------------------------
-- What a step can do
-- ---------------------------------------------------------------------------

variable {conf : Conf} {s s' : State ι} {t : ι} {a : Act ι}

/-- The steps, each with the line it takes and the state it leaves. -/
inductive Moves (conf : Conf) (s : State ι) (t : ι) : Act ι → State ι → Prop
  | autoload : s.pc t = .idle → Moves conf s t (.autoload t) (s.goto t .setStarted)
  | autoloadIfNeeded : s.pc t = .idle →
      Moves conf s t (.autoloadIfNeeded t) (s.goto t .checkFinished)
  | finishedBefore : s.pc t = .checkFinished → s.autoloadFinished = true →
      Moves conf s t (.next t) ((s.goto t .idle).record (.returned t))
  | notFinished : s.pc t = .checkFinished → s.autoloadFinished = false →
      Moves conf s t (.next t) (s.goto t .checkStarted)
  | willWait : s.pc t = .checkStarted → s.autoloadStarted = true →
      Moves conf s t (.next t) (s.goto t .waitFinished)
  | willAutoload : s.pc t = .checkStarted → s.autoloadStarted = false →
      Moves conf s t (.next t) (s.goto t .setStarted)
  | woken : s.pc t = .waitFinished → s.autoloadFinished = true →
      Moves conf s t (.next t) ((s.goto t .idle).record (.returned t))
  | setStarted : s.pc t = .setStarted →
      Moves conf s t (.next t) { s.goto t .acquire with autoloadStarted := true }
  | acquire : s.pc t = .acquire → s.autoloadLock = none →
      Moves conf s t (.next t)
        ({ s.goto t (.body .autoload) with autoloadLock := some t }.record (.bodyStarted t))
  | bodyGoes : s.pc t = .body stage → conf.after stage = some stage' →
      Moves conf s t (.next t) (s.goto t (.body stage'))
  | bodyEnds : s.pc t = .body stage → conf.after stage = none →
      Moves conf s t (.next t) ((s.goto t (.setSuccess true)).record (.bodyEnded t true))
  | bodyRaises : s.pc t = .body stage →
      Moves conf s t (.fail t) ((s.goto t (.setSuccess false)).record (.bodyEnded t false))
  | setSuccess : s.pc t = .setSuccess ok →
      Moves conf s t (.next t) { s.goto t (.setFinished ok) with isAutoloadSuccess := some ok }
  | setFinished : s.pc t = .setFinished ok →
      Moves conf s t (.next t) { s.goto t (.release ok) with autoloadFinished := true }
  | leaveBlock : s.pc t = .release true →
      Moves conf s t (.next t) { s.goto t .clearStarted with autoloadLock := none }
  | reraise : s.pc t = .release false →
      Moves conf s t (.next t) ({ s.goto t .idle with autoloadLock := none }.record (.raised t))
  | clearStarted : s.pc t = .clearStarted →
      Moves conf s t (.next t)
        ({ s.goto t .idle with autoloadStarted := false }.record (.returned t))

theorem next_moves (h : next conf s t = some s') : Moves conf s t (.next t) s' := by
  unfold next at h
  split at h
  case h_1 => cases h
  case h_2 hp =>
    split at h <;> cases h
    · exact .finishedBefore hp (by assumption)
    · exact .notFinished hp (by simp_all)
  case h_3 hp =>
    cases h
    cases hs : s.autoloadStarted
    · exact .willAutoload hp hs
    · exact .willWait hp hs
  case h_4 hp =>
    split at h <;> cases h
    exact .woken hp (by assumption)
  case h_5 hp => cases h; exact .setStarted hp
  case h_6 hp =>
    split at h <;> cases h
    exact .acquire hp (by assumption)
  case h_7 hp =>
    split at h <;> cases h
    · exact .bodyGoes hp (by assumption)
    · exact .bodyEnds hp (by assumption)
  case h_8 hp => cases h; exact .setSuccess hp
  case h_9 hp => cases h; exact .setFinished hp
  case h_10 hp => cases h; exact .leaveBlock hp
  case h_11 hp => cases h; exact .reraise hp
  case h_12 hp => cases h; exact .clearStarted hp

theorem step_moves (h : step conf s a = some s') : ∃ t, Moves conf s t a s' := by
  cases a with
  | autoload t =>
    simp only [step] at h
    split at h <;> cases h
    exact ⟨t, .autoload (by assumption)⟩
  | autoloadIfNeeded t =>
    simp only [step] at h
    split at h <;> cases h
    exact ⟨t, .autoloadIfNeeded (by assumption)⟩
  | next t => exact ⟨t, next_moves h⟩
  | fail t =>
    simp only [step] at h
    split at h <;> cases h
    exact ⟨t, .bodyRaises (by assumption)⟩

-- ---------------------------------------------------------------------------
-- No waiter is stranded
-- ---------------------------------------------------------------------------

def Pc.beforeFinished : Pc → Bool
  | .acquire | .body _ | .setSuccess _ | .setFinished _ => true
  | _ => false

/-- Some thread is inside `autoload` and has yet to set `autoload_finished`. -/
def Pending (s : State ι) : Prop := ∃ u, (s.pc u).beforeFinished = true

/-- A thread is blocked, or the next caller of `autoload_if_needed` will be. -/
def Awaited (s : State ι) : Prop := s.autoloadStarted = true ∨ ∃ t, s.pc t = .waitFinished

theorem moves_finished (h : Moves conf s t a s') (hf : s.autoloadFinished = true) :
    s'.autoloadFinished = true := by
  cases h <;> first | exact hf | rfl

theorem moves_pending (h : Moves conf s t a s') (hp : Pending s) :
    s'.autoloadFinished = true ∨ Pending s' := by
  cases h
  case setFinished => exact .inl rfl
  all_goals
    exact .inr (exists_update_of_imp (P := fun p : Pc => p.beforeFinished = true) hp
      (by simp [*, Pc.beforeFinished]))

theorem moves_awaited (h : Moves conf s t a s') (ha : Awaited s') : Awaited s ∨ Pending s' := by
  cases h
  case setStarted =>
    exact .inr (exists_update_self (P := fun p : Pc => p.beforeFinished = true) rfl)
  case willWait hs => exact .inl (.inl hs)
  case clearStarted =>
    obtain hs | hw := ha
    · cases hs
    · exact .inl (.inr (exists_of_exists_update (P := (· = Pc.waitFinished)) hw (by simp)))
  all_goals
    exact .inl (ha.imp id fun hw =>
      exists_of_exists_update (P := (· = Pc.waitFinished)) hw (by simp))

/-- The result is there once `autoload_finished` is set or about to be set. -/
def Recorded (s : State ι) : Prop :=
  (s.autoloadFinished = true ∨ ∃ u, ∃ ok, s.pc u = .setFinished ok) → s.isAutoloadSuccess ≠ none

structure Inv (s : State ι) : Prop where
  covered : s.autoloadFinished = false → Awaited s → Pending s
  recorded : Recorded s

omit [DecidableEq ι] in
theorem inv_init (h : init s) : Inv s := by
  subst h
  constructor <;> simp [Awaited, Recorded]

theorem moves_recorded (h : Moves conf s t a s') (hr : Recorded s) : Recorded s' := by
  cases h
  case setSuccess => simp [Recorded]
  case setFinished hp => exact fun _ => hr (.inr ⟨t, _, hp⟩)
  all_goals
    exact fun hf => hr (hf.imp id fun hw =>
      exists_of_exists_update (P := fun p => ∃ ok, p = Pc.setFinished ok) hw (by simp))

theorem inv_moves (hi : Inv s) (h : Moves conf s t a s') : Inv s' := by
  refine ⟨fun hf ha => ?_, moves_recorded h hi.recorded⟩
  have hf0 : s.autoloadFinished = false := by
    by_contra hn
    simp [moves_finished h (by simpa using hn)] at hf
  obtain ha | hp := moves_awaited h ha
  · exact (moves_pending h (hi.covered hf0 ha)).resolve_left (by simp [hf])
  · exact hp

theorem reach_inv (h : Reach (step conf) free init s) : Inv s :=
  h.invariant (fun _ => inv_init) fun _ _ _ hi _ hs =>
    let ⟨_, hm⟩ := step_moves hs
    inv_moves hi hm

/-- No waiter is stranded, and the result is there when the event is. -/
theorem waiters_covered (conf : Conf) (h : Reach (step conf) free init s) :
    (∀ t, s.pc t = .waitFinished → s.autoloadFinished = false →
      ∃ u, (s.pc u).beforeFinished = true) ∧
    (s.autoloadFinished = true → s.isAutoloadSuccess ≠ none) := by
  have hi := reach_inv h
  exact ⟨fun t ht hf => hi.covered hf (.inr ⟨t, ht⟩), fun hf => hi.recorded (.inl hf)⟩

theorem waiters_covered_by_first :
    ∃ s : State Nat, s.pc 1 = .waitFinished ∧ s.autoloadFinished = false ∧
      ∃ u, (s.pc u).beforeFinished = true :=
  ⟨_, rfl, rfl, (waiters_covered ⟨false, false⟩ (.of_free_run
    [.autoload 0, .next 0, .autoloadIfNeeded 1, .next 1, .next 1] rfl rfl)).1 1 rfl rfl⟩

-- ---------------------------------------------------------------------------
-- What the flags say about the calls in progress
-- ---------------------------------------------------------------------------

def Pc.inProgress : Pc → Bool
  | .acquire | .body _ | .setSuccess _ | .setFinished _ | .release _ | .clearStarted => true
  | _ => false

/-- The `try` block is left and the call not yet over: the result and the
events are being updated. -/
def Pc.updating : Pc → Bool
  | .setSuccess _ | .setFinished _ | .release _ | .clearStarted => true
  | _ => false

def AtBoundary (s : State ι) : Prop := ∀ u, (s.pc u).updating = false

def InProgress (s : State ι) : Prop := ∃ u, (s.pc u).inProgress = true

def Event.outcome? : Event ι → Option Bool
  | .bodyEnded _ ok => some ok
  | _ => none

/-- How the latest autoload that ended has ended. -/
def latest (history : List (Event ι)) : Option Bool := (history.filterMap Event.outcome?).getLast?

/-- What the flags are meant to say, and what a reader that waited for
`autoload_finished` then finds in `is_autoload_success`. -/
def FlagsTell (s : State ι) : Prop :=
  (s.autoloadStarted = true ↔ InProgress s) ∧
  (s.autoloadFinished = true → ¬ InProgress s ∧ s.isAutoloadSuccess = latest s.history)

/-- A failed call leaves `_autoload_started` set, and a second call runs with
`autoload_finished` still set by the first. -/
theorem flags_mislead :
    (∃ s : State (Fin 2), Reach (step ⟨false, false⟩) free init s ∧ AtBoundary s ∧
      ¬ (s.autoloadStarted = true ↔ InProgress s)) ∧
    ∃ s : State (Fin 2), Reach (step ⟨false, false⟩) free init s ∧ AtBoundary s ∧
      s.autoloadFinished = true ∧ InProgress s := by
  unfold AtBoundary InProgress
  constructor
  · exact ⟨_, .of_free_run [.autoload 0, .next 0, .next 0, .fail 0, .next 0, .next 0, .next 0]
      rfl rfl, by decide, by decide⟩
  · exact ⟨_, .of_free_run [.autoload 0, .next 0, .next 0, .next 0, .next 0, .next 0, .next 0,
      .next 0, .autoload 1, .next 1] rfl rfl, by decide, by decide⟩

/-- An autoload call begins only with both events unset, and none fails. -/
def OnceAndWell (s : State ι) : Act ι → Prop
  | .next t => s.pc t = .setStarted → s.autoloadStarted = false ∧ s.autoloadFinished = false
  | .fail _ => False
  | _ => True

structure Flags where
  started : Bool
  finished : Bool
  success : Option Bool
  latest : Option Bool
  deriving DecidableEq

def State.flags (s : State ι) : Flags :=
  ⟨s.autoloadStarted, s.autoloadFinished, s.isAutoloadSuccess, latest s.history⟩

def Flags.fresh : Flags := ⟨false, false, none, none⟩
def Flags.done : Flags := ⟨false, true, some true, some true⟩

/-- The flags at each line of a call that is the only one so far and goes
well; `none` at the lines that it does not come to. -/
def Pc.expects : Pc → Option Flags
  | .acquire | .body _ => some ⟨true, false, none, none⟩
  | .setSuccess true => some ⟨true, false, none, some true⟩
  | .setFinished true => some ⟨true, false, some true, some true⟩
  | .release true | .clearStarted => some ⟨true, true, some true, some true⟩
  | _ => none

/-- At most one autoload call so far: it is in progress, or none has begun, or
it has ended well. -/
inductive Single (s : State ι) : Prop
  | running (u : ι) : (∀ v, v ≠ u → (s.pc v).inProgress = false) →
      (s.pc u).expects = some s.flags → Single s
  | resting : (∀ v, (s.pc v).inProgress = false) → s.flags = .fresh ∨ s.flags = .done → Single s

omit [DecidableEq ι] in
@[simp] theorem latest_append (history : List (Event ι)) (e : Event ι) :
    latest (history ++ [e]) = e.outcome?.or (latest history) := by
  cases h : e.outcome? <;> simp [latest, h]

theorem Pc.inProgress_of_expects {p : Pc} (h : p.expects = some fl) : p.inProgress = true := by
  cases p <;> simp [Pc.expects, Pc.inProgress] at *

theorem moves_outside (h : Moves conf s t a s') (ht : (s.pc t).inProgress = false)
    (hn : a = .next t → s.pc t ≠ .setStarted) :
    s'.flags = s.flags ∧ ∃ p, s'.pc = Function.update s.pc t p ∧ p.inProgress = false := by
  cases h <;> simp_all [Pc.inProgress, State.flags, Event.outcome?] <;>
    exact ⟨_, rfl, rfl⟩

theorem moves_running (h : Moves conf s t a s') (hok : OnceAndWell s a)
    (he : (s.pc t).expects = some s.flags) :
    ∃ p, s'.pc = Function.update s.pc t p ∧
      (p.expects = some s'.flags ∨ p.inProgress = false ∧ s'.flags = .done) := by
  replace he := he.symm
  cases h with
  | bodyRaises => exact hok.elim
  | setStarted hp | autoload hp | autoloadIfNeeded hp | finishedBefore hp | notFinished hp
  | willWait hp | willAutoload hp | woken hp | reraise hp => simp [hp, Pc.expects] at he
  | acquire hp | bodyGoes hp | bodyEnds hp =>
    refine ⟨_, rfl, .inl ?_⟩
    simp_all [Pc.expects, State.flags, Event.outcome?]
  | @setSuccess ok hp | @setFinished ok hp =>
    cases ok
    · simp [hp, Pc.expects] at he
    · refine ⟨_, rfl, .inl ?_⟩
      simp_all [Pc.expects, State.flags]
  | leaveBlock hp =>
    refine ⟨_, rfl, .inl ?_⟩
    simp_all [Pc.expects, State.flags]
  | clearStarted hp =>
    refine ⟨_, rfl, .inr ⟨rfl, ?_⟩⟩
    simp_all [Pc.expects, State.flags, Flags.done, Event.outcome?]

theorem moves_setStarted (h : Moves conf s t (.next t) s') (hp : s.pc t = .setStarted)
    (hf : s.flags = .fresh) :
    s'.pc = Function.update s.pc t .acquire ∧ Pc.expects .acquire = some s'.flags := by
  cases h <;> simp_all [State.flags, Flags.fresh, Pc.expects]

theorem single_moves (hs : Single s) (hok : OnceAndWell s a) (h : Moves conf s t a s') :
    Single s' := by
  by_cases hn : a = .next t ∧ s.pc t = .setStarted
  · obtain ⟨rfl, hp⟩ := hn
    obtain ⟨hstarted, hfinished⟩ := hok hp
    cases hs with
    | running u hu he =>
      -- the call in progress has set `_autoload_started`
      have : s.flags.started = true := by
        generalize s.pc u = p at he
        cases p <;> simp_all [Pc.expects] <;> grind [Pc.expects]
      simp [State.flags, hstarted] at this
    | resting hr hf =>
      have hf : s.flags = .fresh := by
        refine hf.resolve_right fun hd => ?_
        simp [State.flags, Flags.done, hfinished] at hd
      obtain ⟨hpc, he⟩ := moves_setStarted h hp hf
      refine .running t (fun v hv => ?_) (by simpa [hpc] using he)
      simpa [hpc, hv] using hr v
  · have hout (ht : (s.pc t).inProgress = false) := moves_outside h ht fun ha hp => hn ⟨ha, hp⟩
    cases hs with
    | running u hu he =>
      by_cases htu : t = u
      · subst htu
        obtain ⟨p, hpc, he' | ⟨hp, hd⟩⟩ := moves_running h hok he
        · refine .running t (fun v hv => ?_) (by simpa [hpc] using he')
          simpa [hpc, hv] using hu v hv
        · refine .resting (fun v => ?_) (.inr hd)
          by_cases hv : v = t
          · subst hv; simpa [hpc] using hp
          · simpa [hpc, hv] using hu v hv
      · obtain ⟨hfl, p, hpc, hp⟩ := hout (hu t htu)
        refine .running u (fun v hv => ?_) (by simpa [hpc, Ne.symm htu, hfl] using he)
        by_cases hvt : v = t
        · subst hvt; simpa [hpc] using hp
        · simpa [hpc, hvt] using hu v hv
    | resting hr hf =>
      obtain ⟨hfl, p, hpc, hp⟩ := hout (hr t)
      refine .resting (fun v => ?_) (hfl ▸ hf)
      rw [hpc]
      exact forall_update (P := fun p : Pc => p.inProgress = false) hp hr v

theorem reach_single (h : Reach (step conf) OnceAndWell init s) : Single s := by
  refine h.invariant (fun s h0 => ?_) fun s a s' hs hok hstep => ?_
  · obtain rfl : s = {} := h0
    exact .resting (fun _ => rfl) (.inl rfl)
  · obtain ⟨t, hm⟩ := step_moves hstep
    exact single_moves hs hok hm

/-- In a run with one autoload call, which goes well, the flags tell at every
boundary what they are meant to. -/
theorem flags_tell (conf : Conf) (h : Reach (step conf) OnceAndWell init s) (hb : AtBoundary s) :
    FlagsTell s := by
  cases reach_single h with
  | running u hu he =>
    have hin : InProgress s := ⟨u, Pc.inProgress_of_expects he⟩
    have hnot : (s.pc u).updating = false := hb u
    have hfl : s.autoloadStarted = true ∧ s.autoloadFinished = false := by
      generalize s.pc u = p at he hnot
      cases p <;> simp_all [Pc.expects, Pc.updating, State.flags]
    simp [FlagsTell, hin, hfl]
  | resting hr hf =>
    have hnot : ¬ InProgress s := by simpa [InProgress] using hr
    obtain hf | hf := hf <;> simp_all [FlagsTell, State.flags, Flags.fresh, Flags.done]

theorem flags_tell_after_one : ∃ s : State (Fin 2), s.autoloadFinished = true ∧ FlagsTell s := by
  refine ⟨_, ?_, flags_tell ⟨true, false⟩ (.of_run [.autoload 0, .next 0, .next 0, .next 0, .next 0,
    .next 0, .next 0, .next 0, .next 0] rfl rfl ?_) ?_⟩
  · rfl
  · simp [Guarded, step, next, State.goto, State.record, OnceAndWell, Conf.after]
  · unfold AtBoundary
    decide

end ShellTests.Autoload
