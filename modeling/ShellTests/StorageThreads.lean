import Mathlib.Logic.Function.Basic
import ShellTests.Lib.Machine
import ShellTests.Finish

/-!
# A storage that several threads read

The same properties as in `HandlerStorage`, with every check, write and append
of a memo field as a step of its own. A call is an activity of some thread;
the read of the shells inside a read of the resources is an activity too. A
task of an executor and the release of one handler are one step each.
-/

namespace ShellTests.StorageThreads

open Machine

/-- The properties, in the order of `finish`. -/
inductive Sec
  | sandboxes
  | resources
  | shells
  deriving DecidableEq, Repr

def Sec.next : Sec → Option Sec
  | .sandboxes => some .resources
  | .resources => some .shells
  | .shells => none

def size (conf : MainConfig) : Sec → Nat
  | .sandboxes => conf.sandboxesConf.length
  | .resources => conf.resourcesConf.length
  | .shells => conf.shellsConf.length

/-- A call that was submitted to an executor. -/
inductive Job
  | sandbox (conf : SandboxConfig)
  | resource (conf : ResourceConfig) (shell : ShellHandler)
  | shell (conf : ShellConfig)
  deriving DecidableEq, Repr

def Job.sec : Job → Sec
  | .sandbox _ => .sandboxes
  | .resource .. => .resources
  | .shell _ => .shells

def outcomeOf (wrap : α → Held) (m : Cs Unit α) : Except Exn Held × List Event :=
  let (r, _, evs) := m () []
  (r.map wrap, evs)

def Job.run (hasSmb : Bool) (api : Api) : Job → Except Exn Held × List Event
  | .sandbox conf => outcomeOf .sandbox (SandboxHandler.create api conf)
  | .resource conf shellHandler =>
    outcomeOf .resource (ResourceHandler.create api conf shellHandler)
  | .shell conf => outcomeOf .shell (ShellHandler.create api hasSmb conf)

structure Future where
  job : Job
  index : Nat
  outcome : Option (Except Exn Held) := none
  deriving DecidableEq, Repr

structure Entry where
  future : Nat
  index : Nat
  handler : Held
  deriving DecidableEq, Repr

/-- Where the loops of `finish` stand: about to look at a memo field, in the
loop over a list, or past the loops. -/
inductive Loop
  | enter (sec : Sec)
  | at (sec : Sec) (version : Nat) (pos : Nat)
  | vcenter
  deriving DecidableEq, Repr

/-- The line an activity is about to run. -/
inductive Pc
  | check
  | publish
  -- the set comprehension, at the conf of place `i`
  | submit (i : Nat) (futures : List Nat)
  -- self.shell_handlers_dict[conf.shell_name], read by the activity `child`
  | lookup (i : Nat) (futures : List Nat) (child : Nat)
  -- the end of the executor's block, which `e` is about to leave
  | join (e : Exn) (futures : List Nat)
  -- for future in futures; these are to come
  | collect (futures : List Nat) (exception : Option Exn)
  -- self.finish(), and then `raise e`
  | finish (e : Option Exn) (loop : Loop)
  | fetch
  | returned (handlers : List Entry)
  | raised (e : Exn)
  deriving DecidableEq, Repr

def Pc.futures : Pc → List Nat
  | .submit _ futures | .lookup _ futures _ | .join _ futures | .collect futures _ => futures
  | _ => []

/-- A read of the property `sec`, or a call of `finish` alone. -/
structure Activity where
  sec : Option Sec
  pc : Pc
  deriving DecidableEq, Repr

structure State where
  -- the list objects of each property; the memo field holds the one of this version
  lists : Sec × Nat → List Entry := fun _ => []
  memo : Sec → Option Nat := fun _ => none
  futures : Nat → Option Future := fun _ => none
  activity : Nat → Option Activity := fun _ => none
  hasVcenter : Bool := false
  -- the remote calls, with the future whose handler they are made for
  log : List (Option Nat × Event) := []

/-- A property is read or `finish` is called; an activity `a` runs its next
line, where `fresh` names the future or the activity that it makes; it looks at
the future `k`; it releases what its loop is at; or the task of `k` runs. -/
inductive Act
  | read (a : Nat) (sec : Sec)
  | finish (a : Nat)
  | next (a : Nat) (fresh : Nat)
  | collect (a : Nat) (k : Nat)
  | release (a : Nat) (api : Api)
  | complete (k : Nat) (api : Api)

def State.put (s : State) (a : Nat) (sec : Option Sec) (pc : Pc) : State :=
  { s with activity := Function.update s.activity a (some ⟨sec, pc⟩) }

def State.submit (s : State) (k : Nat) (job : Job) (index : Nat) : State :=
  { s with futures := Function.update s.futures k (some { job, index }) }

def State.publish (s : State) (sec : Sec) : State :=
  { s with memo := Function.update s.memo sec (some ((s.memo sec).elim 0 (· + 1))) }

def State.append (s : State) (sec : Sec) (version : Nat) (entry : Entry) : State :=
  { s with
    lists := Function.update s.lists (sec, version) (s.lists (sec, version) ++ [entry]) }

def State.record (s : State) (k : Option Nat) (evs : List Event) : State :=
  { s with log := s.log ++ evs.map (k, ·) }

def State.isDone (s : State) (k : Nat) : Bool :=
  match s.futures k with
  | some future => future.outcome.isSome
  | none => false

/-- The shell handlers of a list. -/
def shellsOf (handlers : List Entry) : List ShellHandler :=
  handlers.filterMap fun entry => match entry.handler with
    | .shell h => some h
    | _ => none

/-- The call that is submitted for a conf without a lookup before it. -/
def jobAt (conf : MainConfig) (i : Nat) : Sec → Option Job
  | .sandboxes => conf.sandboxesConf[i]?.map .sandbox
  | .resources => none
  | .shells => conf.shellsConf[i]?.map .shell

def nextRead (conf : MainConfig) (s : State) (a fresh : Nat) (sec : Sec) : Pc → Option State
  | .check => some (s.put a sec (if s.memo sec = none then .publish else .fetch))
  | .publish => some ((s.publish sec).put a sec (.submit 0 []))
  | .submit i futures =>
    if i < size conf sec then
      match jobAt conf i sec with
      | some job =>
        if s.futures fresh = none then
          some ((s.submit fresh job i).put a sec (.submit (i + 1) (futures ++ [fresh])))
        else none
      | none =>
        if s.activity fresh = none then
          some ((s.put fresh (some .shells) .check).put a sec (.lookup i futures fresh))
        else none
    else some (s.put a sec (.collect futures none))
  | .lookup i futures child =>
    match s.activity child, conf.resourcesConf[i]? with
    | some ⟨_, .returned handlers⟩, some c =>
      match HandlerStorage.shellNamed c.shellName (shellsOf handlers) with
      | some shell =>
        if s.futures fresh = none then
          some ((s.submit fresh (.resource c shell) i).put a sec
            (.submit (i + 1) (futures ++ [fresh])))
        else none
      | none => some (s.put a sec (.join (.key c.shellName) futures))
    | some ⟨_, .raised e⟩, _ => some (s.put a sec (.join e futures))
    | _, _ => none
  | .join e futures => if futures.all s.isDone then some (s.put a sec (.raised e)) else none
  | .collect [] none => some (s.put a sec .fetch)
  | .collect [] (some e) => some (s.put a sec (.finish (some e) (.enter .sandboxes)))
  | .fetch => (s.memo sec).map fun version => s.put a sec (.returned (s.lists (sec, version)))
  | _ => none

def Loop.after (sec : Sec) : Loop :=
  match sec.next with
  | some sec => .enter sec
  | none => .vcenter

/-- How `finish` ends: its caller raises what it had caught, or returns. -/
def Pc.finished : Option Exn → Pc
  | some e => .raised e
  | none => .returned []

def nextFinish (s : State) (a : Nat) (sec? : Option Sec) (e : Option Exn) : Loop → Option State
  | .enter sec =>
    match s.memo sec with
    | some version => some (s.put a sec? (.finish e (.at sec version 0)))
    | none => some (s.put a sec? (.finish e (.after sec)))
  | .at sec version pos =>
    if pos < (s.lists (sec, version)).length then none
    else some (s.put a sec? (.finish e (.after sec)))
  | .vcenter => if s.hasVcenter then none else some (s.put a sec? (.finished e))

def next (conf : MainConfig) (s : State) (a fresh : Nat) : Option State :=
  match s.activity a with
  | some ⟨sec?, .finish e loop⟩ => nextFinish s a sec? e loop
  | some ⟨some sec, pc⟩ => nextRead conf s a fresh sec pc
  | _ => none

def collect (s : State) (a k : Nat) : Option State :=
  match s.activity a with
  | some ⟨some sec, .collect futures exception⟩ =>
    match s.memo sec, s.futures k with
    | some version, some ⟨_, index, some outcome⟩ =>
      if k ∈ futures then
        match outcome with
        | .ok handler =>
          some ((s.append sec version ⟨k, index, handler⟩).put a sec
            (.collect (futures.erase k) exception))
        | .error e => some (s.put a sec (.collect (futures.erase k) (some e)))
      else none
    | _, _ => none
  | _ => none

def release (conf : MainConfig) (s : State) (a : Nat) (api : Api) : Option State :=
  match s.activity a with
  | some ⟨sec?, .finish e (.at sec version pos)⟩ =>
    match (s.lists (sec, version))[pos]? with
    | some entry =>
      let (r, _, evs) := (entry.handler.finish api conf.hasCsSmb : Cs Unit Unit) () []
      match r with
      | .ok () =>
          some ((s.record entry.future evs).put a sec? (.finish e (.at sec version (pos + 1))))
      | .error e' => some ((s.record entry.future evs).put a sec? (.raised e'))
    | none => none
  | some ⟨sec?, .finish e .vcenter⟩ =>
    if s.hasVcenter then
      let s := s.record none [.disconnectVcenter (api.disconnectVcenter [])]
      match api.disconnectVcenter [] with
      | .ok () => some (s.put a sec? (.finished e))
      | .error e' => some (s.put a sec? (.raised e'))
    else none
  | _ => none

def complete (conf : MainConfig) (s : State) (k : Nat) (api : Api) : Option State :=
  match s.futures k with
  | some ⟨job, index, none⟩ =>
    let (r, evs) := job.run conf.hasCsSmb api
    some
      ({ s with futures := Function.update s.futures k (some ⟨job, index, some r⟩) }.record k evs)
  | _ => none

def step (conf : MainConfig) (s : State) : Act → Option State
  | .read a sec => if s.activity a = none then some (s.put a (some sec) .check) else none
  | .finish a =>
    if s.activity a = none then some (s.put a none (.finish none (.enter .sandboxes))) else none
  | .next a fresh => next conf s a fresh
  | .collect a k => collect s a k
  | .release a api => release conf s a api
  | .complete k api => complete conf s k api

def init (s : State) : Prop := ∃ hasVcenter, s = { hasVcenter }

-- ---------------------------------------------------------------------------
-- What a step can do
-- ---------------------------------------------------------------------------

variable {conf : MainConfig} {s s' : State} {act : Act}

theorem jobAt_some (h : jobAt conf i sec = some job) : i < size conf sec ∧ job.sec = sec := by
  cases sec <;> simp only [jobAt, Option.map_eq_some_iff, reduceCtorEq] at h
  all_goals
    obtain ⟨c, hc, rfl⟩ := h
    exact ⟨(List.getElem?_eq_some_iff.mp hc).1, rfl⟩

theorem mem_append_lists (h : e ∈ (s.append sec version entry).lists p) :
    p = (sec, version) ∧ e = entry ∨ e ∈ s.lists p := by
  by_cases hp : p = (sec, version)
  · subst hp
    simp only [State.append, Function.update_self, List.mem_append, List.mem_singleton] at h
    exact h.symm.imp_left fun he => ⟨rfl, he⟩
  · exact .inr (by simpa [State.append, Function.update_of_ne hp] using h)

/-- The future or the activity that a step makes was not there before. -/
inductive Moves (conf : MainConfig) (s : State) : Act → State → Prop
  | read : s.activity a = none → Moves conf s (.read a sec) (s.put a (some sec) .check)
  | finish : s.activity a = none →
      Moves conf s (.finish a) (s.put a none (.finish none (.enter .sandboxes)))
  | checkNone : s.activity a = some ⟨some sec, .check⟩ → s.memo sec = none →
      Moves conf s (.next a k) (s.put a sec .publish)
  | checkSome : s.activity a = some ⟨some sec, .check⟩ → s.memo sec ≠ none →
      Moves conf s (.next a k) (s.put a sec .fetch)
  | publish : s.activity a = some ⟨some sec, .publish⟩ →
      Moves conf s (.next a k) ((s.publish sec).put a sec (.submit 0 []))
  | submit : s.activity a = some ⟨some sec, .submit i futures⟩ → jobAt conf i sec = some job →
      s.futures k = none →
      Moves conf s (.next a k) ((s.submit k job i).put a sec (.submit (i + 1) (futures ++ [k])))
  | fork : s.activity a = some ⟨some .resources, .submit i futures⟩ → i < size conf .resources →
      s.activity b = none →
      Moves conf s (.next a b)
        ((s.put b (some .shells) .check).put a (some .resources) (.lookup i futures b))
  | submitted : s.activity a = some ⟨some sec, .submit i futures⟩ → ¬ i < size conf sec →
      Moves conf s (.next a k) (s.put a sec (.collect futures none))
  | found : s.activity a = some ⟨some sec, .lookup i futures b⟩ →
      s.activity b = some ⟨sec?, .returned handlers⟩ → conf.resourcesConf[i]? = some c →
      HandlerStorage.shellNamed c.shellName (shellsOf handlers) = some shell → s.futures k = none →
      Moves conf s (.next a k)
        ((s.submit k (.resource c shell) i).put a sec (.submit (i + 1) (futures ++ [k])))
  | abort : s.activity a = some ⟨some sec, .lookup i futures b⟩ →
      Moves conf s (.next a k) (s.put a sec (.join e futures))
  | joined : s.activity a = some ⟨some sec, .join e futures⟩ →
      Moves conf s (.next a k) (s.put a sec (.raised e))
  | collectOk : s.activity a = some ⟨some sec, .collect futures exception⟩ → k ∈ futures →
      s.futures k = some ⟨job, index, some (.ok handler)⟩ → s.memo sec = some version →
      Moves conf s (.collect a k)
        ((s.append sec version ⟨k, index, handler⟩).put a sec
          (.collect (futures.erase k) exception))
  | collectError : s.activity a = some ⟨some sec, .collect futures exception⟩ → k ∈ futures →
      s.futures k = some ⟨job, index, some (.error e)⟩ →
      Moves conf s (.collect a k) (s.put a sec (.collect (futures.erase k) (some e)))
  | collected : s.activity a = some ⟨some sec, .collect [] none⟩ →
      Moves conf s (.next a k) (s.put a sec .fetch)
  | failed : s.activity a = some ⟨some sec, .collect [] (some e)⟩ →
      Moves conf s (.next a k) (s.put a sec (.finish (some e) (.enter .sandboxes)))
  | fetch : s.activity a = some ⟨some sec, .fetch⟩ → s.memo sec = some version →
      Moves conf s (.next a k) (s.put a sec (.returned (s.lists (sec, version))))
  | enter : s.activity a = some ⟨sec?, .finish e (.enter sec)⟩ → s.memo sec = some version →
      Moves conf s (.next a k) (s.put a sec? (.finish e (.at sec version 0)))
  | skip : s.activity a = some ⟨sec?, .finish e (.enter sec)⟩ → s.memo sec = none →
      Moves conf s (.next a k) (s.put a sec? (.finish e (.after sec)))
  | leave : s.activity a = some ⟨sec?, .finish e (.at sec version pos)⟩ →
      Moves conf s (.next a k) (s.put a sec? (.finish e (.after sec)))
  | finished : s.activity a = some ⟨sec?, .finish e .vcenter⟩ →
      Moves conf s (.next a k) (s.put a sec? (.finished e))
  | release : s.activity a = some ⟨sec?, .finish e (.at sec version pos)⟩ →
      (s.lists (sec, version))[pos]? = some entry → releases evs = [entry.handler.release] →
      pc = .finish e (.at sec version (pos + 1)) ∨ (∃ e', pc = .raised e') →
      Moves conf s (.release a api) ((s.record entry.future evs).put a sec? pc)
  | disconnect : s.activity a = some ⟨sec?, .finish e .vcenter⟩ →
      pc = .finished e ∨ (∃ e', pc = .raised e') →
      Moves conf s (.release a api) ((s.record none [.disconnectVcenter r]).put a sec? pc)
  | complete : s.futures k = some ⟨job, index, none⟩ → job.run conf.hasCsSmb api = (r, evs) →
      Moves conf s (.complete k api)
        ({ s with futures := Function.update s.futures k (some ⟨job, index, some r⟩) }.record k evs)

theorem nextRead_moves (ha : s.activity a = some ⟨some sec, pc⟩)
    (h : nextRead conf s a k sec pc = some s') : Moves conf s (.next a k) s' := by
  cases pc with
  | check =>
    simp only [nextRead] at h
    split at h <;> cases h
    · exact .checkNone ha (by assumption)
    · exact .checkSome ha (by assumption)
  | publish =>
    cases h
    exact .publish ha
  | submit i futures =>
    simp only [nextRead] at h
    split at h
    · rename_i hi
      split at h
      · split at h <;> cases h
        exact .submit ha (by assumption) (by assumption)
      · rename_i hjob
        split at h <;> cases h
        cases sec with
        | resources => exact .fork ha hi (by assumption)
        | sandboxes => simp [jobAt, size] at hjob hi; omega
        | shells => simp [jobAt, size] at hjob hi; omega
    · cases h
      exact .submitted ha (by assumption)
  | lookup i futures child =>
    simp only [nextRead] at h
    split at h
    · split at h
      · split at h <;> cases h
        exact .found ha (by assumption) (by assumption) (by assumption) (by assumption)
      · cases h
        exact .abort ha
    · cases h
      exact .abort ha
    · cases h
  | join e futures =>
    simp only [nextRead] at h
    split at h <;> cases h
    exact .joined ha
  | collect futures exception =>
    cases futures with
    | nil =>
      cases exception with
      | none => cases h; exact .collected ha
      | some e => cases h; exact .failed ha
    | cons k futures => cases exception <;> simp [nextRead] at h
  | fetch =>
    obtain ⟨version, hversion, rfl⟩ := Option.map_eq_some_iff.mp h
    exact .fetch ha hversion
  | finish e loop => simp [nextRead] at h
  | returned handlers => simp [nextRead] at h
  | raised e => simp [nextRead] at h

theorem nextFinish_moves (ha : s.activity a = some ⟨sec?, .finish e loop⟩)
    (h : nextFinish s a sec? e loop = some s') : Moves conf s (.next a k) s' := by
  cases loop with
  | enter sec =>
    simp only [nextFinish] at h
    split at h <;> cases h
    · exact .enter ha (by assumption)
    · exact .skip ha (by assumption)
  | «at» sec version pos =>
    simp only [nextFinish] at h
    split at h <;> cases h
    exact .leave ha
  | vcenter =>
    simp only [nextFinish] at h
    split at h <;> cases h
    exact .finished ha

theorem release_moves (h : release conf s a api = some s') : Moves conf s (.release a api) s' := by
  unfold release at h
  split at h
  · rename_i sec? e sec version pos ha
    split at h
    · rename_i entry hentry
      obtain ⟨r, u, evs, hrun, -, hevs⟩ := entry.handler.finish_releases api conf.hasCsSmb () []
      rw [hrun] at h
      cases r with
      | ok _ =>
        cases h
        exact .release ha hentry hevs (.inl rfl)
      | error e' =>
        cases h
        exact .release ha hentry hevs (.inr ⟨e', rfl⟩)
    · cases h
  · rename_i sec? e ha
    split at h
    · split at h <;> cases h
      · exact .disconnect ha (.inl rfl)
      · exact .disconnect ha (.inr ⟨_, rfl⟩)
    · cases h
  · cases h

theorem step_moves (h : step conf s act = some s') : Moves conf s act s' := by
  cases act with
  | read a sec =>
    simp only [step] at h
    split at h <;> cases h
    exact .read (by assumption)
  | finish a =>
    simp only [step] at h
    split at h <;> cases h
    exact .finish (by assumption)
  | next a fresh =>
    simp only [step, next] at h
    split at h
    · exact nextFinish_moves (by assumption) h
    · exact nextRead_moves (by assumption) h
    · cases h
  | collect a k =>
    simp only [step, collect] at h
    split at h
    · split at h
      · split at h
        · split at h <;> cases h
          · exact .collectOk (by assumption) (by assumption) (by assumption) (by assumption)
          · exact .collectError (by assumption) (by assumption) (by assumption)
        · cases h
      · cases h
    · cases h
  | release a api => exact release_moves h
  | complete k api =>
    simp only [step, complete] at h
    split at h
    · cases h
      exact .complete (by assumption) rfl
    · cases h

end ShellTests.StorageThreads
