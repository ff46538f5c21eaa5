import ShellTests.StorageReleases

/-!
# A run of the tests

`AutomatedTestsRunner._run_cs_tests`: main reads the sandbox handlers, runs a
thread for each of them, and its `finally` block downloads the logs and calls
`finish`. The threads of the sandboxes may read any property of the storage.
-/

namespace ShellTests.RunCsTests

open Machine StorageThreads

/-- Where main stands; the exception `e` is on its way out. -/
inductive Phase
  | start
  -- for sh in handler_storage.sandbox_handlers, read by the activity `a`
  | reading (a : Nat)
  -- the executor's block, with this many sandbox threads
  | testing (sandboxes : Nat)
  | logs (e : Option Exn)
  | downloading (a : Nat) (e : Option Exn)
  | downloaded (e : Option Exn)
  | finishing (a : Nat) (e : Option Exn)
  | ended (e : Option Exn)
  deriving DecidableEq, Repr

structure Runner where
  phase : Phase := .start
  storage : State := {}
  reads : List Nat := []

inductive RunAct
  | start (a : Nat)
  | storage (act : Act)
  -- the activity that main waits for has ended
  | next
  -- the sandbox threads have ended, and `_wait_for_futures` raises `e`
  | tested (e : Option Exn)
  | download (a : Nat)
  | downloaded (e : Option Exn)
  | finish (a : Nat)

def actor : Act → Option Nat
  | .read a _ | .finish a | .next a _ | .collect a _ | .release a _ => some a
  | .complete .. => none

def Phase.allows : Phase → Act → Bool
  | .testing sandboxes, .read .. => 0 < sandboxes
  | _, .read .. | _, .finish _ => false
  | .testing _, _ => true
  -- no executor is left
  | .finishing .., .complete .. => false
  | .reading a, act | .downloading a _, act | .finishing a _, act => (actor act).all (· = a)
  | _, _ => false

def newRead : Act → List Nat
  | .read a _ => [a]
  | _ => []

def hasEnded (s : State) (a : Nat) : Bool :=
  match s.activity a with
  | some ⟨_, .returned _⟩ | some ⟨_, .raised _⟩ => true
  | _ => false

/-- `handler_storage.cs_smb_handler and exc_cls != KeyboardInterrupt` -/
def downloadsLogs (conf : MainConfig) (e : Option Exn) : Bool :=
  conf.hasCsSmb && e != some .keyboardInterrupt

def Runner.begin (conf : MainConfig) (r : Runner) (act : Act) (phase : Phase) : Option Runner :=
  (StorageThreads.step conf r.storage act).map fun s => { r with storage := s, phase }

def next (r : Runner) : Option Runner :=
  match r.phase with
  | .reading a =>
    match r.storage.activity a with
    | some ⟨_, .returned handlers⟩ => some { r with phase := .testing handlers.length }
    | some ⟨_, .raised e⟩ => some { r with phase := .logs (some e) }
    | _ => none
  | .finishing a e =>
    match r.storage.activity a with
    | some ⟨_, .returned _⟩ => some { r with phase := .ended e }
    | some ⟨_, .raised e'⟩ => some { r with phase := .ended (some e') }
    | _ => none
  | _ => none

/-- The end of the download, which may raise, after the handlers were read. -/
def downloadEnds (r : Runner) (a : Nat) (e e? : Option Exn) : Option Runner :=
  match r.storage.activity a, e? with
  | some ⟨_, .returned _⟩, none => some { r with phase := .downloaded e }
  | some ⟨_, .returned _⟩, some e' => some { r with phase := .ended (some e') }
  | some ⟨_, .raised e'⟩, _ => some { r with phase := .ended (some e') }
  | _, _ => none

def step (conf : MainConfig) (r : Runner) : RunAct → Option Runner
  | .start a => if r.phase = .start then r.begin conf (.read a .sandboxes) (.reading a) else none
  | .storage act =>
    if r.phase.allows act then
      (StorageThreads.step conf r.storage act).map fun s =>
        { r with storage := s, reads := newRead act ++ r.reads }
    else none
  | .next => next r
  | .tested e =>
    match r.phase with
    | .testing _ =>
        if r.reads.all (hasEnded r.storage) then some { r with phase := .logs e } else none
    | _ => none
  | .download a =>
    match r.phase with
    | .logs e =>
      if downloadsLogs conf e then r.begin conf (.read a .sandboxes) (.downloading a e) else none
    | _ => none
  | .downloaded e? =>
    match r.phase with
    | .downloading a e => downloadEnds r a e e?
    | _ => none
  | .finish a =>
    match r.phase with
    | .logs e => if downloadsLogs conf e then none else r.begin conf (.finish a) (.finishing a e)
    | .downloaded e => r.begin conf (.finish a) (.finishing a e)
    | _ => none

def init (r : Runner) : Prop := ∃ hasVcenter, r = { storage := { hasVcenter } }

variable {conf : MainConfig} {r r' : Runner}

inductive RunMoves (conf : MainConfig) (r : Runner) : RunAct → Runner → Prop
  | start : r.phase = .start → Moves conf r.storage (.read a .sandboxes) s →
      RunMoves conf r (.start a) { r with storage := s, phase := .reading a }
  | storage : r.phase.allows act → Moves conf r.storage act s →
      RunMoves conf r (.storage act) { r with storage := s, reads := newRead act ++ r.reads }
  | read : r.phase = .reading a → r.storage.activity a = some ⟨sec?, .returned handlers⟩ →
      RunMoves conf r .next { r with phase := .testing handlers.length }
  | readFailed : r.phase = .reading a → r.storage.activity a = some ⟨sec?, .raised e⟩ →
      RunMoves conf r .next { r with phase := .logs (some e) }
  | tested : r.phase = .testing sandboxes → RunMoves conf r (.tested e) { r with phase := .logs e }
  | download : r.phase = .logs e → Moves conf r.storage (.read a .sandboxes) s →
      RunMoves conf r (.download a) { r with storage := s, phase := .downloading a e }
  | downloaded : r.phase = .downloading a e → phase = .downloaded e ∨ (∃ e', phase = .ended e') →
      RunMoves conf r (.downloaded e?) { r with phase }
  | finish : r.phase = .logs e ∨ r.phase = .downloaded e → Moves conf r.storage (.finish a) s →
      RunMoves conf r (.finish a) { r with storage := s, phase := .finishing a e }
  | finished : r.phase = .finishing a e → RunMoves conf r .next { r with phase := .ended e' }

theorem begin_moves (h : r.begin conf act phase = some r') :
    ∃ s, Moves conf r.storage act s ∧ r' = { r with storage := s, phase } := by
  obtain ⟨s, hs, rfl⟩ := Option.map_eq_some_iff.mp h
  exact ⟨s, step_moves hs, rfl⟩

theorem step_runMoves {ract : RunAct} (h : step conf r ract = some r') :
    RunMoves conf r ract r' := by
  cases ract with
  | start a =>
    simp only [step] at h
    split at h
    · obtain ⟨s, hs, rfl⟩ := begin_moves h
      exact .start (by assumption) hs
    · cases h
  | storage act =>
    simp only [step] at h
    split at h
    · obtain ⟨s, hs, rfl⟩ := Option.map_eq_some_iff.mp h
      exact .storage (by assumption) (step_moves hs)
    · cases h
  | next =>
    simp only [step, next] at h
    split at h
    · split at h <;> cases h
      · exact .read (by assumption) (by assumption)
      · exact .readFailed (by assumption) (by assumption)
    · split at h <;> cases h
      · exact .finished (by assumption)
      · exact .finished (by assumption)
    · cases h
  | tested e =>
    simp only [step] at h
    split at h
    · split at h <;> cases h
      exact .tested (by assumption)
    · cases h
  | download a =>
    simp only [step] at h
    split at h
    · split at h
      · obtain ⟨s, hs, rfl⟩ := begin_moves h
        exact .download (by assumption) hs
      · cases h
    · cases h
  | downloaded e? =>
    simp only [step, downloadEnds] at h
    split at h
    · split at h <;> cases h
      · exact .downloaded (by assumption) (.inl rfl)
      · exact .downloaded (by assumption) (.inr ⟨_, rfl⟩)
      · exact .downloaded (by assumption) (.inr ⟨_, rfl⟩)
    · cases h
  | finish a =>
    simp only [step] at h
    split at h
    · split at h
      · cases h
      · obtain ⟨s, hs, rfl⟩ := begin_moves h
        exact .finish (.inl (by assumption)) hs
    · obtain ⟨s, hs, rfl⟩ := begin_moves h
      exact .finish (.inr (by assumption)) hs
    · cases h

def NothingHeld (s : State) : Prop :=
  ∀ sec version, s.memo sec = some version → s.lists (sec, version) = []

/-- A read calls its own `finish` only while the storage holds no handler. -/
def FailsEmpty (r : Runner) : RunAct → Prop
  | .storage (.next a _) => ∀ sec e, r.storage.activity a = some ⟨some sec, .collect [] (some e)⟩ →
      NothingHeld r.storage
  | _ => True

def MainRead (s : State) : Pc → Prop
  | .check | .publish => s.memo .sandboxes = none
  | .finish _ loop => s.memo .sandboxes ≠ none ∧ NothingHeld s ∧
      ∀ sec version pos, loop = .at sec version pos → s.lists (sec, version) = []
  | .returned handlers => ∃ version, s.memo .sandboxes = some version ∧
      s.lists (.sandboxes, version) = handlers
  | _ => s.memo .sandboxes ≠ none

/-- No one is in a `finish`, or about to begin the list of the sandboxes again. -/
def Calm (s : State) : Prop :=
  ∀ b act, s.activity b = some act → (∀ e loop, act.pc ≠ .finish e loop) ∧
    act ≠ ⟨some .sandboxes, .publish⟩

def Pc.ended : Pc → Prop
  | .returned _ | .raised _ => True
  | _ => False

def Full (s : State) : Prop :=
  ∃ version, s.memo .sandboxes = some version ∧ s.lists (.sandboxes, version) ≠ []

def Testing (s : State) (sandboxes : Nat) : Prop :=
  Calm s ∧ s.memo .sandboxes ≠ none ∧
    (Full s ∨ sandboxes = 0 ∧ ∀ b act, s.activity b = some act → Pc.ended act.pc)

def Reading (s : State) (a : Nat) : Prop :=
  (∀ b ≠ a, s.activity b = none) ∧ ∃ pc, s.activity a = some ⟨some .sandboxes, pc⟩ ∧ MainRead s pc

def Downloading (s : State) (a : Nat) : Prop :=
  s.memo .sandboxes ≠ none ∧
    ∃ pc, s.activity a = some ⟨some .sandboxes, pc⟩ ∧ (pc = .check ∨ pc = .fetch ∨ Pc.ended pc)

def Finishing (s : State) (a : Nat) : Prop :=
  (∀ k, (releasesOf k s.log).length ≤ 1) ∧
    ∃ pc, s.activity a = some ⟨none, pc⟩ ∧ ∀ e loop, pc = .finish e loop → Ahead s loop

def PhaseInv (s : State) : Phase → Prop
  | .start => Quiet s ∧ (∀ a, s.activity a = none) ∧ s.memo .sandboxes = none
  | .reading a => Quiet s ∧ Reading s a
  | .testing sandboxes => Quiet s ∧ Testing s sandboxes
  | .logs _ | .downloaded _ => Quiet s ∧ s.memo .sandboxes ≠ none
  | .downloading a _ => Quiet s ∧ Downloading s a
  | .finishing a _ => Finishing s a
  | .ended _ => ∀ k, (releasesOf k s.log).length ≤ 1

theorem once_of_phaseInv (h : PhaseInv s phase) (k : Nat) : (releasesOf k s.log).length ≤ 1 := by
  cases phase with
  | finishing a e => exact h.1 k
  | ended e => exact h k
  | _ => exact h.1.once k

variable {s s' : State} {act : Act}

theorem same (hact : s.activity a = some ⟨sec, pc⟩) (hactor : (some b).all (· = a))
    (hb : s.activity b = some ⟨sec', pc'⟩) : b = a ∧ sec = sec' ∧ pc = pc' := by
  obtain rfl : b = a := by simpa using hactor
  rw [hact] at hb
  exact ⟨rfl, by simpa using hb⟩

-- ---------------------------------------------------------------------------
-- Main reads the sandboxes
-- ---------------------------------------------------------------------------

theorem mainRead_congr (hread : MainRead s pc) (hmemo : s'.memo = s.memo)
    (hlists : s'.lists = s.lists) : MainRead s' pc := by
  cases pc <;> simpa [MainRead, NothingHeld, hmemo, hlists] using hread

theorem reading_put (hothers : ∀ b ≠ a, s.activity b = none) (hread : MainRead s pc) :
    Reading (s.put a (some .sandboxes) pc) a :=
  ⟨fun b hb => by simpa [State.put, Function.update_of_ne hb] using hothers b hb,
    pc, by simp [State.put], mainRead_congr hread rfl rfl⟩

theorem mainRead_finished (hmemo : s.memo .sandboxes ≠ none) (hnothing : NothingHeld s)
    (e : Option Exn) : MainRead s (.finished e) := by
  cases e with
  | none =>
    obtain ⟨version, hversion⟩ := Option.ne_none_iff_exists'.mp hmemo
    exact ⟨version, hversion, hnothing _ _ hversion⟩
  | some e => exact hmemo

theorem after_ne_at (sec : Sec) : Loop.after sec ≠ .at sec' version pos := by
  cases sec <;> simp [Loop.after, Sec.next]

theorem reading_moves (h : Reading s a) (hallow : (Phase.reading a).allows act)
    (hm : Moves conf s act s')
    (hguard : ∀ sec e b k, act = .next b k → s.activity b = some ⟨some sec, .collect [] (some e)⟩ →
      NothingHeld s) : Reading s' a := by
  obtain ⟨hothers, pc, hact, hread⟩ := h
  cases hm with
  | read | finish => cases hallow
  | checkNone ha hmemo =>
    obtain ⟨rfl, ⟨⟩, rfl⟩ := same hact hallow ha
    exact reading_put hothers hmemo
  | checkSome ha hmemo =>
    obtain ⟨rfl, ⟨⟩, rfl⟩ := same hact hallow ha
    exact (hmemo hread).elim
  | publish ha =>
    obtain ⟨rfl, ⟨⟩, rfl⟩ := same hact hallow ha
    exact reading_put (s := s.publish _) hothers (by simp [MainRead, State.publish])
  | submit ha hjob hk =>
    obtain ⟨rfl, ⟨⟩, rfl⟩ := same hact hallow ha
    exact reading_put (s := s.submit _ _ _) hothers hread
  | fork ha =>
    obtain ⟨rfl, ⟨⟩, rfl⟩ := same hact hallow ha
  | submitted ha | abort ha | joined ha | collectError ha | collected ha =>
    obtain ⟨rfl, ⟨⟩, rfl⟩ := same hact hallow ha
    exact reading_put hothers hread
  | found ha =>
    obtain ⟨rfl, ⟨⟩, rfl⟩ := same hact hallow ha
    exact reading_put (s := s.submit _ _ _) hothers hread
  | collectOk ha =>
    obtain ⟨rfl, ⟨⟩, rfl⟩ := same hact hallow ha
    exact reading_put (s := s.append _ _ _) hothers hread
  | failed ha =>
    have hnothing : NothingHeld s := hguard _ _ _ _ rfl ha
    obtain ⟨rfl, ⟨⟩, rfl⟩ := same hact hallow ha
    exact reading_put hothers ⟨hread, hnothing, by simp⟩
  | fetch ha hmemo =>
    obtain ⟨rfl, ⟨⟩, rfl⟩ := same hact hallow ha
    exact reading_put hothers ⟨_, hmemo, rfl⟩
  | enter ha hmemo =>
    obtain ⟨rfl, rfl, rfl⟩ := same hact hallow ha
    refine reading_put hothers ⟨hread.1, hread.2.1, ?_⟩
    rintro _ _ _ ⟨⟩
    exact hread.2.1 _ _ hmemo
  | skip ha | leave ha =>
    obtain ⟨rfl, rfl, rfl⟩ := same hact hallow ha
    exact reading_put hothers ⟨hread.1, hread.2.1, fun _ _ _ hat => (after_ne_at _ hat).elim⟩
  | finished ha =>
    obtain ⟨rfl, rfl, rfl⟩ := same hact hallow ha
    exact reading_put hothers (mainRead_finished hread.1 hread.2.1 _)
  | release ha hentry =>
    obtain ⟨rfl, rfl, rfl⟩ := same hact hallow ha
    rw [hread.2.2 _ _ _ rfl] at hentry
    simp at hentry
  | disconnect ha hpc =>
    obtain ⟨rfl, rfl, rfl⟩ := same hact hallow ha
    refine reading_put (s := s.record _ _) hothers ?_
    rcases hpc with rfl | ⟨e', rfl⟩
    · exact mainRead_finished (s := s.record _ _) hread.1 hread.2.1 _
    · exact hread.1
  | complete hk hrun => exact ⟨hothers, pc, hact, mainRead_congr hread rfl rfl⟩

theorem testing_start (h : Reading s a) (hact : s.activity a = some ⟨sec?, .returned handlers⟩) :
    Testing s handlers.length := by
  obtain ⟨hothers, pc, hact', hread⟩ := h
  obtain ⟨rfl, rfl⟩ : some Sec.sandboxes = sec? ∧ pc = .returned handlers := by
    simpa [hact'] using hact
  obtain ⟨version, hmemo, rfl⟩ := hread
  have honly (b : Nat) (act : Activity) (hb : s.activity b = some act) :
      act = ⟨some .sandboxes, .returned (s.lists (.sandboxes, version))⟩ := by
    by_cases hba : b = a
    · subst hba
      simpa [hact] using hb.symm
    · simp [hothers b hba] at hb
  refine ⟨fun b act hb => by simp [honly b act hb], by simp [hmemo], ?_⟩
  by_cases hnil : s.lists (.sandboxes, version) = []
  · exact .inr ⟨by simp [hnil], fun b act hb => by simp [honly b act hb, Pc.ended]⟩
  · exact .inl ⟨version, hmemo, hnil⟩

theorem calm_put (h : Calm s) (hfinish : ∀ e loop, pc ≠ .finish e loop)
    (hpublish : (⟨sec?, pc⟩ : Activity) ≠ ⟨some .sandboxes, .publish⟩) :
    Calm (s.put a sec? pc) := by
  intro b act hb
  rcases update_eq_some hb with ⟨-, rfl⟩ | ⟨-, hb⟩
  · exact ⟨hfinish, hpublish⟩
  · exact h b act hb

theorem calm_moves (h : Calm s) (hfull : Full s) (hallow : (Phase.testing sandboxes).allows act)
    (hm : Moves conf s act s')
    (hguard : ∀ sec e b k, act = .next b k → s.activity b = some ⟨some sec, .collect [] (some e)⟩ →
      NothingHeld s) : Calm s' := by
  obtain ⟨version, hmemo, hne⟩ := hfull
  cases hm with
  | finish => cases hallow
  | checkNone ha hnone =>
    refine calm_put h (by simp) ?_
    rintro ⟨⟩
    simp [hmemo] at hnone
  | publish => exact calm_put (s := s.publish _) h (by simp) (by simp)
  | submit | found => exact calm_put (s := s.submit _ _ _) h (by simp) (by simp)
  | fork => exact calm_put (calm_put h (by simp) (by simp)) (by simp) (by simp)
  | collectOk => exact calm_put (s := s.append _ _ _) h (by simp) (by simp)
  | failed ha => exact (hne (hguard _ _ _ _ rfl ha _ _ hmemo)).elim
  | enter ha | skip ha | leave ha | finished ha | release ha | disconnect ha =>
    exact ((h _ _ ha).1 _ _ rfl).elim
  | complete => exact h
  | _ => exact calm_put h (by simp) (by simp)

theorem full_moves (h : Full s) (hcalm : Calm s) (hm : Moves conf s act s') : Full s' := by
  obtain ⟨version, hmemo, hne⟩ := h
  cases hm with
  | @publish a sec k ha =>
    have hsec : Sec.sandboxes ≠ sec := by
      rintro rfl
      exact (hcalm _ _ ha).2 rfl
    exact ⟨version,
      by simpa [State.put, State.publish, Function.update_of_ne hsec] using hmemo, hne⟩
  | @collectOk a sec futures exception k job index handler version' =>
    refine ⟨version, hmemo, ?_⟩
    by_cases hp : (Sec.sandboxes, version) = (sec, version')
    · simp [State.put, State.append, hp]
    · simpa [State.put, State.append, Function.update_of_ne hp] using hne
  | _ => exact ⟨version, hmemo, hne⟩

theorem ended_moves (h : ∀ b act, s.activity b = some act → Pc.ended act.pc)
    (hallow : (Phase.testing 0).allows act) (hm : Moves conf s act s') :
    s'.activity = s.activity ∧ s'.memo = s.memo := by
  cases hm with
  | read | finish => cases hallow
  | complete => exact ⟨rfl, rfl⟩
  | checkNone ha | checkSome ha | publish ha | submit ha | fork ha | submitted ha | found ha
  | abort ha | joined ha | collectOk ha | collectError ha | collected ha | failed ha | fetch ha
  | enter ha | skip ha | leave ha | finished ha | release ha | disconnect ha =>
    exact (h _ _ ha).elim

theorem testing_moves (h : Testing s sandboxes) (hallow : (Phase.testing sandboxes).allows act)
    (hm : Moves conf s act s')
    (hguard : ∀ sec e b k, act = .next b k → s.activity b = some ⟨some sec, .collect [] (some e)⟩ →
      NothingHeld s) : Testing s' sandboxes := by
  obtain ⟨hcalm, hmemo, hfull | ⟨rfl, hended⟩⟩ := h
  · have hfull' := full_moves hfull hcalm hm
    have ⟨version, hmemo', _⟩ := hfull'
    exact ⟨calm_moves hcalm hfull hallow hm hguard, by simp [hmemo'], .inl hfull'⟩
  · obtain ⟨hactivity, hmemo'⟩ := ended_moves hended hallow hm
    exact ⟨by simpa [Calm, hactivity] using hcalm, by simpa [hmemo'] using hmemo,
      .inr ⟨rfl, by simpa [hactivity] using hended⟩⟩

-- ---------------------------------------------------------------------------
-- The finally block
-- ---------------------------------------------------------------------------

theorem reread_moves (hmemo : s.memo .sandboxes ≠ none)
    (hact : s.activity a = some ⟨some .sandboxes, pc⟩)
    (hpc : pc = .check ∨ pc = .fetch ∨ Pc.ended pc)
    (hallow : (Phase.downloading a e).allows act) (hm : Moves conf s act s') :
    s'.memo = s.memo ∧ ∃ pc', s'.activity a = some ⟨some .sandboxes, pc'⟩ ∧
      (pc' = .fetch ∨ (∃ handlers, pc' = .returned handlers) ∨ pc' = pc) := by
  cases hm with
  | read | finish => cases hallow
  | checkNone ha hnone =>
    obtain ⟨rfl, ⟨⟩, rfl⟩ := same hact hallow ha
    exact (hmemo hnone).elim
  | checkSome ha =>
    obtain ⟨rfl, ⟨⟩, rfl⟩ := same hact hallow ha
    exact ⟨rfl, .fetch, by simp [State.put], .inl rfl⟩
  | @fetch b sec version k ha =>
    obtain ⟨rfl, ⟨⟩, rfl⟩ := same hact hallow ha
    exact ⟨rfl, .returned (s.lists (.sandboxes, version)), by simp [State.put],
      .inr (.inl ⟨_, rfl⟩)⟩
  | complete => exact ⟨rfl, pc, hact, .inr (.inr rfl)⟩
  | publish ha | submit ha | fork ha | submitted ha | found ha | abort ha | joined ha
  | collectOk ha | collectError ha | collected ha | failed ha | enter ha | skip ha | leave ha
  | finished ha | release ha | disconnect ha =>
    obtain ⟨rfl, -, rfl⟩ := same hact hallow ha
    simp [Pc.ended] at hpc

theorem downloading_moves (h : Downloading s a) (hallow : (Phase.downloading a e).allows act)
    (hm : Moves conf s act s') : Downloading s' a := by
  obtain ⟨hmemo, pc, hact, hpc⟩ := h
  obtain ⟨hsame, pc', hact', hpc'⟩ := reread_moves hmemo hact hpc hallow hm
  refine ⟨hsame ▸ hmemo, pc', hact', ?_⟩
  rcases hpc' with rfl | ⟨handlers, rfl⟩ | rfl
  · exact .inr (.inl rfl)
  · exact .inr (.inr trivial)
  · exact hpc

theorem finishing_put (honce : ∀ k, (releasesOf k s.log).length ≤ 1)
    (hpc : ∀ e loop, pc = .finish e loop → Ahead (s.put a none pc) loop) :
    Finishing (s.put a none pc) a :=
  ⟨honce, pc, by simp [State.put], hpc⟩

theorem finished_ne (e : Option Exn) : Pc.finished e ≠ .finish e' loop := by
  cases e <;> simp [Pc.finished]

theorem finishing_moves (h : Finishing s a) (hallow : (Phase.finishing a e).allows act)
    (hm : Moves conf s act s') : Finishing s' a := by
  obtain ⟨honce, pc, hact, hahead⟩ := h
  cases hm with
  | read | finish | complete => cases hallow
  | enter ha hmemo =>
    obtain ⟨rfl, rfl, rfl⟩ := same hact hallow ha
    refine finishing_put honce ?_
    rintro _ _ ⟨⟩
    refine ahead_put (hahead _ _ rfl) ?_
    simp only [ahead_enter hmemo, List.suffix_rfl]
  | skip ha =>
    obtain ⟨rfl, rfl, rfl⟩ := same hact hallow ha
    refine finishing_put honce ?_
    rintro _ _ ⟨⟩
    exact ahead_put (hahead _ _ rfl) (ahead_suffix _ _)
  | leave ha =>
    obtain ⟨rfl, rfl, rfl⟩ := same hact hallow ha
    refine finishing_put honce ?_
    rintro _ _ ⟨⟩
    refine ahead_put (hahead _ _ rfl) ?_
    rw [ahead_after]
    exact List.suffix_append ..
  | finished ha =>
    obtain ⟨rfl, rfl, rfl⟩ := same hact hallow ha
    exact finishing_put honce fun _ _ hfinish => (finished_ne _ hfinish).elim
  | release ha hentry hevs hpc =>
    obtain ⟨rfl, rfl, rfl⟩ := same hact hallow ha
    have hreleased := ahead_release (hahead _ _ rfl) hentry hevs
    refine finishing_put hreleased.once ?_
    rintro _ _ hfinish
    rcases hpc with rfl | ⟨e', rfl⟩
    · cases hfinish
      exact ahead_put hreleased List.suffix_rfl
    · cases hfinish
  | @disconnect a sec? e pc r api ha hpc =>
    obtain ⟨rfl, rfl, rfl⟩ := same hact hallow ha
    refine finishing_put (fun k => by simpa [releasesOf_record] using honce k) ?_
    rintro _ _ hfinish
    rcases hpc with rfl | ⟨e', rfl⟩
    · exact (finished_ne _ hfinish).elim
    · cases hfinish
  | checkNone ha | checkSome ha | publish ha | submit ha | fork ha | submitted ha | found ha
  | abort ha | joined ha | collectOk ha | collectError ha | collected ha | failed ha | fetch ha =>
    obtain ⟨-, hsec, -⟩ := same hact hallow ha
    cases hsec

-- ---------------------------------------------------------------------------
-- The whole run
-- ---------------------------------------------------------------------------

structure Inv (r : Runner) : Prop where
  owned : ∃ owner, Owned r.storage owner
  phase : PhaseInv r.storage r.phase

theorem inv_init (h : init r) : Inv r := by
  obtain ⟨hasVcenter, rfl⟩ := h
  refine ⟨⟨fun _ => none, ?_, ?_, ?_⟩, ⟨?_, ?_, ?_⟩, ?_, ?_⟩ <;> simp [releasesOf]

theorem quiet_read (h : Quiet s) (hm : Moves conf s (.read a sec) s') : Quiet s' :=
  quiet_moves h hm (by simp)

theorem phaseInv_storage (h : PhaseInv s phase) (hallow : phase.allows act)
    (hm : Moves conf s act s')
    (hguard : ∀ sec e b k, act = .next b k → s.activity b = some ⟨some sec, .collect [] (some e)⟩ →
      NothingHeld s) : PhaseInv s' phase := by
  cases phase with
  | start | logs | downloaded | ended => cases act <;> cases hallow
  | reading a =>
    refine ⟨quiet_moves h.1 hm ?_, reading_moves h.2 hallow hm hguard⟩
    rintro b api sec? e sec version pos rfl hb
    obtain ⟨-, pc, hact, hread⟩ := h.2
    obtain ⟨rfl, rfl, rfl⟩ := same hact hallow hb
    exact hread.2.2 _ _ _ rfl
  | testing sandboxes =>
    refine ⟨quiet_moves h.1 hm ?_, testing_moves h.2 hallow hm hguard⟩
    intro b api sec? e sec version pos _ hb
    exact ((h.2.1 _ _ hb).1 _ _ rfl).elim
  | downloading a e =>
    refine ⟨quiet_moves h.1 hm ?_, downloading_moves h.2 hallow hm⟩
    rintro b api sec? e sec version pos rfl hb
    obtain ⟨-, pc, hact, hpc⟩ := h.2
    obtain ⟨rfl, rfl, rfl⟩ := same hact hallow hb
    simp [Pc.ended] at hpc
  | finishing a e => exact finishing_moves h hallow hm

theorem inv_step {ract : RunAct} (h : Inv r) (hg : FailsEmpty r ract)
    (hs : step conf r ract = some r') : Inv r' := by
  obtain ⟨⟨owner, howned⟩, hphase⟩ := h
  cases step_runMoves hs with
  | start hstart hm =>
    rw [hstart] at hphase
    obtain ⟨hquiet, hidle, hmemo⟩ := hphase
    refine ⟨owned_moves howned hm, quiet_read hquiet hm, ?_⟩
    cases hm
    exact reading_put (fun b _ => hidle b) hmemo
  | storage hallow hm =>
    refine ⟨owned_moves howned hm, phaseInv_storage hphase hallow hm ?_⟩
    rintro sec e b k rfl hb
    exact hg sec e hb
  | read hreading hact =>
    rw [hreading] at hphase
    exact ⟨⟨owner, howned⟩, hphase.1, testing_start hphase.2 hact⟩
  | readFailed hreading hact =>
    rw [hreading] at hphase
    obtain ⟨hquiet, -, pc, hact', hread⟩ := hphase
    obtain ⟨-, rfl⟩ : some Sec.sandboxes = _ ∧ pc = .raised _ := by simpa [hact'] using hact
    exact ⟨⟨owner, howned⟩, hquiet, hread⟩
  | tested htesting =>
    rw [htesting] at hphase
    exact ⟨⟨owner, howned⟩, hphase.1, hphase.2.2.1⟩
  | download hlogs hm =>
    rw [hlogs] at hphase
    refine ⟨owned_moves howned hm, quiet_read hphase.1 hm, ?_⟩
    cases hm
    exact ⟨hphase.2, .check, by simp [State.put], .inl rfl⟩
  | downloaded hdownloading hnext =>
    rw [hdownloading] at hphase
    refine ⟨⟨owner, howned⟩, ?_⟩
    rcases hnext with rfl | ⟨e', rfl⟩
    · exact ⟨hphase.1, hphase.2.1⟩
    · exact hphase.1.once
  | finish hbefore hm =>
    have hquiet : Quiet r.storage := by
      rcases hbefore with hbefore | hbefore <;> (rw [hbefore] at hphase; exact hphase.1)
    refine ⟨owned_moves howned hm, ?_⟩
    cases hm
    refine finishing_put hquiet.once ?_
    rintro _ _ ⟨⟩
    exact ahead_put (ahead_start howned hquiet) List.suffix_rfl
  | finished hfinishing =>
    exact ⟨⟨owner, howned⟩, once_of_phaseInv hphase⟩

/-- While a read calls its own `finish` only when the storage holds no handler,
no handler is released twice in a whole run. -/
theorem releases_once (conf : MainConfig) (h : Reach (step conf) FailsEmpty init r) (k : Nat) :
    (releasesOf k r.storage.log).length ≤ 1 := by
  have hi : Inv r := h.invariant (fun _ => inv_init) fun _ _ _ hi hg hs => inv_step hi hg hs
  exact once_of_phaseInv hi.phase k

def sandboxesOf (names : List String) : MainConfig :=
  { shellsConf := [], resourcesConf := [], sandboxesConf := names.map fun name => { name } }

theorem failsEmpty_of (h : ∀ sec e, r.storage.activity a ≠ some ⟨some sec, .collect [] (some e)⟩) :
    FailsEmpty r (.storage (.next a k)) := fun sec e ha => (h sec e ha).elim

def oneRead : List RunAct :=
  [.start 0, .storage (.next 0 0), .storage (.next 0 0), .storage (.next 0 0),
    .storage (.complete 0 .obliging), .storage (.next 0 0), .storage (.collect 0 0),
    .storage (.next 0 0), .storage (.next 0 0), .next,
    .storage (.read 1 .resources), .storage (.next 1 0), .storage (.next 1 0),
    .storage (.next 1 0), .storage (.next 1 0), .storage (.next 1 0), .tested none,
    .finish 2, .storage (.next 2 0), .storage (.release 2 .obliging), .storage (.next 2 0),
    .storage (.next 2 0), .storage (.next 2 0), .storage (.next 2 0), .storage (.next 2 0), .next]

theorem releases_once_ended : ∃ r : Runner, r.phase = .ended none ∧
    releasesOf 0 r.storage.log = [.endReservation "sandbox"] ∧
      (releasesOf 0 r.storage.log).length ≤ 1 := by
  let r := (run (step (sandboxesOf ["sandbox"])) {} oneRead).getD {}
  have hrun : run (step (sandboxesOf ["sandbox"])) {} oneRead = some r := rfl
  have hguard :
      Guarded (step (sandboxesOf ["sandbox"])) FailsEmpty {} oneRead := by
    simp only [oneRead, Guarded]
    refine ⟨trivial, ?_, ?_, ?_, trivial, ?_, trivial, ?_, ?_, trivial, trivial, ?_, ?_, ?_, ?_, ?_,
      trivial, trivial, ?_, trivial, ?_, ?_, ?_, ?_, ?_, trivial, trivial⟩
    all_goals exact failsEmpty_of (by rintro _ _ ⟨⟩)
  exact ⟨r, rfl, rfl,
    releases_once (sandboxesOf ["sandbox"]) (.of_run _ ⟨false, rfl⟩ hrun hguard) 0⟩

/-- Two sandboxes, of which the second fails: the property ends the first one,
and the `finally` block ends it again. -/
theorem released_twice : ∃ r : Runner, Reach (step (sandboxesOf ["a", "b"])) free init r ∧
    releasesOf 0 r.storage.log = [.endReservation "a", .endReservation "a"] := by
  let refusing : Api := { Api.obliging with
    createImmediateReservation := fun _ _ _ => .error (.cloudShellApi "100" "") }
  let reading : List RunAct := [.start 0, .storage (.next 0 0), .storage (.next 0 0),
    .storage (.next 0 0), .storage (.next 0 1), .storage (.complete 0 .obliging),
    .storage (.complete 1 refusing), .storage (.next 0 0), .storage (.collect 0 0),
    .storage (.collect 0 1)]
  let own : List RunAct := [.storage (.next 0 0), .storage (.next 0 0),
    .storage (.release 0 .obliging), .storage (.next 0 0), .storage (.next 0 0),
    .storage (.next 0 0), .storage (.next 0 0), .next]
  let cleanup : List RunAct := [.finish 2, .storage (.next 2 0), .storage (.release 2 .obliging)]
  exact ⟨_, .of_free_run (reading ++ own ++ cleanup) ⟨false, rfl⟩ rfl, rfl⟩

end ShellTests.RunCsTests
