import ShellTests.RunCsTests
import ShellTests.StorageReservations

/-!
# The reservations of a whole run

`AutomatedTestsRunner.run`: it checks that the resources are alive, enters the
context of Do, sets the debug level via a blueprint, for which it makes a
reservation of its own, and runs the tests. The sandboxes are ended by
`HandlerStorage.finish`, as far as it comes.
-/

namespace ShellTests.RunReservations

open Machine Prog StorageThreads RunCsTests

-- ---------------------------------------------------------------------------
-- AutomatedTestsRunner.run
-- ---------------------------------------------------------------------------

/-- The calls of `import_package` and of `execute_reservation_command` answer
`imported` and `executed`. -/
def setDebugLevelViaBlueprint (api : Api) (imported executed : Except Exn Unit) : Cs σ Unit := do
  MonadExcept.ofExcept imported
  let _rid ← CloudShellHandler.createTopologyReservation api "scripts" "scripts" (24 * 60) (some "")
  MonadExcept.ofExcept executed

/-- The line that `run` is about to run; the exception `e` is on its way out. -/
inductive Line
  | alive
  | enter
  | debug
  | tests
  -- the end of the context's block
  | exit (e : Option Exn)
  | ended (e : Option Exn)
  deriving DecidableEq, Repr

structure Run where
  line : Line := .alive
  log : List Event := []
  runner : Runner := {}

inductive LineAct
  | alive (reply : Except Exn Unit)
  | enter (reply : Except Exn Unit)
  | debug (api : Api) (imported executed : Except Exn Unit)
  | tests (act : RunAct)
  | leave
  | exit (reply : Except Exn Unit)

def step (conf : MainConfig) (s : Run) : LineAct → Option Run
  | .alive reply =>
    if s.line = .alive then
      match reply with
      | .ok () => some { s with line := .enter }
      | .error e => some { s with line := .ended (some e) }
    else none
  | .enter reply =>
    if s.line = .enter then
      match reply with
      | .ok () => some { s with line := .debug }
      | .error e => some { s with line := .ended (some e) }
    else none
  | .debug api imported executed =>
    if s.line = .debug then
      let (r, _, evs) := (setDebugLevelViaBlueprint api imported executed : Cs Unit Unit) () []
      match r with
      | .ok () => some { s with line := .tests, log := evs }
      | .error e => some { s with line := .exit (some e), log := evs }
    else none
  | .tests act =>
    if s.line = .tests then
      (RunCsTests.step conf s.runner act).map fun runner => { s with runner }
    else none
  | .leave =>
    match s.line, s.runner.phase with
    | .tests, .ended e => some { s with line := .exit e }
    | _, _ => none
  | .exit reply =>
    match s.line with
    | .exit e =>
      match reply with
      | .ok () => some { s with line := .ended e }
      | .error e' => some { s with line := .ended (some e') }
    | _ => none

def init (s : Run) : Prop := ∃ hasVcenter, s = { runner := { storage := { hasVcenter } } }

def Run.calls (s : Run) : List Event := s.log ++ s.runner.storage.calls

/-- Every reservation that the run made has got an EndReservation. -/
def EndsAll (s : Run) : Prop := ∀ rid ∈ reserved s.calls, rid ∈ ended s.calls

/-- The import does not raise, and CloudShell makes the reservation. -/
def LineAct.Reserves : LineAct → Prop
  | .debug api imported _ => imported = .ok () ∧
      ∃ rid, api.createImmediateTopologyReservation [] "scripts" "scripts" (24 * 60) [] = .ok rid
  | _ => False

def Run.scripts (s : Run) : List ReservationId := reserved s.log

def Released (s : State) (entry : Entry) : Prop := entry.handler.release ∈ releases s.calls

def SandboxesEnded (s : State) : Prop :=
  ∀ version, s.memo .sandboxes = some version → ∀ entry ∈ s.lists (.sandboxes, version),
    Released s entry

/-- The download of the logs does not raise, and in the last `finish` no
release of a sandbox does, while a sandbox that is to come is not ended. -/
def Keeps (conf : MainConfig) (r : Runner) : RunAct → Prop
  | .downloaded e? => e? = none ∨ SandboxesEnded r.storage
  | .storage (.release a api) => ∀ e version pos entry,
      r.storage.activity a = some ⟨none, .finish e (.at .sandboxes version pos)⟩ →
      (r.storage.lists (.sandboxes, version))[pos]? = some entry →
      Raises (entry.handler.finish api conf.hasCsSmb : Cs Unit Unit) () [] →
      ∀ later ∈ (r.storage.lists (.sandboxes, version)).drop (pos + 1), Released r.storage later
  | _ => True

def RunKeeps (conf : MainConfig) (s : Run) (act : LineAct) : Prop :=
  ∀ ract, act = .tests ract → Keeps conf s.runner ract

-- ---------------------------------------------------------------------------
-- Where the handlers of the sandboxes are
-- ---------------------------------------------------------------------------

variable {conf : MainConfig} {s s' : State} {act : Act}

/-- A future of a sandbox is in `futures`, or it failed, or its handler is in
the list of the sandboxes. -/
def Placed (s : State) (futures : List Nat) : Prop :=
  ∃ version, s.memo .sandboxes = some version ∧ ∀ k f, s.futures k = some f →
    f.job.sec = .sandboxes → k ∈ futures ∨ (∃ e, f.outcome = some (.error e)) ∨
      k ∈ (s.lists (.sandboxes, version)).map Entry.future

def NoSandboxFuture (s : State) : Prop := ∀ k f, s.futures k = some f → f.job.sec ≠ .sandboxes

theorem Placed.submit (h : Placed s futures) (job : Job) (i : Nat) :
    Placed (s.submit k job i) (futures ++ [k]) := by
  obtain ⟨version, hmemo, hplaced⟩ := h
  refine ⟨version, hmemo, fun j f hj hsec => ?_⟩
  rcases update_eq_some hj with ⟨rfl, -⟩ | ⟨-, hj⟩
  · exact .inl (by simp)
  · exact (hplaced j f hj hsec).imp_left fun hmem => by simp [hmem]

theorem Placed.submit_other (h : Placed s futures) (hjob : job.sec ≠ .sandboxes) :
    Placed (s.submit k job i) futures := by
  obtain ⟨version, hmemo, hplaced⟩ := h
  refine ⟨version, hmemo, fun j f hj hsec => ?_⟩
  rcases update_eq_some hj with ⟨-, rfl⟩ | ⟨-, hj⟩
  · exact absurd hsec hjob
  · exact hplaced j f hj hsec

theorem placed_publish (h : NoSandboxFuture s) : Placed (s.publish .sandboxes) [] :=
  ⟨(s.memo .sandboxes).elim 0 (· + 1), by simp [State.publish],
    fun k f hk hsec => absurd hsec (h k f hk)⟩

theorem Placed.publish_other (h : Placed s futures) (hsec : sec ≠ .sandboxes) :
    Placed (s.publish sec) futures := by
  obtain ⟨version, hmemo, hplaced⟩ := h
  exact ⟨version, by simpa [State.publish, Function.update_of_ne hsec.symm] using hmemo, hplaced⟩

theorem Placed.append (h : Placed s futures) (hmemo : s.memo .sandboxes = some version)
    (handler : Held) :
    Placed (s.append .sandboxes version ⟨k, index, handler⟩) (futures.erase k) := by
  obtain ⟨version', hmemo', hplaced⟩ := h
  obtain rfl : version = version' := Option.some.inj (hmemo.symm.trans hmemo')
  refine ⟨version, hmemo, fun j f hj hsec => ?_⟩
  simp only [State.append, Function.update_self, List.map_append, List.mem_append]
  by_cases hjk : j = k
  · exact .inr (.inr (.inr (by simp [hjk])))
  · rcases hplaced j f hj hsec with hmem | hfailed | hlisted
    · exact .inl ((List.mem_erase_of_ne hjk).mpr hmem)
    · exact .inr (.inl hfailed)
    · exact .inr (.inr (.inl hlisted))

theorem Placed.append_other (h : Placed s futures) (hsec : sec ≠ .sandboxes) :
    Placed (s.append sec version entry) futures := by
  obtain ⟨version', hmemo, hplaced⟩ := h
  refine ⟨version', hmemo, ?_⟩
  have hne : (Sec.sandboxes, version') ≠ (sec, version) := by
    rintro ⟨⟩
    exact hsec rfl
  simpa only [State.append, Function.update_of_ne hne] using hplaced

theorem Placed.erase_failed (h : Placed s futures)
    (hk : s.futures k = some ⟨job, index, some (.error e)⟩) : Placed s (futures.erase k) := by
  obtain ⟨version, hmemo, hplaced⟩ := h
  refine ⟨version, hmemo, fun j f hj hsec => ?_⟩
  by_cases hjk : j = k
  · subst hjk
    obtain rfl := Option.some.inj (hk.symm.trans hj)
    exact .inr (.inl ⟨e, rfl⟩)
  · exact (hplaced j f hj hsec).imp_left (List.mem_erase_of_ne hjk).mpr

def completed (s : State) (k : Nat) (job : Job) (i : Nat) (r : Except Exn Held)
    (evs : List Event) : State :=
  { s with futures := Function.update s.futures k (some ⟨job, i, some r⟩) }.record k evs

theorem completed_futures (hk : s.futures k = some ⟨job, i, none⟩)
    (h : (completed s k job i r evs).futures j = some f) :
    ∃ f', s.futures j = some f' ∧ f'.job = f.job ∧ (f'.outcome ≠ none → f' = f) := by
  rcases update_eq_some h with ⟨rfl, rfl⟩ | ⟨-, h⟩
  · exact ⟨_, hk, rfl, by simp⟩
  · exact ⟨f, h, rfl, fun _ => rfl⟩

theorem Placed.completed (h : Placed s futures) (hk : s.futures k = some ⟨job, i, none⟩)
    (r : Except Exn Held) (evs : List Event) : Placed (completed s k job i r evs) futures := by
  obtain ⟨version, hmemo, hplaced⟩ := h
  refine ⟨version, hmemo, fun j f hj hsec => ?_⟩
  obtain ⟨f', hj', hjob, hsame⟩ := completed_futures hk hj
  refine (hplaced j f' hj' (hjob ▸ hsec)).imp_right (Or.imp_left ?_)
  rintro ⟨e, he⟩
  obtain rfl := hsame (by simp [he])
  exact ⟨e, he⟩

theorem noSandboxFuture_completed (h : NoSandboxFuture s)
    (hk : s.futures k = some ⟨job, i, none⟩) (r : Except Exn Held) (evs : List Event) :
    NoSandboxFuture (completed s k job i r evs) := by
  intro j f hj
  obtain ⟨f', hj', hjob, -⟩ := completed_futures hk hj
  rw [← hjob]
  exact h j f' hj'

def Gathering (s : State) : Pc → Prop
  | .check | .publish => s.memo .sandboxes = none ∧ NoSandboxFuture s
  | .submit _ futures | .collect futures _ => Placed s futures
  | .lookup .. | .join .. => False
  | .finish .. | .fetch | .returned _ | .raised _ => Placed s []

def Gathers (s : State) (a : Nat) : Prop :=
  (∀ b ≠ a, s.activity b = none) ∧
    ∃ pc, s.activity a = some ⟨some .sandboxes, pc⟩ ∧ Gathering s pc

theorem gathering_congr (h : Gathering s pc) (hmemo : s'.memo = s.memo)
    (hlists : s'.lists = s.lists) (hfutures : s'.futures = s.futures) : Gathering s' pc := by
  cases pc with
  | lookup | join => exact h
  | _ => simpa only [Gathering, Placed, NoSandboxFuture, hmemo, hlists, hfutures] using h

theorem gathers_put (hothers : ∀ b ≠ a, s.activity b = none) (h : Gathering s pc) :
    Gathers (s.put a (some .sandboxes) pc) a :=
  ⟨fun b hb => by simpa [State.put, Function.update_of_ne hb] using hothers b hb,
    pc, by simp [State.put], gathering_congr h rfl rfl rfl⟩

theorem gathering_completed (h : Gathering s pc) (hk : s.futures k = some ⟨job, i, none⟩)
    (r : Except Exn Held) (evs : List Event) : Gathering (completed s k job i r evs) pc := by
  cases pc with
  | check | publish => exact ⟨h.1, noSandboxFuture_completed h.2 hk r evs⟩
  | lookup | join => exact h
  | _ => exact Placed.completed h hk r evs

theorem gathering_finished (h : Placed s []) (e : Option Exn) : Gathering s (.finished e) := by
  cases e <;> exact h

theorem gathers_moves (h : Gathers s a) (hallow : (Phase.reading a).allows act)
    (hm : Moves conf s act s') : Gathers s' a := by
  obtain ⟨hothers, pc, hact, hg⟩ := h
  cases hm with
  | read | finish => cases hallow
  | checkNone ha =>
    obtain ⟨rfl, ⟨⟩, rfl⟩ := same hact hallow ha
    exact gathers_put hothers hg
  | checkSome ha hmemo =>
    obtain ⟨rfl, ⟨⟩, rfl⟩ := same hact hallow ha
    exact (hmemo hg.1).elim
  | publish ha =>
    obtain ⟨rfl, ⟨⟩, rfl⟩ := same hact hallow ha
    exact gathers_put (s := s.publish _) hothers (placed_publish hg.2)
  | submit ha hjob hk =>
    obtain ⟨rfl, ⟨⟩, rfl⟩ := same hact hallow ha
    exact gathers_put (s := s.submit _ _ _) hothers (Placed.submit hg _ _)
  | fork ha =>
    obtain ⟨rfl, ⟨⟩, rfl⟩ := same hact hallow ha
  | submitted ha | collected ha | failed ha | fetch ha =>
    obtain ⟨rfl, ⟨⟩, rfl⟩ := same hact hallow ha
    exact gathers_put hothers hg
  | found ha | abort ha | joined ha =>
    obtain ⟨rfl, ⟨⟩, rfl⟩ := same hact hallow ha
    exact hg.elim
  | collectOk ha hmem hk hmemo =>
    obtain ⟨rfl, ⟨⟩, rfl⟩ := same hact hallow ha
    exact gathers_put (s := s.append _ _ _) hothers (Placed.append hg hmemo _)
  | collectError ha hmem hk =>
    obtain ⟨rfl, ⟨⟩, rfl⟩ := same hact hallow ha
    exact gathers_put hothers (Placed.erase_failed hg hk)
  | enter ha | skip ha | leave ha =>
    obtain ⟨rfl, rfl, rfl⟩ := same hact hallow ha
    exact gathers_put hothers hg
  | finished ha =>
    obtain ⟨rfl, rfl, rfl⟩ := same hact hallow ha
    exact gathers_put hothers (gathering_finished hg _)
  | @release _ _ _ _ _ _ entry evs _ _ ha hentry hevs hpc =>
    obtain ⟨rfl, rfl, rfl⟩ := same hact hallow ha
    refine gathers_put (s := s.record _ _) hothers ?_
    rcases hpc with rfl | ⟨e', rfl⟩ <;> exact hg
  | disconnect ha hpc =>
    obtain ⟨rfl, rfl, rfl⟩ := same hact hallow ha
    refine gathers_put (s := s.record _ _) hothers ?_
    rcases hpc with rfl | ⟨e', rfl⟩
    · exact gathering_finished hg _
    · exact hg
  | complete hk hrun => exact ⟨hothers, pc, hact, gathering_completed hg hk _ _⟩

def Pc.leavesList : Pc → Bool
  | .check | .finish .. | .fetch | .returned _ | .raised _ => true
  | _ => false

/-- No activity is about to change the list of the sandboxes. -/
def Settled (s : State) : Prop :=
  ∀ b pc, s.activity b = some ⟨some .sandboxes, pc⟩ → Pc.leavesList pc

theorem Settled.put (h : Settled s) (hpc : sec? = some .sandboxes → Pc.leavesList pc) :
    Settled (s.put a sec? pc) := by
  intro b pc' hb
  rcases update_eq_some hb with ⟨-, ⟨⟩⟩ | ⟨-, hb⟩
  · exact hpc rfl
  · exact h b pc' hb

theorem Settled.other (h : Settled s) (ha : s.activity a = some ⟨some sec, pc⟩)
    (hpc : Pc.leavesList pc = false) : sec ≠ .sandboxes := by
  rintro rfl
  simp [h a pc ha] at hpc

theorem leavesList_finished (e : Option Exn) : Pc.leavesList (.finished e) := by
  cases e <;> rfl

theorem settled_moves (h : Settled s) (hp : Placed s []) (hm : Moves conf s act s') :
    Settled s' ∧ Placed s' [] := by
  cases hm with
  | read | finish => exact ⟨h.put (by simp [Pc.leavesList]), hp⟩
  | @checkNone a sec k ha hmemo =>
    refine ⟨h.put ?_, hp⟩
    rintro ⟨⟩
    obtain ⟨version, hversion, -⟩ := hp
    rw [hmemo] at hversion
    cases hversion
  | checkSome ha => exact ⟨h.put fun _ => rfl, hp⟩
  | publish ha =>
    have hsec := h.other ha rfl
    exact ⟨Settled.put (s := s.publish _) h fun heq => absurd (Option.some.inj heq) hsec,
      hp.publish_other hsec⟩
  | submit ha hjob hk =>
    have hsec := h.other ha rfl
    have hjob : _ ≠ Sec.sandboxes := (jobAt_some hjob).2.symm ▸ hsec
    exact ⟨Settled.put (s := s.submit _ _ _) h fun heq => absurd (Option.some.inj heq) hsec,
      hp.submit_other hjob⟩
  | @fork a i futures b ha =>
    have hfork : Settled (s.put b (some .shells) .check) := h.put (by simp)
    exact ⟨hfork.put (by simp), hp⟩
  | found ha hb hc hshell hk =>
    have hsec := h.other ha rfl
    exact ⟨Settled.put (s := s.submit _ _ _) h fun heq => absurd (Option.some.inj heq) hsec,
      hp.submit_other nofun⟩
  | submitted ha | abort ha | joined ha | collectError ha =>
    have hsec := h.other ha rfl
    exact ⟨h.put fun heq => absurd (Option.some.inj heq) hsec, hp⟩
  | collectOk ha hmem hk hmemo =>
    have hsec := h.other ha rfl
    exact ⟨Settled.put (s := s.append _ _ _) h fun heq => absurd (Option.some.inj heq) hsec,
      hp.append_other hsec⟩
  | collected | failed | fetch | enter | skip | leave => exact ⟨h.put fun _ => rfl, hp⟩
  | finished => exact ⟨h.put fun _ => leavesList_finished _, hp⟩
  | release ha hentry hevs hpc =>
    refine ⟨Settled.put (s := s.record _ _) h fun _ => ?_, hp⟩
    rcases hpc with rfl | ⟨e', rfl⟩ <;> rfl
  | disconnect ha hpc =>
    refine ⟨Settled.put (s := s.record _ _) h fun _ => ?_, hp⟩
    rcases hpc with rfl | ⟨e', rfl⟩
    · exact leavesList_finished _
    · rfl
  | complete hk hrun => exact ⟨h, hp.completed hk _ _⟩

-- ---------------------------------------------------------------------------
-- The last finish
-- ---------------------------------------------------------------------------

def Finishing (s : State) : Pc → Prop
  | .finish _ (.enter .sandboxes) => True
  | .finish _ (.at .sandboxes version pos) => s.memo .sandboxes = some version ∧
      ∀ entry ∈ (s.lists (.sandboxes, version)).take pos, Released s entry
  | _ => SandboxesEnded s

def Finishes (s : State) (a : Nat) : Prop :=
  ∃ pc, s.activity a = some ⟨none, pc⟩ ∧ Finishing s pc

theorem Released.record (h : Released s entry) (k : Option Nat) (evs : List Event) :
    Released (s.record k evs) entry := by
  unfold Released
  rw [calls_record, releases_append]
  exact List.mem_append_left _ h

theorem SandboxesEnded.record (h : SandboxesEnded s) (k : Option Nat) (evs : List Event) :
    SandboxesEnded (s.record k evs) :=
  fun version hmemo entry hentry => (h version hmemo entry hentry).record k evs

theorem finishes_put (h : Finishing s pc) : Finishes (s.put a none pc) a :=
  ⟨pc, by simp [State.put], h⟩

theorem finishing_after (sec : Sec) (h : SandboxesEnded s) (e : Option Exn) :
    Finishing s (.finish e (.after sec)) := by
  cases sec <;> exact h

theorem finishing_finished (h : SandboxesEnded s) (e : Option Exn) :
    Finishing s (.finished e) := by
  cases e <;> exact h

theorem finishing_raised (h : SandboxesEnded s) (e : Exn) : Finishing s (.raised e) := h

theorem finishes_next (h : Finishing s (.finish e loop))
    (hs : nextFinish s a none e loop = some s') : Finishes s' a := by
  cases loop with
  | enter sec =>
    simp only [nextFinish] at hs
    split at hs <;> cases hs
    · rename_i version hmemo
      cases sec with
      | sandboxes => exact finishes_put ⟨hmemo, by simp⟩
      | resources | shells => exact finishes_put h
    · rename_i hmemo
      refine finishes_put (finishing_after sec ?_ e)
      cases sec with
      | sandboxes =>
        intro version hversion
        rw [hmemo] at hversion
        cases hversion
      | resources | shells => exact h
  | «at» sec version pos =>
    simp only [nextFinish] at hs
    split at hs <;> cases hs
    rename_i hpos
    refine finishes_put (finishing_after sec ?_ e)
    cases sec with
    | sandboxes =>
      obtain ⟨hmemo, hreleased⟩ := h
      intro version' hmemo' entry hentry
      obtain rfl : version = version' := Option.some.inj (hmemo.symm.trans hmemo')
      refine hreleased entry ?_
      rwa [List.take_of_length_le (Nat.le_of_not_lt hpos)]
    | resources | shells => exact h
  | vcenter =>
    simp only [nextFinish] at hs
    split at hs <;> cases hs
    exact finishes_put (finishing_finished h e)

theorem finishing_release {evs : List Event}
    (h : Finishing s (.finish e (.at .sandboxes version pos)))
    (hentry : (s.lists (.sandboxes, version))[pos]? = some entry)
    (hreleases : releases evs = [entry.handler.release]) :
    Finishing (s.record entry.future evs) (.finish e (.at .sandboxes version (pos + 1))) := by
  obtain ⟨hmemo, hreleased⟩ := h
  refine ⟨hmemo, fun entry' hentry' => ?_⟩
  have htake : entry' ∈ (s.lists (.sandboxes, version)).take (pos + 1) := hentry'
  rw [List.take_add_one, hentry, List.mem_append] at htake
  rcases htake with hbefore | hnow
  · exact (hreleased entry' hbefore).record _ _
  · obtain rfl : entry' = entry := by simpa using hnow
    unfold Released
    rw [calls_record, releases_append, hreleases]
    exact List.mem_append_right _ (List.mem_singleton_self _)

theorem ended_of_rest (h : Finishing s (.finish e (.at .sandboxes version pos)))
    (hrest : ∀ later ∈ (s.lists (.sandboxes, version)).drop pos, Released s later) :
    SandboxesEnded s := by
  obtain ⟨hmemo, hreleased⟩ := h
  intro version' hmemo' entry hentry
  obtain rfl : version = version' := Option.some.inj (hmemo.symm.trans hmemo')
  rw [← List.take_append_drop pos (s.lists (.sandboxes, version)), List.mem_append] at hentry
  exact hentry.elim (hreleased entry) (hrest entry)

theorem finishes_release (hact : s.activity a = some ⟨none, pc⟩) (h : Finishing s pc)
    (hg : ∀ e version pos entry,
      s.activity a = some ⟨none, .finish e (.at .sandboxes version pos)⟩ →
      (s.lists (.sandboxes, version))[pos]? = some entry →
      Raises (entry.handler.finish api conf.hasCsSmb : Cs Unit Unit) () [] →
      ∀ later ∈ (s.lists (.sandboxes, version)).drop (pos + 1), Released s later)
    (hs : release conf s a api = some s') : Finishes s' a := by
  rcases release_run hs with
    ⟨sec?, e, sec, version, pos, entry, r, evs, ha, hentry, hrun, rfl⟩ |
    ⟨sec?, e, pc', r, ha, hpc', rfl⟩
  · obtain ⟨rfl, rfl⟩ : none = sec? ∧ pc = .finish e (.at sec version pos) := by
      simpa [hact] using ha
    have hreleases := (finish_calls hrun).2
    cases sec with
    | sandboxes =>
      have hnext := finishing_release h hentry hreleases
      cases r with
      | ok _ => exact finishes_put hnext
      | error e' =>
        have hraises : Raises (entry.handler.finish api conf.hasCsSmb : Cs Unit Unit) () [] :=
          ⟨e', by rw [hrun]⟩
        refine finishes_put (finishing_raised (ended_of_rest hnext fun later hlater => ?_) e')
        exact (hg e version pos entry hact hentry hraises later hlater).record _ _
    | resources | shells =>
      have hended : SandboxesEnded (s.record entry.future evs) := SandboxesEnded.record h _ _
      cases r <;> exact finishes_put hended
  · obtain ⟨rfl, rfl⟩ : none = sec? ∧ pc = .finish e .vcenter := by simpa [hact] using ha
    have hended : SandboxesEnded (s.record none [.disconnectVcenter r]) :=
      SandboxesEnded.record h _ _
    rcases hpc' with rfl | ⟨e', rfl⟩
    · exact finishes_put (finishing_finished hended e)
    · exact finishes_put (finishing_raised hended e')

theorem finishes_step (h : Finishes s a) (hallow : (Phase.finishing a e).allows act)
    (hg : Keeps conf ⟨.finishing a e, s, reads⟩ (.storage act))
    (hs : StorageThreads.step conf s act = some s') : Finishes s' a := by
  obtain ⟨pc, hact, hpc⟩ := h
  cases act with
  | read | finish | complete => cases hallow
  | next b fresh =>
    obtain rfl : b = a := by simpa [Phase.allows, actor] using hallow
    simp only [StorageThreads.step, StorageThreads.next, hact] at hs
    cases pc with
    | finish e' loop => exact finishes_next hpc hs
    | _ => cases hs
  | collect b k =>
    obtain rfl : b = a := by simpa [Phase.allows, actor] using hallow
    simp only [StorageThreads.step, collect, hact] at hs
    cases hs
  | release b api =>
    obtain rfl : b = a := by simpa [Phase.allows, actor] using hallow
    exact finishes_release hact hpc hg hs

-- ---------------------------------------------------------------------------
-- What holds in each phase
-- ---------------------------------------------------------------------------

def Downloads (s : State) (a : Nat) : Prop :=
  ∃ pc, s.activity a = some ⟨some .sandboxes, pc⟩ ∧
    (pc = .check ∨ pc = .fetch ∨ ∃ handlers, pc = .returned handlers)

def Keeping (s : State) : Phase → Prop
  | .start => (∀ a, s.activity a = none) ∧ s.memo .sandboxes = none ∧ NoSandboxFuture s
  | .reading a => Gathers s a
  | .testing _ | .logs _ | .downloaded _ => Settled s ∧ Placed s []
  | .downloading a _ => (Settled s ∧ Placed s []) ∧ Downloads s a
  | .finishing a _ => Placed s [] ∧ Finishes s a
  | .ended _ => Placed s [] ∧ SandboxesEnded s

theorem settled_of_gathers (hothers : ∀ b ≠ a, s.activity b = none)
    (hact : s.activity a = some ⟨some .sandboxes, pc⟩) (hpc : Pc.leavesList pc) : Settled s := by
  intro b pc' hb
  by_cases hba : b = a
  · subst hba
    obtain rfl : pc = pc' := by simpa [hact] using hb
    exact hpc
  · rw [hothers b hba] at hb
    cases hb

theorem downloads_moves (h : Downloads s a) (hp : Placed s [])
    (hallow : (Phase.downloading a e).allows act) (hm : Moves conf s act s') : Downloads s' a := by
  obtain ⟨pc, hact, hpc⟩ := h
  obtain ⟨version, hmemo, -⟩ := hp
  have hended : pc = .check ∨ pc = .fetch ∨ Pc.ended pc := by
    refine hpc.imp_right (Or.imp_right ?_)
    rintro ⟨handlers, rfl⟩
    trivial
  obtain ⟨-, pc', hact', hpc'⟩ := reread_moves (by simp [hmemo]) hact hended hallow hm
  refine ⟨pc', hact', ?_⟩
  rcases hpc' with rfl | hreturned | rfl
  · exact .inr (.inl rfl)
  · exact .inr (.inr hreturned)
  · exact hpc

theorem placed_finishing (h : Placed s []) (hallow : (Phase.finishing a e).allows act)
    (hact : s.activity a = some ⟨none, pc⟩) (hm : Moves conf s act s') : Placed s' [] := by
  cases hm with
  | read | finish | complete => cases hallow
  | checkNone ha | checkSome ha | publish ha | submit ha | fork ha | submitted ha | found ha
  | abort ha | joined ha | collectOk ha | collectError ha | collected ha | failed ha | fetch ha =>
    obtain ⟨-, hsec, -⟩ := same hact hallow ha
    cases hsec
  | _ => exact h

theorem keeping_storage (h : Keeping s phase) (hallow : phase.allows act)
    (hg : Keeps conf ⟨phase, s, reads⟩ (.storage act))
    (hs : StorageThreads.step conf s act = some s') : Keeping s' phase := by
  have hm := step_moves hs
  cases phase with
  | start | logs | downloaded | ended => cases act <;> cases hallow
  | reading a => exact gathers_moves h hallow hm
  | testing sandboxes => exact settled_moves h.1 h.2 hm
  | downloading a e => exact ⟨settled_moves h.1.1 h.1.2 hm, downloads_moves h.2 h.1.2 hallow hm⟩
  | finishing a e =>
    obtain ⟨hplaced, pc, hact, hpc⟩ := h
    exact ⟨placed_finishing hplaced hallow hact hm, finishes_step ⟨pc, hact, hpc⟩ hallow hg hs⟩

variable {r r' : Runner}

structure Inv (r : Runner) : Prop where
  reservations : Reservations r.storage
  keeping : Keeping r.storage r.phase

theorem keeping_downloaded (h : Keeping r.storage (.downloading a e))
    (hg : e? = none ∨ SandboxesEnded r.storage) (hs : downloadEnds r a e e? = some r') :
    r'.storage = r.storage ∧ Keeping r.storage r'.phase := by
  obtain ⟨⟨hsettled, hplaced⟩, pc, hact, hpc⟩ := h
  unfold downloadEnds at hs
  split at hs
  · cases hs
    exact ⟨rfl, hsettled, hplaced⟩
  · cases hs
    exact ⟨rfl, hplaced, hg.resolve_left nofun⟩
  · rename_i hraised
    rw [hact] at hraised
    simp only [Option.some.injEq, Activity.mk.injEq] at hraised
    simp [hraised.2] at hpc
  · cases hs

theorem keeping_next (h : Keeping r.storage r.phase) (hs : RunCsTests.next r = some r') :
    r'.storage = r.storage ∧ Keeping r.storage r'.phase := by
  unfold RunCsTests.next at hs
  split at hs
  · rename_i a hphase
    rw [hphase] at h
    obtain ⟨hothers, pc, hact, hg⟩ := h
    split at hs <;> cases hs
    · rename_i hreturned
      obtain ⟨-, rfl⟩ : some Sec.sandboxes = _ ∧ pc = .returned _ := by
        simpa [hact] using hreturned
      exact ⟨rfl, settled_of_gathers hothers hact rfl, hg⟩
    · rename_i hraised
      obtain ⟨-, rfl⟩ : some Sec.sandboxes = _ ∧ pc = .raised _ := by simpa [hact] using hraised
      exact ⟨rfl, settled_of_gathers hothers hact rfl, hg⟩
  · rename_i a e hphase
    rw [hphase] at h
    obtain ⟨hplaced, pc, hact, hpc⟩ := h
    split at hs <;> cases hs
    · rename_i hreturned
      obtain ⟨-, rfl⟩ : none = _ ∧ pc = .returned _ := by simpa [hact] using hreturned
      exact ⟨rfl, hplaced, hpc⟩
    · rename_i hraised
      obtain ⟨-, rfl⟩ : none = _ ∧ pc = .raised _ := by simpa [hact] using hraised
      exact ⟨rfl, hplaced, hpc⟩
  · cases hs

theorem keeping_finish (hp : Placed s []) (hm : Moves conf s (.finish a) s') :
    Placed s' [] ∧ Finishes s' a := by
  cases hm
  exact ⟨hp, finishes_put trivial⟩

theorem storage_run (hs : RunCsTests.step conf r (.storage act) = some r') :
    ∃ s, r.phase.allows act ∧ StorageThreads.step conf r.storage act = some s ∧
      r' = { r with storage := s, reads := newRead act ++ r.reads } := by
  simp only [RunCsTests.step] at hs
  split at hs
  · rename_i hallow
    obtain ⟨s, hstep, rfl⟩ := Option.map_eq_some_iff.mp hs
    exact ⟨s, hallow, hstep, rfl⟩
  · cases hs

theorem runner_reservations {ract : RunAct} (h : Reservations r.storage)
    (hs : RunCsTests.step conf r ract = some r') : Reservations r'.storage := by
  by_cases hstorage : ∃ act, ract = .storage act
  · obtain ⟨act, rfl⟩ := hstorage
    obtain ⟨s, -, hstep, rfl⟩ := storage_run hs
    exact reservations_step h hstep
  · cases step_runMoves hs with
    | storage => exact (hstorage ⟨_, rfl⟩).elim
    | start hstart hm => exact reservations_moves h hm nofun
    | download hlogs hm => exact reservations_moves h hm nofun
    | finish hbefore hm => exact reservations_moves h hm nofun
    | _ => exact h

theorem keeping_step {ract : RunAct} (h : Keeping r.storage r.phase) (hg : Keeps conf r ract)
    (hs : RunCsTests.step conf r ract = some r') : Keeping r'.storage r'.phase := by
  cases ract with
  | start a =>
    cases step_runMoves hs with
    | start hstart hm =>
      rw [hstart] at h
      obtain ⟨hidle, hmemo, hnone⟩ := h
      cases hm
      exact gathers_put (fun b _ => hidle b) ⟨hmemo, hnone⟩
  | storage act =>
    obtain ⟨s, hallow, hstep, rfl⟩ := storage_run hs
    exact keeping_storage h hallow hg hstep
  | next =>
    obtain ⟨hstorage, hnext⟩ := keeping_next h hs
    rwa [hstorage]
  | tested e =>
    cases step_runMoves hs with
    | tested htesting =>
      rw [htesting] at h
      exact h
  | download a =>
    cases step_runMoves hs with
    | download hlogs hm =>
      rw [hlogs] at h
      cases hm
      exact ⟨⟨h.1.put fun _ => rfl, h.2⟩, .check, by simp [State.put], .inl rfl⟩
  | downloaded e? =>
    simp only [RunCsTests.step] at hs
    split at hs
    · rename_i a e hphase
      rw [hphase] at h
      obtain ⟨hstorage, hnext⟩ := keeping_downloaded h hg hs
      rwa [hstorage]
    · cases hs
  | finish a =>
    cases step_runMoves hs with
    | finish hbefore hm =>
      refine keeping_finish ?_ hm
      rcases hbefore with hbefore | hbefore <;>
      · rw [hbefore] at h
        exact h.2

theorem inv_init (h : RunCsTests.init r) : Inv r := by
  obtain ⟨hasVcenter, rfl⟩ := h
  exact ⟨reservations_init ⟨hasVcenter, rfl⟩, fun _ => rfl, rfl, fun _ _ hk => nomatch hk⟩

theorem reach_inv (h : Reach (RunCsTests.step conf) (Keeps conf) RunCsTests.init r) : Inv r :=
  h.invariant (fun _ => inv_init) fun _ _ _ hi hg hs =>
    ⟨runner_reservations hi.reservations hs, keeping_step hi.keeping hg hs⟩

/-- When `_run_cs_tests` has ended, so have the reservations of the storage. -/
theorem storage_ends (h : Inv r) (hended : r.phase = .ended e) :
    ∀ rid ∈ reserved r.storage.calls, rid ∈ ended r.storage.calls := by
  obtain ⟨hreservations, hkeeping⟩ := h
  rw [hended] at hkeeping
  obtain ⟨⟨version, hmemo, hplaced⟩, hreleased⟩ := hkeeping
  intro rid hrid
  rcases hreservations.accounted rid hrid with hrid | ⟨k, f, sandbox, hf, hok, rfl⟩
  · exact hrid
  rcases hplaced k f hf (hreservations.made k f sandbox hf hok).1 with hmem | ⟨e, he⟩ | hlisted
  · cases hmem
  · rw [hok] at he
    cases he
  · obtain ⟨entry, hentry, rfl⟩ := List.mem_map.mp hlisted
    obtain ⟨f', hf', hok'⟩ := hreservations.listed _ entry hentry
    obtain rfl := Option.some.inj (hf.symm.trans hf')
    have hhandler : entry.handler = .sandbox sandbox := by simpa [hok'] using hok
    have hrelease := hreleased version hmemo entry hentry
    unfold Released at hrelease
    rw [hhandler] at hrelease
    exact mem_ended_iff.mpr hrelease

-- ---------------------------------------------------------------------------
-- The whole run
-- ---------------------------------------------------------------------------

theorem ofExcept_calls (reply : Except Exn Unit) (s : σ) :
    Triple (MonadExcept.ofExcept reply : Cs σ Unit) s fun _ _ evs => evs = [] := by
  cases reply with
  | ok => exact .pure' rfl
  | error e => exact .throw' rfl

/-- Setting the debug level ends no reservation; where it returns, it has made one. -/
theorem setDebugLevel_reserves (api : Api) (imported executed : Except Exn Unit) (s : σ) :
    Triple (setDebugLevelViaBlueprint api imported executed) s fun r _ evs =>
      ended evs = [] ∧ (r = .ok () → reserved evs ≠ []) := by
  refine .bind (ofExcept_calls imported s) ?_ ?_
  · rintro _ s _ rfl
    refine .bind (Q := fun r _ evs => ended evs = [] ∧ ∀ rid, r = .ok rid → reserved evs ≠ [])
      ?_ ?_ ?_
    · refine .call' fun r => ⟨rfl, ?_⟩
      rintro rid rfl
      simp [reserved, Event.reserved?]
    · rintro rid s evs ⟨hnone, hmade⟩
      refine (ofExcept_calls executed s).mono ?_
      rintro _ _ _ rfl
      simpa [hnone] using fun _ => hmade rid rfl
    · rintro e _ evs ⟨hnone, -⟩
      exact ⟨hnone, by simp⟩
  · rintro e _ _ rfl
    exact ⟨rfl, by simp⟩

variable {t t' : Run}

def afterDebug : Except Exn Unit → Line
  | .ok () => .tests
  | .error e => .exit (some e)

inductive LineMoves (conf : MainConfig) (t : Run) : LineAct → Run → Prop
  | before {act : LineAct} : t.line = .alive ∨ t.line = .enter → line ≠ .tests →
      ¬ act.Reserves → LineMoves conf t act { t with line }
  | debug : t.line = .debug →
      (setDebugLevelViaBlueprint api imported executed : Cs Unit Unit) () [] = (reply, u, evs) →
      line = afterDebug reply →
      LineMoves conf t (.debug api imported executed) { t with line, log := evs }
  | tests : t.line = .tests → RunCsTests.step conf t.runner ract = some runner →
      LineMoves conf t (.tests ract) { t with runner }
  | leave : t.line = .tests → t.runner.phase = .ended e →
      LineMoves conf t .leave { t with line := .exit e }
  | exit : t.line = .exit e → LineMoves conf t (.exit reply) { t with line := .ended e' }

theorem step_lineMoves {act : LineAct} (hs : step conf t act = some t') :
    LineMoves conf t act t' := by
  cases act with
  | alive reply =>
    simp only [step] at hs
    split at hs
    · rename_i hline
      cases reply <;> cases hs <;> exact .before (.inl hline) nofun nofun
    · cases hs
  | enter reply =>
    simp only [step] at hs
    split at hs
    · rename_i hline
      cases reply <;> cases hs <;> exact .before (.inr hline) nofun nofun
    · cases hs
  | debug api imported executed =>
    simp only [step] at hs
    split at hs
    · rename_i hline
      rcases hrun : (setDebugLevelViaBlueprint api imported executed : Cs Unit Unit) () [] with
        ⟨reply, u, evs⟩
      rw [hrun] at hs
      cases reply <;> cases hs <;> exact .debug hline hrun rfl
    · cases hs
  | tests ract =>
    simp only [step] at hs
    split at hs
    · obtain ⟨runner, hrunner, rfl⟩ := Option.map_eq_some_iff.mp hs
      exact .tests ‹_› hrunner
    · cases hs
  | leave =>
    simp only [step] at hs
    split at hs <;> cases hs
    rename_i e hline hphase
    exact .leave hline hphase
  | exit reply =>
    simp only [step] at hs
    split at hs
    · rename_i e hline
      cases reply <;> cases hs <;> exact .exit hline
    · cases hs

structure RunInv (t : Run) : Prop where
  storage : Reservations t.runner.storage
  -- before the debug level is set
  untouched : t.line = .alive ∨ t.line = .enter ∨ t.line = .debug →
    t.log = [] ∧ RunCsTests.init t.runner
  notEnded : ended t.log = []
  tested : t.scripts = [] → t.line ≠ .tests ∧ t.runner.storage.calls = []
  left : ∀ e, t.line = .exit e ∨ t.line = .ended e →
    t.runner.storage.calls = [] ∨ ∃ e', t.runner.phase = .ended e'

theorem calls_of_init (h : RunCsTests.init r) : r.storage.calls = [] := by
  obtain ⟨hasVcenter, rfl⟩ := h
  rfl

theorem runInv_init (h : init t) : RunInv t := by
  obtain ⟨hasVcenter, rfl⟩ := h
  exact ⟨reservations_init ⟨hasVcenter, rfl⟩, fun _ => ⟨rfl, hasVcenter, rfl⟩, rfl,
    fun _ => ⟨nofun, rfl⟩, fun e he => .inl rfl⟩

theorem RunInv.debug {reply : Except Exn Unit} (h : RunInv t) (hline : t.line = .debug)
    (hrun : (setDebugLevelViaBlueprint api imported executed : Cs Unit Unit) () [] =
      (reply, u, evs))
    (hnext : line = afterDebug reply) : RunInv { t with line, log := evs } := by
  obtain ⟨reply', _, evs', hm, hnone, hmade⟩ :=
    setDebugLevel_reserves api imported executed () []
  rw [hrun] at hm
  obtain ⟨rfl, rfl⟩ : reply = reply' ∧ evs = evs' := by simpa using hm
  have hcalls := calls_of_init (h.untouched (.inr (.inr hline))).2
  subst hnext
  cases reply with
  | ok =>
    exact ⟨h.storage, nofun, hnone, fun hscripts => absurd hscripts (hmade rfl),
      fun _ _ => .inl hcalls⟩
  | error e =>
    exact ⟨h.storage, nofun, hnone, fun _ => ⟨nofun, hcalls⟩, fun _ _ => .inl hcalls⟩

theorem runInv_step {act : LineAct} (h : RunInv t) (hs : step conf t act = some t') :
    RunInv t' := by
  cases step_lineMoves hs with
  | before hline hnext =>
    have hbefore := h.untouched (hline.imp_right .inl)
    have hcalls := calls_of_init hbefore.2
    exact ⟨h.storage, fun _ => hbefore, h.notEnded, fun _ => ⟨hnext, hcalls⟩,
      fun _ _ => .inl hcalls⟩
  | debug hline hrun hnext => exact h.debug hline hrun hnext
  | tests hline hrunner =>
    refine ⟨runner_reservations h.storage hrunner, ?_, h.notEnded,
      fun hscripts => absurd hline (h.tested hscripts).1, ?_⟩
    · simp [hline]
    · simp [hline]
  | @leave e hline hphase =>
    exact ⟨h.storage, nofun, h.notEnded, fun hscripts => absurd hline (h.tested hscripts).1,
      fun _ _ => .inr ⟨e, hphase⟩⟩
  | exit hline =>
    have hleft := h.left _ (.inl hline)
    exact ⟨h.storage, nofun, h.notEnded, fun hscripts => ⟨nofun, (h.tested hscripts).2⟩,
      fun _ _ => hleft⟩

theorem runner_step {act : LineAct} (hs : step conf t act = some t') :
    t'.runner = t.runner ∨ ∃ ract, act = .tests ract ∧
      RunCsTests.step conf t.runner ract = some t'.runner := by
  cases step_lineMoves hs with
  | tests hline hrunner => exact .inr ⟨_, rfl, hrunner⟩
  | _ => exact .inl rfl

theorem reach_runner {ok : Runner → RunAct → Prop}
    (h : Reach (step conf) (fun t act => ∀ ract, act = .tests ract → ok t.runner ract) init t) :
    Reach (RunCsTests.step conf) ok RunCsTests.init t.runner := by
  induction h with
  | init hi =>
    obtain ⟨hasVcenter, rfl⟩ := hi
    exact .init ⟨hasVcenter, rfl⟩
  | step _ hok hs ih =>
    rcases runner_step hs with hsame | ⟨ract, rfl, hrunner⟩
    · rwa [hsame]
    · exact .step ih (hok ract rfl) hrunner

theorem Run.reserved_calls (t : Run) :
    reserved t.calls = t.scripts ++ reserved t.runner.storage.calls :=
  reserved_append _ _

/-- The reservation of the debug level is not ended, wherever the run has come. -/
theorem RunInv.scripts_stay (h : RunInv t) (hids : (reserved t.calls).Nodup)
    (hrid : rid ∈ t.scripts) : rid ∉ ended t.calls := by
  rw [t.reserved_calls, List.nodup_append] at hids
  intro hend
  rw [Run.calls, ended_append, h.notEnded, List.nil_append] at hend
  exact hids.2.2 rid hrid rid (h.storage.own rid hend) rfl

theorem setDebugLevel_scripts
    (hrun : (setDebugLevelViaBlueprint api imported executed : Cs Unit Unit) () [] =
      (reply, u, evs)) :
    reserved evs = [] ↔ ¬ (LineAct.debug api imported executed).Reserves := by
  cases imported with
  | error e =>
    cases hrun
    exact iff_of_true rfl nofun
  | ok =>
    have hcall : (CloudShellHandler.createTopologyReservation api "scripts" "scripts" (24 * 60)
        (some "") : Cs Unit ReservationId) () [] =
          (api.createImmediateTopologyReservation [] "scripts" "scripts" (24 * 60) [], (),
            [.createImmediateTopologyReservation "scripts" "scripts" (24 * 60) []
              (api.createImmediateTopologyReservation [] "scripts" "scripts" (24 * 60) [])]) := rfl
    cases hreply : api.createImmediateTopologyReservation [] "scripts" "scripts" (24 * 60) [] with
    | error e =>
      rw [hreply] at hcall
      obtain ⟨-, rfl⟩ := Prod.mk.inj (Prod.mk.inj ((run_bind_error hcall).symm.trans hrun)).2
      simp [reserved, Event.reserved?, LineAct.Reserves, hreply]
    | ok rid =>
      rw [hreply] at hcall
      have hrun := (run_bind_ok hcall).symm.trans hrun
      cases executed <;>
      · cases hrun
        simp [reserved, Event.reserved?, LineAct.Reserves, hreply]

structure Accounts (acts : List LineAct) (t : Run) : Prop where
  inv : RunInv t
  scripts : t.scripts = [] ↔ ∀ act ∈ acts, ¬ act.Reserves

theorem accounts_init (h : init t) : Accounts [] t := by
  obtain ⟨hasVcenter, rfl⟩ := h
  exact ⟨runInv_init ⟨hasVcenter, rfl⟩, by simp [Run.scripts, reserved]⟩

theorem accounts_step {act : LineAct} (h : Accounts acts t) (hs : step conf t act = some t') :
    Accounts (acts ++ [act]) t' := by
  refine ⟨runInv_step h.inv hs, ?_⟩
  rw [List.forall_mem_append, List.forall_mem_singleton, ← h.scripts]
  cases step_lineMoves hs with
  | before hline hnext hreserves => exact (and_iff_left hreserves).symm
  | debug hline hrun hnext =>
    have hnone : t.scripts = [] := by
      rw [Run.scripts, (h.inv.untouched (.inr (.inr hline))).1]
      rfl
    rw [← setDebugLevel_scripts hrun]
    exact (and_iff_right hnone).symm
  | tests | leave | exit => exact (and_iff_left not_false).symm

/-- The run ends all reservations just when it makes none for the debug level;
those of the sandboxes are ended in any case, in a run that meets `RunKeeps`. -/
theorem endsAll_iff {e : Option Exn} (hi : init t₀) (hrun : run (step conf) t₀ acts = some t)
    (hended : t.line = .ended e) (hids : (reserved t.calls).Nodup) :
    (EndsAll t ↔ ∀ act ∈ acts, ¬ act.Reserves) ∧
      (Guarded (step conf) (RunKeeps conf) t₀ acts →
        ∀ rid ∈ reserved t.calls, rid ∉ t.scripts → rid ∈ ended t.calls) := by
  have haccounts : Accounts ([] ++ acts) t :=
    run_invariant (fun _ _ _ _ => accounts_step) (accounts_init hi) hrun
  rw [List.nil_append] at haccounts
  obtain ⟨hinv, hscripts⟩ := haccounts
  rw [← hscripts]
  refine ⟨⟨fun hends => ?_, fun hscripts => ?_⟩, fun hkeeps rid hrid hother => ?_⟩
  · refine List.eq_nil_iff_forall_not_mem.mpr fun rid hrid => ?_
    refine hinv.scripts_stay hids hrid (hends rid ?_)
    rw [t.reserved_calls, List.mem_append]
    exact .inl hrid
  · -- no test was run then, and so there is no other reservation
    intro rid hrid
    rw [t.reserved_calls, hscripts, (hinv.tested hscripts).2] at hrid
    cases hrid
  · rw [t.reserved_calls, List.mem_append] at hrid
    replace hrid := hrid.resolve_left hother
    rw [Run.calls, ended_append, List.mem_append]
    rcases hinv.left e (.inr hended) with hnone | ⟨e', hphase⟩
    · rw [hnone] at hrid
      cases hrid
    · have hreach := reach_runner (.of_run acts hi hrun hkeeps)
      exact .inr (storage_ends (reach_inv hreach) hphase rid hrid)

theorem runKeeps_of
    (h : match ract with | .storage (.release ..) | .downloaded _ => False | _ => True) :
    RunKeeps conf t (.tests ract) := by
  rintro _ ⟨⟩
  unfold Keeps
  split
  · exact h.elim
  · exact h.elim
  · trivial

def oneRun : List LineAct :=
  [.alive (.ok ()), .enter (.ok ()), .debug .obliging (.ok ()) (.ok ()),
    .tests (.start 0), .tests (.storage (.next 0 0)), .tests (.storage (.next 0 0)),
    .tests (.storage (.next 0 0)), .tests (.storage (.complete 0 .obliging)),
    .tests (.storage (.next 0 0)), .tests (.storage (.collect 0 0)),
    .tests (.storage (.next 0 0)), .tests (.storage (.next 0 0)), .tests .next,
    .tests (.tested none), .tests (.finish 1), .tests (.storage (.next 1 0)),
    .tests (.storage (.release 1 .obliging)), .tests (.storage (.next 1 0)),
    .tests (.storage (.next 1 0)), .tests (.storage (.next 1 0)), .tests (.storage (.next 1 0)),
    .tests .next, .leave, .exit (.ok ())]

theorem endsAll_one_sandbox : ∃ t : Run, t.line = .ended none ∧
    (EndsAll t ↔ ∀ act ∈ oneRun, ¬ act.Reserves) ∧
      ∀ rid ∈ reserved t.calls, rid ∉ t.scripts → rid ∈ ended t.calls := by
  let conf := sandboxesOf ["sandbox"]
  let t := (run (step conf) {} oneRun).getD {}
  have hrun : run (step conf) {} oneRun = some t := rfl
  have hguard : Guarded (step conf) (RunKeeps conf) {} oneRun := by
    refine ⟨nofun, nofun, nofun, ?_, ?_, ?_, ?_, ?_, ?_, ?_, ?_, ?_, ?_, ?_, ?_, ?_, ?_, ?_, ?_, ?_,
      ?_, ?_, nofun, nofun, trivial⟩
    all_goals try exact runKeeps_of trivial
    -- the release of the last sandbox
    rintro _ ⟨⟩ e version pos entry ⟨⟩ - - later hlater
    cases hlater
  obtain ⟨hiff, hothers⟩ :=
    endsAll_iff (e := none) ⟨false, rfl⟩ hrun rfl (by decide)
  exact ⟨t, rfl, hiff, hothers hguard⟩

/-- Nothing ends the reservation of `set_debug_level_via_blueprint`, though
every EndReservation call succeeds. -/
theorem scripts_not_ended : ∃ conf t, Reach (step conf) free init t ∧ t.line = .ended none ∧
    (∀ rid reply, .endReservation rid reply ∈ t.calls → reply = .ok ()) ∧ ¬ EndsAll t := by
  let conf := sandboxesOf ["sandbox"]
  let t := (run (step conf) {} oneRun).getD {}
  have hrun : run (step conf) {} oneRun = some t := rfl
  refine ⟨conf, t, .of_free_run _ ⟨false, rfl⟩ hrun, rfl, ?_, ?_⟩
  · intro rid reply h
    have hends : t.calls.filter (fun e => e.ended?.isSome) = [.endReservation "sandbox" (.ok ())] :=
      rfl
    have hmem : .endReservation rid reply ∈ t.calls.filter (fun e => e.ended?.isSome) :=
      List.mem_filter.mpr ⟨h, rfl⟩
    rw [hends, List.mem_singleton] at hmem
    cases hmem
    rfl
  · intro h
    have hended : ended t.calls = ["sandbox"] := rfl
    have hscripts : "scripts" ∈ ended t.calls := h "scripts" (by decide)
    rw [hended] at hscripts
    simp at hscripts

end ShellTests.RunReservations
