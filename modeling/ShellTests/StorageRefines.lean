import Mathlib.Data.List.Perm.Basic
import ShellTests.Creation
import ShellTests.Ownership
import ShellTests.StorageThreads

/-!
# The one thread among the threads

What `HandlerStorage` does in one thread is a run of the machine of
`StorageThreads`: each read is an activity whose tasks run as soon as they are
submitted, and each of its steps follows a line of the read. So what holds in
every interleaving holds of the storage that one thread reads.
-/

namespace ShellTests

open Prog

/-- The answers to what is called after `log`. -/
def Api.after (api : Api) (log : List Event) : Api where
  createResource evs := api.createResource (log ++ evs)
  setAttributesValues evs := api.setAttributesValues (log ++ evs)
  deleteResource evs := api.deleteResource (log ++ evs)
  createImmediateReservation evs := api.createImmediateReservation (log ++ evs)
  createImmediateTopologyReservation evs := api.createImmediateTopologyReservation (log ++ evs)
  getReservationStatus evs := api.getReservationStatus (log ++ evs)
  getReservationErrors evs := api.getReservationErrors (log ++ evs)
  endReservation evs := api.endReservation (log ++ evs)
  addShell evs := api.addShell (log ++ evs)
  updateShell evs := api.updateShell (log ++ evs)
  deleteShell evs := api.deleteShell (log ++ evs)
  addDependenciesToOfflinePypi evs := api.addDependenciesToOfflinePypi (log ++ evs)
  addExtraStandards evs := api.addExtraStandards (log ++ evs)
  clearOfflinePypi evs := api.clearOfflinePypi (log ++ evs)
  disconnectVcenter evs := api.disconnectVcenter (log ++ evs)
  getTopologiesByCategory evs := api.getTopologiesByCategory (log ++ evs)
  getTopologyDetails evs := api.getTopologyDetails (log ++ evs)
  getReservationResourcesPositions evs := api.getReservationResourcesPositions (log ++ evs)
  getResourceDetails evs := api.getResourceDetails (log ++ evs)
  connect evs := api.connect (log ++ evs)

section
variable {σ : Type} (api : Api) (log : List Event)

theorem waitCompletedLoop_shifts (rid : ReservationId) (n : Nat) :
    Shifts log (CloudShellHandler.waitCompletedLoop (σ := σ) api rid n)
      (CloudShellHandler.waitCompletedLoop (api.after log) rid n) := by
  induction n with
  | zero => exact .throw' _
  | succ n ih =>
    refine .bind (.call' _ _) fun status => ?_
    split
    · exact .pure' ()
    · exact ih

theorem endReservation_shifts (rid : ReservationId) (wait : Bool) :
    Shifts log (CloudShellHandler.endReservation (σ := σ) api rid wait)
      (CloudShellHandler.endReservation (api.after log) rid wait) := by
  refine .bind (.call' _ _) fun _ => ?_
  split
  · exact waitCompletedLoop_shifts api log rid 30
  · exact .pure' ()

theorem Held.finish_shifts (hasSmb : Bool) (h : Held) :
    Shifts log (h.finish api hasSmb : Cs σ Unit) (h.finish (api.after log) hasSmb) := by
  cases h with
  | sandbox h => exact endReservation_shifts api log h.reservationId true
  | resource h => exact .call' _ _
  | shell h =>
    refine .bind (.tryCatch' (.call' _ _) fun e => ?_) fun _ => ?_
    · split
      · exact .pure' ()
      split
      · exact .pure' ()
      · exact .throw' _
    · split
      · exact .call' _ _
      · exact .pure' ()

theorem Held.finish_run (hasSmb : Bool) (h : Held) (s : σ) :
    h.finish api hasSmb s log =
      (((h.finish (api.after log) hasSmb : Cs Unit Unit) () []).1, s,
        log ++ ((h.finish (api.after log) hasSmb : Cs Unit Unit) () []).2.2) := by
  have hrun := h.finish_shifts api log hasSmb s []
  rwa [List.append_nil] at hrun

end

namespace StorageThreads

open Machine HandlerStorage

-- ---------------------------------------------------------------------------
-- The two states
-- ---------------------------------------------------------------------------

def heldOf (st : HandlerStorage) : Sec → Option (List Held)
  | .sandboxes => st.sandboxMemo.map (·.map .sandbox)
  | .resources => st.resourceMemo.map (·.map .resource)
  | .shells => st.shellMemo.map (·.map .shell)

def State.holds (s : State) (sec : Sec) : Option (List Held) :=
  (s.memo sec).map fun version => (s.lists (sec, version)).map Entry.handler

/-- The two states agree; from `n` on there is no future and no activity yet. -/
structure Sim (conf : MainConfig) (st : HandlerStorage) (log : List Event) (n : Nat) (s : State) :
    Prop where
  sameConf : st.conf = conf
  vcenter : s.hasVcenter = st.hasVcenter
  memo : ∀ sec, s.holds sec = heldOf st sec
  events : s.log.map Prod.snd = log
  fresh : ∀ k, n ≤ k → s.futures k = none ∧ s.activity k = none
  unwritten : ∀ sec, s.memo sec = none → s.lists (sec, 0) = []

variable {conf : MainConfig} {st st' st'' : HandlerStorage} {log log' log'' : List Event}
  {n n' n'' a : Nat} {s s' s'' : State} {sec? : Option Sec} {pc pc' pc'' : Pc}

theorem put_self (s : State) (a : Nat) (sec? : Option Sec) (pc : Pc) :
    (s.put a sec? pc).activity a = some ⟨sec?, pc⟩ := by
  simp [State.put]

theorem put_other (s : State) (sec? : Option Sec) (pc : Pc) (hba : b ≠ a) :
    (s.put a sec? pc).activity b = s.activity b := by
  simp [State.put, hba]

theorem Sim.put (h : Sim conf st log n s) (ha : a < n) : Sim conf st log n (s.put a sec? pc) where
  sameConf := h.sameConf
  vcenter := h.vcenter
  memo := h.memo
  events := h.events
  fresh k hk := by
    have hka : k ≠ a := by omega
    exact ⟨(h.fresh k hk).1, (put_other s sec? pc hka).trans (h.fresh k hk).2⟩
  unwritten := h.unwritten

theorem Sim.record (h : Sim conf st log n s) (k : Option Nat) (evs : List Event) :
    Sim conf st (log ++ evs) n (s.record k evs) where
  sameConf := h.sameConf
  vcenter := h.vcenter
  memo := h.memo
  events := by
    rw [State.record, List.map_append, h.events, List.map_map]
    simp [Function.comp_def]
  fresh := h.fresh
  unwritten := h.unwritten

theorem Sim.later (h : Sim conf st log n s) (hle : n ≤ n') : Sim conf st log n' s :=
  { h with fresh := fun k hk => h.fresh k (by omega) }

/-- The activity `a` comes to `pc`, and what else was there is as before. -/
structure Goes (conf : MainConfig) (a : Nat) (sec? : Option Sec) (n : Nat) (s : State)
    (st : HandlerStorage) (log : List Event) (pc : Pc) (n' : Nat) (s' : State) : Prop where
  steps : Steps (step conf) s s'
  sim : Sim conf st log n' s'
  le : n ≤ n'
  here : s'.activity a = some ⟨sec?, pc⟩
  others : ∀ b < n, b ≠ a → s'.activity b = s.activity b
  futures : ∀ k < n, s'.futures k = s.futures k

theorem Goes.refl (h : Sim conf st log n s) (hpc : s.activity a = some ⟨sec?, pc⟩) :
    Goes conf a sec? n s st log pc n s :=
  ⟨.refl, h, le_refl n, hpc, fun _ _ _ => rfl, fun _ _ => rfl⟩

theorem Goes.trans (h : Goes conf a sec? n s st log pc n' s')
    (h' : Goes conf a sec? n' s' st' log' pc' n'' s'') :
    Goes conf a sec? n s st' log' pc' n'' s'' where
  steps := h.steps.trans h'.steps
  sim := h'.sim
  le := h.le.trans h'.le
  here := h'.here
  others b hb hba := by rw [h'.others b (by have := h.le; omega) hba, h.others b hb hba]
  futures k hk := by rw [h'.futures k (by have := h.le; omega), h.futures k hk]

theorem Goes.one (act : Act) (h : Sim conf st log n s) (ha : a < n)
    (hstep : step conf s act = some (s.put a sec? pc)) :
    Goes conf a sec? n s st log pc n (s.put a sec? pc) where
  steps := .one hstep
  sim := h.put ha
  le := le_refl n
  here := put_self ..
  others _ _ hba := put_other _ _ _ hba
  futures _ _ := rfl

-- ---------------------------------------------------------------------------
-- finish
-- ---------------------------------------------------------------------------

def Pc.unlessRaised (r : Except Exn Unit) (pc : Pc) : Pc :=
  match r with
  | .ok _ => pc
  | .error e => .raised e

theorem release_goes {e : Option Exn} {entry : Entry} {version pos : Nat} {api : Api}
    (h : Sim conf st log n s) (ha : a < n)
    (hpc : s.activity a = some ⟨sec?, .finish e (.at sec version pos)⟩)
    (hentry : (s.lists (sec, version))[pos]? = some entry)
    (hrun : entry.handler.finish api conf.hasCsSmb st log = (r, st', log')) :
    ∃ s', Goes conf a sec? n s st log'
        (.unlessRaised r (.finish e (.at sec version (pos + 1)))) n s' ∧
      s'.lists = s.lists ∧ st' = st := by
  rw [entry.handler.finish_run api log conf.hasCsSmb st] at hrun
  rcases hunit : (entry.handler.finish (api.after log) conf.hasCsSmb : Cs Unit Unit) () [] with
    ⟨r', _, evs⟩
  rw [hunit] at hrun
  obtain ⟨rfl, rfl, rfl⟩ := Prod.mk.inj hrun |>.imp id Prod.mk.inj
  have hstep : step conf s (.release a (api.after log)) = some ((s.record entry.future evs).put a
      sec? (.unlessRaised r' (.finish e (.at sec version (pos + 1))))) := by
    simp only [step, release, hpc, hentry, hunit]
    cases r' <;> rfl
  refine ⟨_, ⟨.one hstep, (h.record _ _).put ha, le_refl n, put_self .., ?_, fun _ _ => rfl⟩, rfl,
    rfl⟩
  exact fun b _ hba => put_other _ _ _ hba

theorem releases_go {e : Option Exn} {version : Nat} {api : Api} (hs : List Held) (pos : Nat)
    (h : Sim conf st log n s) (ha : a < n)
    (hpc : s.activity a = some ⟨sec?, .finish e (.at sec version pos)⟩)
    (hlist : ((s.lists (sec, version)).map Entry.handler).drop pos = hs)
    (hrun : each (Held.finish api conf.hasCsSmb) hs st log = (r, st', log')) :
    st' = st ∧
      ∃ s', Goes conf a sec? n s st log' (.unlessRaised r (.finish e (.after sec))) n s' := by
  induction hs generalizing pos s log with
  | nil =>
    obtain ⟨rfl, rfl, rfl⟩ := Prod.mk.inj hrun |>.imp id Prod.mk.inj
    refine ⟨rfl, _, .one (.next a 0) h ha ?_⟩
    have hpos : ¬ pos < (s.lists (sec, version)).length := by
      simpa using hlist
    simp only [step, next, hpc, nextFinish, if_neg hpos]
    rfl
  | cons x hs ih =>
    have hget : ((s.lists (sec, version)).map Entry.handler)[pos]? = some x := by
      rw [← List.head?_drop, hlist, List.head?_cons]
    rw [List.getElem?_map, Option.map_eq_some_iff] at hget
    obtain ⟨entry, hentry, rfl⟩ := hget
    rcases hx : entry.handler.finish api conf.hasCsSmb st log with ⟨r₁, st₁, log₁⟩
    obtain ⟨s₁, hgo, hlists, rfl⟩ := release_goes h ha hpc hentry hx
    cases r₁ with
    | error e' =>
      have heach := run_bind_error (f := fun _ => each (Held.finish api conf.hasCsSmb) hs) hx
      obtain ⟨rfl, rfl, rfl⟩ := Prod.mk.inj (heach.symm.trans hrun) |>.imp id Prod.mk.inj
      exact ⟨rfl, s₁, hgo⟩
    | ok _ =>
      have heach := run_bind_ok (f := fun _ => each (Held.finish api conf.hasCsSmb) hs) hx
      have htail : ((s₁.lists (sec, version)).map Entry.handler).drop (pos + 1) = hs := by
        rw [hlists, ← List.tail_drop, hlist, List.tail_cons]
      obtain ⟨hst, s₂, hgo'⟩ := ih (pos + 1) hgo.sim hgo.here htail (heach.symm.trans hrun)
      exact ⟨hst, s₂, hgo.trans hgo'⟩

theorem section_goes {e : Option Exn} {api : Api} (sec : Sec) (h : Sim conf st log n s) (ha : a < n)
    (hpc : s.activity a = some ⟨sec?, .finish e (.enter sec)⟩)
    (hrun : each (Held.finish api conf.hasCsSmb) ((heldOf st sec).getD []) st log =
      (r, st', log')) :
    st' = st ∧
      ∃ s', Goes conf a sec? n s st log' (.unlessRaised r (.finish e (.after sec))) n s' := by
  have hmemo := h.memo sec
  cases hversion : s.memo sec with
  | none =>
    rw [State.holds, hversion, Option.map_none] at hmemo
    rw [← hmemo, Option.getD_none] at hrun
    obtain ⟨rfl, rfl, rfl⟩ := Prod.mk.inj hrun |>.imp id Prod.mk.inj
    refine ⟨rfl, _, .one (.next a 0) h ha ?_⟩
    simp only [step, next, hpc, nextFinish, hversion]
    rfl
  | some version =>
    rw [State.holds, hversion, Option.map_some] at hmemo
    rw [← hmemo, Option.getD_some] at hrun
    have henter : Goes conf a sec? n s st log (.finish e (.at sec version 0)) n _ :=
      .one (.next a 0) h ha (by simp only [step, next, hpc, nextFinish, hversion])
    obtain ⟨hst, s', hgo⟩ := releases_go _ 0 henter.sim ha henter.here rfl hrun
    exact ⟨hst, s', henter.trans hgo⟩

theorem held_eq (st : HandlerStorage) : st.held = (heldOf st .sandboxes).getD [] ++
    ((heldOf st .resources).getD [] ++ (heldOf st .shells).getD []) := by
  have hgetD {α : Type} (memo : Option (List α)) (wrap : α → Held) :
      (memo.map (·.map wrap)).getD [] = (memo.getD []).map wrap := by
    cases memo <;> rfl
  simp only [held, heldOf, hgetD, List.append_assoc]

theorem vcenter_goes {e : Option Exn} {api : Api} (h : Sim conf st log n s) (ha : a < n)
    (hpc : s.activity a = some ⟨sec?, .finish e .vcenter⟩)
    (hrun : finishVcenter api st st log = (r, st', log')) :
    st' = st ∧ ∃ s', Goes conf a sec? n s st log' (.unlessRaised r (.finished e)) n s' := by
  have hv := h.vcenter
  unfold finishVcenter at hrun
  cases hvcenter : st.hasVcenter with
  | false =>
    rw [hvcenter] at hrun hv
    obtain ⟨rfl, rfl, rfl⟩ := Prod.mk.inj hrun |>.imp id Prod.mk.inj
    refine ⟨rfl, _, .one (.next a 0) h ha ?_⟩
    simp only [step, next, hpc, nextFinish, hv]
    rfl
  | true =>
    rw [hvcenter] at hrun hv
    obtain ⟨rfl, rfl, rfl⟩ := Prod.mk.inj hrun |>.imp id Prod.mk.inj
    have hstep : step conf s (.release a (api.after log)) =
        some ((s.record none [.disconnectVcenter (api.disconnectVcenter log)]).put a sec?
          (.unlessRaised (api.disconnectVcenter log) (.finished e))) := by
      simp only [step, release, hpc, hv, Api.after, List.append_nil]
      cases api.disconnectVcenter log <;> rfl
    refine ⟨rfl, _, .one hstep, (h.record _ _).put ha, le_refl n, put_self .., ?_, fun _ _ => rfl⟩
    exact fun b _ hba => put_other _ _ _ hba

theorem section_then {e : Option Exn} {api : Api} {m : Cs HandlerStorage Unit} (sec : Sec)
    (rest : List Held) (h : Sim conf st log n s) (ha : a < n)
    (hpc : s.activity a = some ⟨sec?, .finish e (.enter sec)⟩)
    (hrun : (do each (Held.finish api conf.hasCsSmb) ((heldOf st sec).getD [] ++ rest); m)
      st log = (r, st', log'))
    (hrest : ∀ s₁ log₁, Goes conf a sec? n s st log₁ (.finish e (.after sec)) n s₁ →
      (do each (Held.finish api conf.hasCsSmb) rest; m) st log₁ = (r, st', log') →
      st' = st ∧ ∃ s', Goes conf a sec? n s₁ st log' (.unlessRaised r (.finished e)) n s') :
    st' = st ∧ ∃ s', Goes conf a sec? n s st log' (.unlessRaised r (.finished e)) n s' := by
  rw [run_bind, each_append, run_bind] at hrun
  rcases hsec : each (Held.finish api conf.hasCsSmb) ((heldOf st sec).getD []) st log with
    ⟨r₁, st₁, log₁⟩
  rw [hsec] at hrun
  obtain ⟨rfl, s₁, hgo⟩ := section_goes sec h ha hpc hsec
  cases r₁ with
  | error e' =>
    obtain ⟨rfl, rfl, rfl⟩ := Prod.mk.inj hrun |>.imp id Prod.mk.inj
    exact ⟨rfl, s₁, hgo⟩
  | ok _ =>
    obtain ⟨hst, s', hgo'⟩ := hrest s₁ log₁ hgo hrun
    exact ⟨hst, s', hgo.trans hgo'⟩

theorem finish_goes {e : Option Exn} {api : Api} (h : Sim conf st log n s) (ha : a < n)
    (hpc : s.activity a = some ⟨sec?, .finish e (.enter .sandboxes)⟩)
    (hrun : HandlerStorage.finish api st log = (r, st', log')) :
    st' = st ∧ ∃ s', Goes conf a sec? n s st log' (.unlessRaised r (.finished e)) n s' := by
  rw [finish_eq, held_eq, h.sameConf] at hrun
  refine section_then .sandboxes _ h ha hpc hrun fun s₁ log₁ hsandboxes hrun₁ => ?_
  refine section_then .resources _ hsandboxes.sim ha hsandboxes.here hrun₁
    fun s₂ log₂ hresources hrun₂ => ?_
  rw [← List.append_nil ((heldOf st .shells).getD [])] at hrun₂
  refine section_then .shells [] hresources.sim ha hresources.here hrun₂
    fun s₃ log₃ hshells hrun₃ => ?_
  exact vcenter_goes hshells.sim ha hshells.here hrun₃

-- ---------------------------------------------------------------------------
-- A read
-- ---------------------------------------------------------------------------

section
variable {κ ρ η : Type}

/-- How the reads of a property of the one thread are played by the machine:
its memo field, its confs and its jobs, and the lookup before a job. -/
structure Plays (conf : MainConfig) (p : Section κ ρ η) (sec : Sec) (wrap : η → Held)
    (job : κ → ρ → Job) : Prop where
  memo : ∀ st, heldOf st sec = (p.memo st).map (·.map wrap)
  memo_self : ∀ hs st, p.memo (p.setMemo hs st) = some hs
  memo_other : ∀ hs st sec', sec' ≠ sec → heldOf (p.setMemo hs st) sec' = heldOf st sec'
  memo_again : ∀ hs hs' st, p.setMemo hs' (p.setMemo hs st) = p.setMemo hs' st
  kept : ∀ hs st, (p.setMemo hs st).conf = st.conf ∧ (p.setMemo hs st).hasVcenter = st.hasVcenter
  size : size conf sec = (p.confs conf).length
  run : ∀ api st c needed,
    (job c needed).run st.conf.hasCsSmb api = outcomeOf wrap (p.create api st c needed)
  lookup_ok : ∀ {i c n a s st log futures needed st' log'}, (p.confs conf)[i]? = some c →
    Sim conf st log n s → a < n → s.activity a = some ⟨some sec, .submit i futures⟩ →
    p.lookup c st log = (.ok needed, st', log') → p.memo st' = p.memo st ∧
      ∃ k n' s', n ≤ k ∧ k < n' ∧ s'.futures k = some ⟨job c needed, i, none⟩ ∧
        Goes conf a (some sec) n s st' log' (.submit (i + 1) (futures ++ [k])) n' s'
  lookup_error : ∀ {i c n a s st log futures e st' log'}, (p.confs conf)[i]? = some c →
    Sim conf st log n s → a < n → s.activity a = some ⟨some sec, .submit i futures⟩ →
    p.lookup c st log = (.error e, st', log') →
      ∃ n' s', Goes conf a (some sec) n s st' log' (.join e futures) n' s'

variable {p : Section κ ρ η} {sec : Sec} {wrap : η → Held} {job : κ → ρ → Job}

def Done (wrap : η → Held) (s : State) (k : Nat) (r : Except Exn η) : Prop :=
  ∃ job i, s.futures k = some ⟨job, i, some (r.map wrap)⟩

theorem Done.isDone {r : Except Exn η} (h : Done wrap s k r) : s.isDone k := by
  obtain ⟨job, i, hk⟩ := h
  simp [State.isDone, hk]

theorem complete_goes {api : Api} {job : Job} (h : Goes conf a sec? n s st log pc n' s')
    (hn : n ≤ k) (hn' : k < n') (hk : s'.futures k = some ⟨job, i, none⟩)
    (hrun : job.run conf.hasCsSmb api = (r, evs)) :
    ∃ s'', Goes conf a sec? n s st (log ++ evs) pc n' s'' ∧
      s''.futures k = some ⟨job, i, some r⟩ := by
  have hstep : step conf s' (.complete k api) = some (State.record
      { s' with futures := Function.update s'.futures k (some ⟨job, i, some r⟩) } k evs) := by
    simp only [step, complete, hk, hrun]
  have hsim : Sim conf st log n'
      { s' with futures := Function.update s'.futures k (some ⟨job, i, some r⟩) } :=
    { h.sim with
      fresh := fun k' hk' => by
        have hne : k' ≠ k := by omega
        exact ⟨(Function.update_of_ne hne _ _).trans (h.sim.fresh k' hk').1,
          (h.sim.fresh k' hk').2⟩ }
  refine ⟨_, ⟨h.steps.trans (.one hstep), hsim.record _ _, h.le, h.here, h.others, ?_⟩, ?_⟩
  · intro k' hk'
    have hne : k' ≠ k := by omega
    exact (Function.update_of_ne hne _ _).trans (h.futures k' hk')
  · exact Function.update_self ..

theorem Done.frame {r : Except Exn η} (h : Done wrap s k r)
    (hgo : Goes conf a sec? n s st log pc n' s') (hk : k < n) : Done wrap s' k r := by
  obtain ⟨job, i, hfuture⟩ := h
  exact ⟨job, i, (hgo.futures k hk).trans hfuture⟩

theorem task_goes (hp : Plays conf p sec wrap job) (api : Api) {c : κ} {futures : List Nat}
    (hi : (p.confs conf)[i]? = some c) (h : Sim conf st log n s) (ha : a < n)
    (hpc : s.activity a = some ⟨some sec, .submit i futures⟩)
    (hlookup : p.lookup c st log = (.ok needed, st', log')) :
    p.memo st' = p.memo st ∧ ∃ k n' s', n ≤ k ∧ k < n' ∧
      Done wrap s' k (p.create api st' c needed () []).1 ∧
      Goes conf a (some sec) n s st' (log' ++ (p.create api st' c needed () []).2.2)
        (.submit (i + 1) (futures ++ [k])) n' s' := by
  obtain ⟨hmemo, k, n', s₁, hn, hn', hk, hgo⟩ := hp.lookup_ok hi h ha hpc hlookup
  have hrun : (job c needed).run conf.hasCsSmb api =
      ((p.create api st' c needed () []).1.map wrap, (p.create api st' c needed () []).2.2) := by
    rw [← hgo.sim.sameConf]
    exact hp.run api st' c needed
  obtain ⟨s₂, hgo', hdone⟩ := complete_goes hgo hn hn' hk hrun
  exact ⟨hmemo, k, n', s₂, hn, hn', ⟨_, _, hdone⟩, hgo'⟩

theorem submit_goes (hp : Plays conf p sec wrap job) (api : Nat → Api) (rest : List κ) :
    ∀ {i n s st log futures fs st' log'}, (p.confs conf).drop i = rest → Sim conf st log n s →
      a < n → s.activity a = some ⟨some sec, .submit i futures⟩ →
      p.submit api i rest st log = (.ok fs, st', log') → p.memo st' = p.memo st ∧
        ∃ ks n' s', ks.Nodup ∧ (∀ k ∈ ks, n ≤ k ∧ k < n') ∧ List.Forall₂ (Done wrap s') ks fs ∧
          Goes conf a (some sec) n s st' log' (.submit (i + rest.length) (futures ++ ks))
            n' s' := by
  induction rest with
  | nil =>
    intro i n s st log futures fs st' log' _ h ha hpc hrun
    obtain ⟨hfs, rfl, rfl⟩ := Prod.mk.inj hrun |>.imp id Prod.mk.inj
    obtain rfl := Except.ok.inj hfs
    exact ⟨rfl, [], n, s, .nil, by simp, .nil, by simpa using Goes.refl h hpc⟩
  | cons c rest ih =>
    intro i n s st log futures fs st' log' hdrop h ha hpc hrun
    have hi : (p.confs conf)[i]? = some c := by
      rw [← List.head?_drop, hdrop, List.head?_cons]
    have hdrop' : (p.confs conf).drop (i + 1) = rest := by
      rw [← List.tail_drop, hdrop, List.tail_cons]
    rw [Section.submit] at hrun
    rcases hlookup : p.lookup c st log with ⟨needed | needed, st₁, log₁⟩
    · rw [run_bind_error hlookup] at hrun
      cases hrun
    rw [run_bind_ok hlookup, run_bind_ok (run_get _ _), run_bind_ok (run_spawn _ _ _)] at hrun
    rcases hsub : p.submit api (i + 1) rest st₁
      (log₁ ++ (p.create (api i) st₁ c needed () []).2.2) with ⟨fs' | fs', st₂, log₂⟩
    · rw [run_bind_error hsub] at hrun
      cases hrun
    rw [run_bind_ok hsub] at hrun
    obtain ⟨hfs, rfl, rfl⟩ := Prod.mk.inj hrun |>.imp id Prod.mk.inj
    obtain rfl := Except.ok.inj hfs
    obtain ⟨hmemo, k, n₁, s₁, hk, hk', hdone, hgo⟩ :=
      task_goes hp (api i) hi h ha hpc hlookup
    obtain ⟨hmemo', ks, n₂, s₂, hnodup, hks, hdones, hgo'⟩ :=
      ih hdrop' hgo.sim (lt_of_lt_of_le ha hgo.le) hgo.here hsub
    refine ⟨hmemo'.trans hmemo, k :: ks, n₂, s₂, ?_, ?_, ?_, ?_⟩
    · refine List.nodup_cons.mpr ⟨fun hmem => ?_, hnodup⟩
      have := (hks k hmem).1
      omega
    · have hle := hgo.le
      have hle' := hgo'.le
      intro k' hmem
      obtain rfl | hmem := List.mem_cons.mp hmem
      · omega
      · have := hks k' hmem
        omega
    · exact .cons (hdone.frame hgo' hk') hdones
    · have hlen : i + (c :: rest).length = i + 1 + rest.length := by
        simp only [List.length_cons]
        omega
      rw [hlen, ← List.singleton_append (l := ks), ← List.append_assoc]
      exact hgo.trans hgo'

theorem submit_raises (hp : Plays conf p sec wrap job) (api : Nat → Api) (rest : List κ) :
    ∀ {i n s st log futures e st' log'}, (p.confs conf).drop i = rest → Sim conf st log n s →
      a < n → s.activity a = some ⟨some sec, .submit i futures⟩ →
      (∀ k ∈ futures, k < n ∧ s.isDone k) →
      p.submit api i rest st log = (.error e, st', log') →
        ∃ n' s', Goes conf a (some sec) n s st' log' (.raised e) n' s' := by
  induction rest with
  | nil =>
    intro i n s st log futures e st' log' _ _ _ _ _ hrun
    cases hrun
  | cons c rest ih =>
    intro i n s st log futures e st' log' hdrop h ha hpc hfutures hrun
    have hi : (p.confs conf)[i]? = some c := by
      rw [← List.head?_drop, hdrop, List.head?_cons]
    have hdrop' : (p.confs conf).drop (i + 1) = rest := by
      rw [← List.tail_drop, hdrop, List.tail_cons]
    have hkept {n₁ : Nat} {s₁ : State} {st₁ : HandlerStorage} {log₁ : List Event} {pc₁ : Pc}
        (hgo : Goes conf a (some sec) n s st₁ log₁ pc₁ n₁ s₁) :
        ∀ k ∈ futures, k < n₁ ∧ s₁.isDone k := by
      intro k hk
      obtain ⟨hlt, hdone⟩ := hfutures k hk
      refine ⟨lt_of_lt_of_le hlt hgo.le, ?_⟩
      rwa [State.isDone, hgo.futures k hlt]
    rw [Section.submit] at hrun
    rcases hlookup : p.lookup c st log with ⟨e' | needed, st₁, log₁⟩
    · rw [run_bind_error hlookup] at hrun
      obtain ⟨he, rfl, rfl⟩ := Prod.mk.inj hrun |>.imp id Prod.mk.inj
      obtain rfl := Except.error.inj he
      obtain ⟨n', s₁, hgo⟩ := hp.lookup_error hi h ha hpc hlookup
      have hall : futures.all s₁.isDone := List.all_eq_true.mpr fun k hk => (hkept hgo k hk).2
      have hraised : step conf s₁ (.next a 0) = some (s₁.put a (some sec) (.raised e')) := by
        simp [step, next, hgo.here, nextRead, hall]
      exact ⟨n', _, hgo.trans (.one _ hgo.sim (lt_of_lt_of_le ha hgo.le) hraised)⟩
    rw [run_bind_ok hlookup, run_bind_ok (run_get _ _), run_bind_ok (run_spawn _ _ _)] at hrun
    rcases hsub : p.submit api (i + 1) rest st₁
      (log₁ ++ (p.create (api i) st₁ c needed () []).2.2) with ⟨e' | fs, st₂, log₂⟩
    · rw [run_bind_error hsub] at hrun
      obtain ⟨he, rfl, rfl⟩ := Prod.mk.inj hrun |>.imp id Prod.mk.inj
      obtain rfl := Except.error.inj he
      obtain ⟨-, k, n₁, s₁, -, hk', hdone, hgo⟩ := task_goes hp (api i) hi h ha hpc hlookup
      have hfutures' : ∀ k' ∈ futures ++ [k], k' < n₁ ∧ s₁.isDone k' := by
        intro k' hmem
        obtain hmem | hmem := List.mem_append.mp hmem
        · exact hkept hgo k' hmem
        · obtain rfl := List.mem_singleton.mp hmem
          exact ⟨hk', hdone.isDone⟩
      obtain ⟨n₂, s₂, hgo'⟩ :=
        ih hdrop' hgo.sim (lt_of_lt_of_le ha hgo.le) hgo.here hfutures' hsub
      exact ⟨n₂, s₂, hgo.trans hgo'⟩
    · rw [run_bind_ok hsub] at hrun
      cases hrun

theorem Sim.setMemo (hp : Plays conf p sec wrap job) (h : Sim conf st log n s) (hs : List η)
    (hlist : s'.holds sec = some (hs.map wrap))
    (hother : ∀ sec' ≠ sec, s'.holds sec' = s.holds sec') (hlog : s'.log = s.log)
    (hfutures : s'.futures = s.futures) (hactivity : s'.activity = s.activity)
    (hvcenter : s'.hasVcenter = s.hasVcenter)
    (hunwritten : ∀ sec, s'.memo sec = none → s'.lists (sec, 0) = []) :
    Sim conf (p.setMemo hs st) log n s' where
  sameConf := (hp.kept hs st).1.trans h.sameConf
  vcenter := by rw [hvcenter, h.vcenter, (hp.kept hs st).2]
  memo sec' := by
    by_cases hsec : sec' = sec
    · rw [hsec, hlist, hp.memo, hp.memo_self, Option.map_some]
    · rw [hother sec' hsec, hp.memo_other hs st sec' hsec, h.memo]
  events := by rw [hlog, h.events]
  fresh k hk := by rw [hfutures, hactivity]; exact h.fresh k hk
  unwritten := hunwritten

theorem publish_goes (hp : Plays conf p sec wrap job) (h : Sim conf st log n s) (ha : a < n)
    (hpc : s.activity a = some ⟨some sec, .check⟩) (hmemo : p.memo st = none) :
    ∃ s', Goes conf a (some sec) n s (p.setMemo [] st) log (.submit 0 []) n s' := by
  have hnone : s.memo sec = none := by
    have hsec := h.memo sec
    rw [hp.memo, hmemo, Option.map_none, State.holds, Option.map_eq_none_iff] at hsec
    exact hsec
  have hcheck : Goes conf a (some sec) n s st log .publish n _ :=
    .one (.next a 0) h ha (by simp only [step, next, hpc, nextRead, hnone, if_pos])
  have hstep : step conf (s.put a sec .publish) (.next a 0) =
      some (((s.put a sec .publish).publish sec).put a sec (.submit 0 [])) := by
    simp only [step, next, put_self, nextRead]
  refine ⟨_, hcheck.trans ⟨.one hstep, .put ?_ ha, le_refl n, put_self .., ?_, fun _ _ => rfl⟩⟩
  · refine hcheck.sim.setMemo hp [] ?_ (fun sec' hsec => ?_) rfl rfl rfl rfl fun sec' hsec => ?_
    · simp [State.holds, State.publish, State.put, hnone, h.unwritten sec hnone]
    · simp [State.holds, State.publish, State.put, hsec]
    · refine h.unwritten sec' ?_
      by_cases heq : sec' = sec
      · rw [heq, hnone]
      · simpa [State.publish, State.put, heq] using hsec
  · exact fun b _ hba => put_other _ _ _ hba

theorem future_goes (hp : Plays conf p sec wrap job) (ha : a < n) {r : Except Exn η}
    {futures : List Nat} {hs : List η} {exception : Option Exn} (hdone : Done wrap s k r)
    (hk : k ∈ futures) (h : Sim conf (p.setMemo hs st) log n s)
    (hpc : s.activity a = some ⟨some sec, .collect futures exception⟩) :
    ∃ s', Goes conf a (some sec) n s (p.setMemo (hs ++ handlersOf [r]) st) log
      (.collect (futures.erase k) ((lastException [r]).or exception)) n s' := by
  obtain ⟨job, i, hfuture⟩ := hdone
  have hholds := h.memo sec
  rw [hp.memo, hp.memo_self, Option.map_some, State.holds, Option.map_eq_some_iff] at hholds
  obtain ⟨version, hversion, hlist⟩ := hholds
  cases r with
  | error e =>
    have hnil : hs ++ handlersOf [(.error e : Except Exn η)] = hs := List.append_nil hs
    rw [hnil]
    refine ⟨_, .one (.collect a k) h ha ?_⟩
    simp only [step, collect, hpc, hversion, hfuture, hk, if_pos, Except.map]
    rfl
  | ok handler =>
    let entry : Entry := ⟨k, i, wrap handler⟩
    have hstep : step conf s (.collect a k) = some ((s.append sec version entry).put a sec
        (.collect (futures.erase k) exception)) := by
      simp only [step, collect, hpc, hversion, hfuture, hk, if_pos, Except.map]
      rfl
    have hself : (s.append sec version entry).holds sec =
        some ((hs ++ [handler]).map wrap) := by
      simp [State.holds, State.append, hversion, hlist, entry]
    have hsim : Sim conf (p.setMemo (hs ++ [handler]) st) log n (s.append sec version entry) := by
      rw [← hp.memo_again hs]
      refine h.setMemo hp _ hself (fun sec' hsec => ?_) rfl rfl rfl rfl fun sec' hnone => ?_
      · simp [State.holds, State.append, hsec]
      · have hsec : sec' ≠ sec := by
          rintro rfl
          cases hversion.symm.trans hnone
        have hne : (sec', 0) ≠ (sec, version) := fun heq => hsec (Prod.mk.inj heq).1
        exact (Function.update_of_ne hne _ _).trans (h.unwritten sec' hnone)
    refine ⟨_, .one hstep, hsim.put ha, le_refl n, put_self .., ?_, fun _ _ => rfl⟩
    exact fun b _ hba => put_other _ _ _ hba

theorem handlersOf_append (rs rs' : List (Except Exn η)) :
    handlersOf (rs ++ rs') = handlersOf rs ++ handlersOf rs' := List.filterMap_append

theorem collect_goes (hp : Plays conf p sec wrap job) (ha : a < n) (done : List (Except Exn η)) :
    ∀ {s ks futures hs exception}, List.Forall₂ (Done wrap s) ks done → futures.Perm ks →
      (∀ k ∈ ks, k < n) → Sim conf (p.setMemo hs st) log n s →
      s.activity a = some ⟨some sec, .collect futures exception⟩ →
      ∃ s', Goes conf a (some sec) n s (p.setMemo (hs ++ handlersOf done) st) log
        (.collect [] ((lastException done).or exception)) n s' := by
  induction done with
  | nil =>
    intro s ks futures hs exception hdone hperm _ h hpc
    cases hdone
    obtain rfl := hperm.eq_nil
    rw [show hs ++ handlersOf ([] : List (Except Exn η)) = hs from List.append_nil hs]
    exact ⟨s, .refl h hpc⟩
  | cons r done ih =>
    intro s ks futures hs exception hdone hperm hks h hpc
    obtain _ | ⟨hr, hdone⟩ := hdone
    rename_i k ks
    obtain ⟨hk, hperm⟩ := List.cons_perm_iff_perm_erase.mp hperm.symm
    obtain ⟨s₁, hgo⟩ := future_goes hp ha hr hk h hpc
    have hdone' : List.Forall₂ (Done wrap s₁) ks done := by
      refine ((List.forall₂_and_left ks done).mpr ⟨fun k' hk' => hks k' (by simp [hk']),
        hdone⟩).imp ?_
      exact fun k' r' ⟨hlt, hdone⟩ => hdone.frame hgo hlt
    obtain ⟨s₂, hgo'⟩ :=
      ih hdone' hperm.symm (fun k' hk' => hks k' (by simp [hk'])) hgo.sim hgo.here
    refine ⟨s₂, ?_⟩
    have hexception : (lastException (r :: done)).or exception =
        (lastException done).or ((lastException [r]).or exception) := by
      cases r <;> cases hlast : lastException done <;> simp [lastException, hlast]
    rw [hexception, ← List.singleton_append, handlersOf_append, ← List.append_assoc]
    exact hgo.trans hgo'

def Comes (conf : MainConfig) (wrap : η → Held) (a : Nat) (sec : Sec) (n : Nat) (s : State)
    (st : HandlerStorage) (log : List Event) (r : Except Exn (List η)) : Prop :=
  ∃ pc n' s', Goes conf a (some sec) n s st log pc n' s' ∧
    (∀ hs, r = .ok hs → ∃ entries, pc = .returned entries ∧
      entries.map Entry.handler = hs.map wrap) ∧
    ∀ e, r = .error e → pc = .raised e

theorem Goes.comes {st₁ : HandlerStorage} {log₁ : List Event} {r : Except Exn (List η)}
    (h : Goes conf a (some sec) n s st₁ log₁ pc n' s') (h' : Comes conf wrap a sec n' s' st log r) :
    Comes conf wrap a sec n s st log r := by
  obtain ⟨pc', n'', s'', hgo, hend⟩ := h'
  exact ⟨pc', n'', s'', h.trans hgo, hend⟩

theorem fetch_comes (hp : Plays conf p sec wrap job) (h : Sim conf st log n s) (ha : a < n)
    (hpc : s.activity a = some ⟨some sec, .fetch⟩) (hmemo : p.memo st = some hs) :
    Comes conf wrap a sec n s st log (.ok hs) := by
  have hholds := h.memo sec
  rw [hp.memo, hmemo, Option.map_some, State.holds, Option.map_eq_some_iff] at hholds
  obtain ⟨version, hversion, hlist⟩ := hholds
  have hfetch : Goes conf a (some sec) n s st log (.returned (s.lists (sec, version))) n _ :=
    .one (.next a 0) h ha (by simp only [step, next, hpc, nextRead, hversion]; rfl)
  refine ⟨_, n, _, hfetch, ?_, by simp⟩
  rintro _ ⟨⟩
  exact ⟨_, rfl, hlist⟩

theorem conclude_comes (hp : Plays conf p sec wrap job) (api : Api) (done : List (Except Exn η))
    (h : Sim conf (p.setMemo (handlersOf done) st) log n s) (ha : a < n)
    (hpc : s.activity a = some ⟨some sec, .collect [] (lastException done)⟩)
    (hrun : p.conclude api done st log = (r, st', log')) :
    Comes conf wrap a sec n s st' log' r := by
  cases hlast : lastException done with
  | none =>
    rw [Section.conclude_ok hlast] at hrun
    obtain ⟨rfl, rfl, rfl⟩ := Prod.mk.inj hrun |>.imp id Prod.mk.inj
    rw [hlast] at hpc
    have hcollected : Goes conf a (some sec) n s _ log .fetch n _ :=
      .one (.next a 0) h ha (by simp only [step, next, hpc, nextRead])
    exact hcollected.comes (fetch_comes hp hcollected.sim ha hcollected.here (hp.memo_self _ _))
  | some e =>
    rw [Section.conclude_error hlast] at hrun
    rw [hlast] at hpc
    have hfailed : Goes conf a (some sec) n s _ log (.finish (some e) (.enter .sandboxes)) n _ :=
      .one (.next a 0) h ha (by simp only [step, next, hpc, nextRead])
    rcases hfinish : HandlerStorage.finish api (p.setMemo (handlersOf done) st) log with
      ⟨r', st₁, log₁⟩
    obtain ⟨rfl, s₁, hgo⟩ := finish_goes hfailed.sim ha hfailed.here hfinish
    cases r' with
    | ok _ =>
      rw [run_bind_ok hfinish] at hrun
      obtain ⟨rfl, rfl, rfl⟩ := Prod.mk.inj hrun |>.imp id Prod.mk.inj
      refine ⟨_, n, s₁, hfailed.trans hgo, by simp, ?_⟩
      rintro _ ⟨⟩
      rfl
    | error e' =>
      rw [run_bind_error hfinish] at hrun
      obtain ⟨rfl, rfl, rfl⟩ := Prod.mk.inj hrun |>.imp id Prod.mk.inj
      refine ⟨_, n, s₁, hfailed.trans hgo, by simp, ?_⟩
      rintro _ ⟨⟩
      rfl

theorem read_comes (hp : Plays conf p sec wrap job) (api : Api) (pool : Pool η)
    (h : Sim conf st log n s) (ha : a < n) (hpc : s.activity a = some ⟨some sec, .check⟩)
    (hrun : p.read api pool st log = (r, st', log')) : Comes conf wrap a sec n s st' log' r := by
  cases hmemo : p.memo st with
  | some hs =>
    rw [Section.read_again hmemo] at hrun
    obtain ⟨rfl, rfl, rfl⟩ := Prod.mk.inj hrun |>.imp id Prod.mk.inj
    have hsome : s.memo sec ≠ none := by
      intro hnone
      have hsec := h.memo sec
      rw [hp.memo, hmemo, State.holds, hnone] at hsec
      cases hsec
    have hcheck : Goes conf a (some sec) n s st log .fetch n _ :=
      .one (.next a 0) h ha (by simp only [step, next, hpc, nextRead, hsome]; rfl)
    exact hcheck.comes (fetch_comes hp hcheck.sim ha hcheck.here hmemo)
  | none =>
    rw [Section.read_first hmemo] at hrun
    obtain ⟨s₁, hpublish⟩ := publish_goes hp h ha hpc hmemo
    have hconfs : (p.confs (p.setMemo [] st).conf) = p.confs conf := by
      rw [(hp.kept [] st).1, h.sameConf]
    rw [hconfs] at hrun
    rcases hsub : p.submit pool.api 0 (p.confs conf) (p.setMemo [] st) log with ⟨e | fs, st₁, log₁⟩
    · rw [run_bind_error hsub] at hrun
      obtain ⟨rfl, rfl, rfl⟩ := Prod.mk.inj hrun |>.imp id Prod.mk.inj
      obtain ⟨n', s₂, hgo⟩ := submit_raises hp pool.api _ (List.drop_zero) hpublish.sim ha
        hpublish.here (by simp) hsub
      refine ⟨_, n', s₂, hpublish.trans hgo, by simp, ?_⟩
      rintro _ ⟨⟩
      rfl
    · rw [run_bind_ok hsub] at hrun
      obtain ⟨hmemo₁, ks, n', s₂, hnodup, hks, hdone, hgo⟩ := submit_goes hp pool.api _
        (List.drop_zero) hpublish.sim ha hpublish.here hsub
      have ha' : a < n' := lt_of_lt_of_le ha hgo.le
      have hsubmitted : Goes conf a (some sec) n' s₂ st₁ log₁ (.collect ks none) n'
          (s₂.put a sec (.collect ks none)) := by
        refine .one (.next a 0) hgo.sim ha' ?_
        have hend : ¬ 0 + (p.confs conf).length < size conf sec := by
          rw [hp.size]
          omega
        simp only [step, next, hgo.here, nextRead, if_neg hend, List.nil_append]
      -- the futures come in the order in which their set is iterated
      obtain ⟨ks', hperm, hdone'⟩ :
          Relation.Comp List.Perm (List.Forall₂ (Done wrap (s₂.put a sec (.collect ks none)))) ks
            (pool.iterate fs) := by
        rw [← List.forall₂_comp_perm_eq_perm_comp_forall₂]
        exact ⟨fs, hdone, (pool.perm fs).symm⟩
      have hempty : Sim conf (p.setMemo [] st₁) log₁ n' (s₂.put a sec (.collect ks none)) := by
        refine hsubmitted.sim.setMemo hp [] ?_ (fun _ _ => rfl) rfl rfl rfl rfl
          hsubmitted.sim.unwritten
        rw [hsubmitted.sim.memo, hp.memo, hmemo₁, hp.memo_self]
        rfl
      obtain ⟨s₃, hcollect⟩ := collect_goes hp ha' (pool.iterate fs) hdone' hperm
        (fun k hk => (hks k (hperm.mem_iff.mpr hk)).2) hempty hsubmitted.here
      rw [List.nil_append, Option.or_none] at hcollect
      refine (hpublish.trans hgo).comes (Goes.comes hsubmitted (hcollect.comes ?_))
      exact conclude_comes hp api _ hcollect.sim ha' hcollect.here hrun

end

-- ---------------------------------------------------------------------------
-- The three properties
-- ---------------------------------------------------------------------------

theorem job_goes (act : Act) {i : Nat} {job : Job} {futures : List Nat} (h : Sim conf st log n s)
    (ha : a < n) (hstep : step conf s act =
      some ((s.submit n job i).put a sec? (.submit (i + 1) (futures ++ [n])))) :
    ∃ k n' s', n ≤ k ∧ k < n' ∧ s'.futures k = some ⟨job, i, none⟩ ∧
      Goes conf a sec? n s st log (.submit (i + 1) (futures ++ [k])) n' s' := by
  have hsim : Sim conf st log (n + 1) (s.submit n job i) :=
    { h with
      fresh := fun k hk => by
        have hne : k ≠ n := by omega
        exact ⟨(Function.update_of_ne hne _ _).trans (h.fresh k (by omega)).1,
          (h.fresh k (by omega)).2⟩ }
  refine ⟨n, n + 1, _, le_refl n, by omega, Function.update_self .., .one hstep,
    hsim.put (by omega), by omega, put_self .., fun b _ hba => put_other _ _ _ hba, ?_⟩
  intro k hk
  have hne : k ≠ n := by omega
  exact Function.update_of_ne hne _ _

theorem direct_goes {i : Nat} {sec : Sec} {job : Job} {futures : List Nat} (h : Sim conf st log n s)
    (ha : a < n) (hpc : s.activity a = some ⟨some sec, .submit i futures⟩)
    (hjob : jobAt conf i sec = some job) :
    ∃ k n' s', n ≤ k ∧ k < n' ∧ s'.futures k = some ⟨job, i, none⟩ ∧
      Goes conf a (some sec) n s st log (.submit (i + 1) (futures ++ [k])) n' s' := by
  refine job_goes (.next a n) h ha ?_
  simp only [step, next, hpc, nextRead, (jobAt_some hjob).1, hjob, (h.fresh n le_rfl).1, if_pos]

theorem shells_plays (conf : MainConfig) :
    Plays conf shells .shells .shell (fun c _ => .shell c) where
  memo _ := rfl
  memo_self _ _ := rfl
  memo_other _ _ sec' hsec := by cases sec' <;> first | rfl | exact absurd rfl hsec
  memo_again _ _ _ := rfl
  kept _ _ := ⟨rfl, rfl⟩
  size := rfl
  run _ _ _ _ := rfl
  lookup_ok {i c _ _ _ _ _ _ _ _ _} hi h ha hpc hrun := by
    obtain ⟨-, rfl, rfl⟩ := Prod.mk.inj hrun |>.imp id Prod.mk.inj
    have hjob : jobAt conf i .shells = some (.shell c) := by
      rw [jobAt, show conf.shellsConf[i]? = some c from hi, Option.map_some]
    exact ⟨rfl, direct_goes h ha hpc hjob⟩
  lookup_error _ _ _ _ hrun := by cases hrun

theorem sandboxes_plays (conf : MainConfig) :
    Plays conf sandboxes .sandboxes .sandbox (fun c _ => .sandbox c) where
  memo _ := rfl
  memo_self _ _ := rfl
  memo_other _ _ sec' hsec := by cases sec' <;> first | rfl | exact absurd rfl hsec
  memo_again _ _ _ := rfl
  kept _ _ := ⟨rfl, rfl⟩
  size := rfl
  run _ _ _ _ := rfl
  lookup_ok {i c _ _ _ _ _ _ _ _ _} hi h ha hpc hrun := by
    obtain ⟨-, rfl, rfl⟩ := Prod.mk.inj hrun |>.imp id Prod.mk.inj
    have hjob : jobAt conf i .sandboxes = some (.sandbox c) := by
      rw [jobAt, show conf.sandboxesConf[i]? = some c from hi, Option.map_some]
    exact ⟨rfl, direct_goes h ha hpc hjob⟩
  lookup_error _ _ _ _ hrun := by cases hrun

theorem shellHandlers_resourceMemo (w : World) (memo : Option (List ResourceHandler)) :
    Hoare (fun st _ => st.resourceMemo = memo) (shellHandlers w) fun _ st _ =>
      st.resourceMemo = memo := by
  refine Section.read_keeps (p := shells) (T := fun _ _ _ => True) (G := fun _ _ => True)
    (fun _ => .pure' (Q := fun _ (st : HandlerStorage) _ => st.resourceMemo = memo) fun _ _ h => h)
    (fun api st c _ => (ShellHandler.create_spec api _ c ()).mono fun _ _ _ _ => trivial)
    (fun _ _ _ _ => trivial) (fun _ _ _ _ _ _ _ _ _ h _ => ⟨h, fun _ _ => trivial⟩)
    (fun _ _ _ h _ => h) (fun api => ?_) w.api w.shells
  refine .of_triple (finish_spec api) ?_
  rintro st log r _ evs h ⟨rfl, -⟩
  exact h

theorem fork_goes (w : World) {i : Nat} {c : ResourceConfig} {futures : List Nat}
    (hi : conf.resourcesConf[i]? = some c) (h : Sim conf st log n s) (ha : a < n)
    (hpc : s.activity a = some ⟨some .resources, .submit i futures⟩)
    (hrun : shellHandlers w st log = (r, st', log')) :
    ∃ pc n' s', Goes conf a (some .resources) n s st' log' (.lookup i futures n) n' s' ∧
      s'.activity n = some ⟨some .shells, pc⟩ ∧
      (∀ hs, r = .ok hs → ∃ entries, pc = .returned entries ∧
        entries.map Entry.handler = hs.map .shell) ∧
      ∀ e, r = .error e → pc = .raised e := by
  have hna : n ≠ a := by omega
  have hsize : i < size conf .resources := (List.getElem?_eq_some_iff.mp hi).1
  let s₁ := (s.put n (some .shells) .check).put a (some .resources) (.lookup i futures n)
  have hstep : step conf s (.next a n) = some s₁ := by
    simp only [step, next, hpc, nextRead, if_pos hsize, jobAt, (h.fresh n le_rfl).2, s₁, if_pos]
  have hsim : Sim conf st log (n + 1) s₁ :=
    ((h.later (Nat.le_succ n)).put (Nat.lt_succ_self n)).put (by omega)
  have hchild : s₁.activity n = some ⟨some .shells, .check⟩ := by
    rw [put_other _ _ _ hna, put_self]
  obtain ⟨pc, n', s', hgo, hend⟩ :=
    read_comes (shells_plays conf) w.api w.shells hsim (Nat.lt_succ_self n) hchild hrun
  refine ⟨pc, n', s', ⟨(Steps.one hstep).trans hgo.steps, hgo.sim, ?_, ?_, ?_, ?_⟩, hgo.here, hend⟩
  · have := hgo.le
    omega
  · rw [hgo.others a (by omega) hna.symm, put_self]
  · intro b hb hba
    have hbn : b ≠ n := by omega
    rw [hgo.others b (by omega) hbn, put_other _ _ _ hba, put_other _ _ _ hbn]
  · intro k hk
    rw [hgo.futures k (by omega)]
    rfl

theorem shellsOf_eq (h : entries.map Entry.handler = hs.map Held.shell) :
    shellsOf entries = hs := by
  induction entries generalizing hs with
  | nil =>
    obtain rfl := List.map_eq_nil_iff.mp h.symm
    rfl
  | cons entry entries ih =>
    cases hs with
    | nil => cases h
    | cons x hs =>
      obtain ⟨hx, hrest⟩ := List.cons.inj h
      rw [← ih hrest]
      simp [shellsOf, hx]

theorem resources_plays (w : World) (conf : MainConfig) :
    Plays conf (resources w) .resources .resource .resource where
  memo _ := rfl
  memo_self _ _ := rfl
  memo_other _ _ sec' hsec := by cases sec' <;> first | rfl | exact absurd rfl hsec
  memo_again _ _ _ := rfl
  kept _ _ := ⟨rfl, rfl⟩
  size := rfl
  run _ _ _ _ := rfl
  lookup_ok {i c n a s st log futures shell st' log'} hi h ha hpc hrun := by
    change lookupShell w c st log = _ at hrun
    rcases hshells : shellHandlers w st log with ⟨e | hs, st₁, log₁⟩
    · rw [lookupShell, run_bind_error hshells] at hrun
      cases hrun
    rw [lookupShell, run_bind_ok hshells] at hrun
    cases hnamed : shellNamed c.shellName hs with
    | none =>
      rw [hnamed] at hrun
      cases hrun
    | some x =>
      rw [hnamed] at hrun
      obtain ⟨hx, rfl, rfl⟩ := Prod.mk.inj hrun |>.imp id Prod.mk.inj
      obtain rfl := Except.ok.inj hx
      refine ⟨?_, ?_⟩
      · obtain ⟨r, _, evs, hrun', hmemo⟩ :=
          shellHandlers_resourceMemo w st.resourceMemo st log rfl
        rw [hshells] at hrun'
        obtain ⟨-, rfl, -⟩ := Prod.mk.inj hrun' |>.imp id Prod.mk.inj
        exact hmemo
      · obtain ⟨pc, n', s', hgo, hchild, hok, -⟩ := fork_goes w hi h ha hpc hshells
        obtain ⟨entries, rfl, hentries⟩ := hok hs rfl
        have ha' : a < n' := lt_of_lt_of_le ha hgo.le
        have hfound : step conf s' (.next a n') =
            some ((s'.submit n' (.resource c x) i).put a (some .resources)
              (.submit (i + 1) (futures ++ [n']))) := by
          simp only [step, next, hgo.here, nextRead, hchild,
            show conf.resourcesConf[i]? = some c from hi, shellsOf_eq hentries, hnamed,
            (hgo.sim.fresh n' le_rfl).1, if_pos]
        obtain ⟨k, n'', s'', hk, hk', hfuture, hgo'⟩ := job_goes _ hgo.sim ha' hfound
        exact ⟨k, n'', s'', hgo.le.trans hk, hk', hfuture, hgo.trans hgo'⟩
  lookup_error {i c n a s st log futures e st' log'} hi h ha hpc hrun := by
    change lookupShell w c st log = _ at hrun
    rcases hshells : shellHandlers w st log with ⟨e' | hs, st₁, log₁⟩
    · rw [lookupShell, run_bind_error hshells] at hrun
      obtain ⟨he, rfl, rfl⟩ := Prod.mk.inj hrun |>.imp id Prod.mk.inj
      obtain rfl := Except.error.inj he
      obtain ⟨pc, n', s', hgo, hchild, -, herror⟩ := fork_goes w hi h ha hpc hshells
      obtain rfl := herror e' rfl
      refine ⟨n', _, hgo.trans (.one (.next a 0) hgo.sim (lt_of_lt_of_le ha hgo.le) ?_)⟩
      simp only [step, next, hgo.here, nextRead, hchild]
    · rw [lookupShell, run_bind_ok hshells] at hrun
      cases hnamed : shellNamed c.shellName hs with
      | some x =>
        rw [hnamed] at hrun
        cases hrun
      | none =>
        rw [hnamed] at hrun
        obtain ⟨he, rfl, rfl⟩ := Prod.mk.inj hrun |>.imp id Prod.mk.inj
        obtain rfl := Except.error.inj he
        obtain ⟨pc, n', s', hgo, hchild, hok, -⟩ := fork_goes w hi h ha hpc hshells
        obtain ⟨entries, rfl, hentries⟩ := hok hs rfl
        refine ⟨n', _, hgo.trans (.one (.next a 0) hgo.sim (lt_of_lt_of_le ha hgo.le) ?_)⟩
        simp only [step, next, hgo.here, nextRead, hchild,
          show conf.resourcesConf[i]? = some c from hi, shellsOf_eq hentries, hnamed]

-- ---------------------------------------------------------------------------
-- A session
-- ---------------------------------------------------------------------------

section
variable {w : World}

theorem start_sim (h : Sim conf st log n s) (sec : Sec) :
    Steps (step conf) s (s.put n (some sec) .check) ∧
      Sim conf st log (n + 1) (s.put n (some sec) .check) := by
  refine ⟨.one (a := .read n sec) ?_, (h.later (Nat.le_succ n)).put (Nat.lt_succ_self n)⟩
  simp only [step, (h.fresh n le_rfl).2, if_pos]

theorem readSection_sim {κ ρ η : Type} {p : Section κ ρ η} {sec : Sec} {wrap : η → Held}
    {job : κ → ρ → Job} (hp : Plays conf p sec wrap job) (api : Api) (pool : Pool η)
    (h : Sim conf st log n s)
    (hrun : (do let _ ← p.read api pool : Cs HandlerStorage Unit) st log = (r, st', log')) :
    ∃ n' s', Steps (step conf) s s' ∧ Sim conf st' log' n' s' := by
  obtain ⟨hstart, hsim⟩ := start_sim h sec
  rcases hread : p.read api pool st log with ⟨r', st₁, log₁⟩
  have hend : st₁ = st' ∧ log₁ = log' := by
    rw [run_bind, hread] at hrun
    cases r' <;> exact (Prod.mk.inj (Prod.mk.inj hrun).2)
  obtain ⟨rfl, rfl⟩ := hend
  obtain ⟨pc, n', s', hgo, -⟩ :=
    read_comes hp api pool hsim (Nat.lt_succ_self n) (put_self ..) hread
  exact ⟨n', s', hstart.trans hgo.steps, hgo.sim⟩

theorem read_sim (property : Property) (h : Sim conf st log n s)
    (hrun : property.read w st log = (r, st', log')) :
    ∃ n' s', Steps (step conf) s s' ∧ Sim conf st' log' n' s' := by
  cases property with
  | shells => exact readSection_sim (shells_plays conf) w.api w.shells h hrun
  | resources => exact readSection_sim (resources_plays w conf) w.api w.resources h hrun
  | sandboxes => exact readSection_sim (sandboxes_plays conf) w.api w.sandboxes h hrun

theorem reads_sim (reads : List Property) :
    ∀ {n s st log}, Sim conf st log n s →
      ∃ n' s' st' log', sweep (Property.read w) reads st log = (.ok (), st', log') ∧
        Steps (step conf) s s' ∧ Sim conf st' log' n' s' := by
  induction reads with
  | nil => exact fun {n s st log} h => ⟨n, s, st, log, rfl, .refl, h⟩
  | cons property reads ih =>
    intro n s st log h
    rcases hread : property.read w st log with ⟨r, st₁, log₁⟩
    obtain ⟨n₁, s₁, hsteps, hsim⟩ := read_sim property h hread
    have hturn : tryCatch (property.read w) (fun _ => pure ()) st log = (.ok (), st₁, log₁) := by
      rw [run_tryCatch, hread]
      cases r <;> rfl
    obtain ⟨n₂, s₂, st₂, log₂, hsweep, hsteps', hsim'⟩ := ih hsim
    refine ⟨n₂, s₂, st₂, log₂, ?_, hsteps.trans hsteps', hsim'⟩
    rw [sweep, each, run_bind_ok hturn]
    exact hsweep

end

/-- A session of one thread is a run of the machine: it makes the same calls in
the same order, leaves the same handlers in the memo fields, and `finish` comes
to the same end. -/
theorem session_is_run (w : World) (conf : MainConfig) (hasVcenter : Bool)
    (reads : List Property) :
    let run := session w reads { conf, hasVcenter } []
    ∃ (s : State) (a : Nat), Reach (step conf) free init s ∧ s.log.map Prod.snd = run.2.2 ∧
      (∀ sec, s.holds sec = heldOf run.2.1 sec) ∧
      s.activity a = some ⟨none, .unlessRaised run.1 (.returned [])⟩ := by
  have hinit : Sim conf { conf, hasVcenter } [] 0 { hasVcenter } :=
    ⟨rfl, rfl, fun sec => by cases sec <;> rfl, rfl, fun _ _ => ⟨rfl, rfl⟩, fun _ _ => rfl⟩
  obtain ⟨n, s, st, log, hsweep, hsteps, hsim⟩ := reads_sim (w := w) reads hinit
  have hstep : step conf s (.finish n) =
      some (s.put n none (.finish none (.enter .sandboxes))) := by
    simp only [step, (hsim.fresh n le_rfl).2, if_pos]
  have hput : Sim conf st log (n + 1) (s.put n none (.finish none (.enter .sandboxes))) :=
    (hsim.later (Nat.le_succ n)).put (Nat.lt_succ_self n)
  rcases hfinish : HandlerStorage.finish w.api st log with ⟨r, st', log'⟩
  obtain ⟨rfl, s', hgo⟩ := finish_goes hput (Nat.lt_succ_self n) (put_self ..) hfinish
  have hrun : session w reads { conf, hasVcenter } [] = (r, st', log') := by
    rw [session, run_bind_ok hsweep, hfinish]
  rw [hrun]
  refine ⟨s', n, .of_steps ⟨hasVcenter, rfl⟩ ?_, hgo.sim.events, hgo.sim.memo, hgo.here⟩
  exact hsteps.trans ((Steps.one hstep).trans hgo.steps)

end StorageThreads

end ShellTests
