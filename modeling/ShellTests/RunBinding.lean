import ShellTests.RunTests

/-!
# The sandbox that a resource is bound to

A resource is bound to one sandbox at a time, by the last
`add_resource_to_reservation`. A thread that works on it relies on a binding
that other threads may change.
-/

namespace ShellTests.RunTests

open Machine

def SandboxPc.added (j : Nat) : SandboxPc → Bool
  | .add j' => j < j'
  | .submit _ | .wait => true
  | _ => false

def SandboxPc.submitted (j : Nat) : SandboxPc → Bool
  | .submit j' => j < j'
  | .wait | .report | .done _ => true
  | _ => false

/-- A thread of the sandbox relies on the binding of the resource. -/
def Uses (conf : Conf) (s : State) (i r : Nat) : Prop :=
  ∃ j < (conf.resourcesOf i).length, (conf.resourcesOf i)[j]? = some r ∧ conf.runTests r ∧
    (s.sandbox i).added j ∧ ¬ (s.resource i j).any (·.isDone)

instance (conf : Conf) (s : State) (i r : Nat) : Decidable (Uses conf s i r) :=
  inferInstanceAs (Decidable (∃ j < (conf.resourcesOf i).length, _))

def binds (conf : Conf) (s : State) : Act → Option (Nat × Nat)
  | .sandbox i (.ok ()) =>
    match s.sandbox i with
    | .add j => ((conf.resourcesOf i)[j]?.filter conf.runTests).map (i, ·)
    | _ => none
  | .resource i j (.ok ()) =>
    match s.resource i j with
    | some (.borrow _ _ dut) => ((conf.resourcesOf i)[j]?.bind s.binding).map (·, dut)
    | _ => none
  | _ => none

def unbinds (conf : Conf) (s : State) : Act → Option Nat
  | .resource i j (.ok ()) =>
    match s.resource i j with
    | some (.giveBack _ _ dut) => ((conf.resourcesOf i)[j]?.bind s.binding).map fun _ => dut
    | _ => none
  | _ => none

def setsUp (conf : Conf) (s : State) : Act → Option Nat
  | .resource i j _ =>
    match s.resource i j with
    | some (.setup k) => (conf.resourcesOf i)[j]?.filter fun r =>
        decide (k < (conf.setupCommands r).length)
    | _ => none
  | _ => none

/-- No step takes a resource away from the threads of a sandbox, and a setup
command runs on a resource that a sandbox adds. -/
def Undisturbed (conf : Conf) (s : State) (act : Act) : Prop :=
  (∀ p ∈ binds conf s act, ∀ i < conf.sandboxes.length, Uses conf s i p.2 → i = p.1) ∧
  (∀ r ∈ unbinds conf s act, ∀ i < conf.sandboxes.length, ¬ Uses conf s i r) ∧
  ∀ r ∈ setsUp conf s act, conf.runTests r

instance (conf : Conf) (s : State) (act : Act) : Decidable (Undisturbed conf s act) :=
  inferInstanceAs (Decidable (_ ∧ _ ∧ _))

-- ---------------------------------------------------------------------------
-- A thread works while its sandbox waits for it
-- ---------------------------------------------------------------------------

structure Threads (conf : Conf) (s : State) : Prop where
  place : ∀ i j pc, s.resource i j = some pc → j < (conf.resourcesOf i).length ∧
    (s.sandbox i).submitted j
  working : ∀ i j pc, s.resource i j = some pc → pc.isDone = false → (s.sandbox i).added j
  testing : ∀ i j pc, s.resource i j = some pc → pc.testing →
    ∃ r, (conf.resourcesOf i)[j]? = some r ∧ conf.runTests r

/-- The binding of a resource is the sandbox whose threads rely on it. -/
def Bound (conf : Conf) (s : State) : Prop := ∀ i r, Uses conf s i r → s.binding r = some i

def RanInOwn (s : State) : Prop := ∀ c ∈ s.commands, c.ran = some c.sandbox

variable {conf : Conf} {s s' : State} {act : Act}

theorem Uses.lt (h : Uses conf s i r) : i < conf.sandboxes.length := by
  obtain ⟨j, hj, -⟩ := h
  by_contra hi
  simp [Conf.resourcesOf, Conf.namesOf, List.getElem?_eq_none_iff.mpr (Nat.le_of_not_lt hi)] at hj

theorem Uses.of_done (h : Uses conf s' i r) (hsandbox : s'.sandbox i = s.sandbox i)
    (hdone : ∀ j, (s.resource i j).any (·.isDone) → (s'.resource i j).any (·.isDone)) :
    Uses conf s i r := by
  obtain ⟨j, hj, hr, hrun, hadded, hnot⟩ := h
  exact ⟨j, hj, hr, hrun, hsandbox ▸ hadded, fun h => hnot (hdone j h)⟩

theorem nextMain_frame (h : nextMain conf s = some s') :
    ∃ main stopFlag, s' = { s with main, stopFlag } := by
  unfold nextMain at h
  split at h
  · split at h
    · exact ⟨_, _, (Option.some.inj h).symm⟩
    · split at h <;> cases h
      exact ⟨_, _, rfl⟩
  · split at h <;> cases h
    exact ⟨_, _, rfl⟩
  · split at h <;> cases h <;> exact ⟨_, _, rfl⟩
  · cases h
    exact ⟨_, _, rfl⟩
  · split at h <;> cases h
    exact ⟨_, _, rfl⟩
  · cases h

theorem of_setResource (h : (s.setResource i j pc).resource i' j' = some pc') :
    i' = i ∧ j' = j ∧ pc' = pc ∨ s.resource i' j' = some pc' := by
  rcases resource_setResource s i j i' j' pc with ⟨hi, hj, heq⟩ | heq
  · exact .inl ⟨hi, hj, Option.some.inj (h.symm.trans heq)⟩
  · exact .inr (heq ▸ h)

theorem Threads.congr {t : State} (h : Threads conf s) (hsandbox : t.sandbox = s.sandbox)
    (hresource : t.resource = s.resource) : Threads conf t := by
  constructor
  · simpa only [hsandbox, hresource] using h.place
  · simpa only [hsandbox, hresource] using h.working
  · simpa only [hresource] using h.testing

theorem Threads.setResource (h : Threads conf s) (hpc : s.resource i j = some pc)
    (hdone : pc.isDone = false)
    (htesting : pc'.testing → ∃ r, (conf.resourcesOf i)[j]? = some r ∧ conf.runTests r) :
    Threads conf (s.setResource i j pc') := by
  constructor
  · intro i' j' p hp
    rcases of_setResource hp with ⟨rfl, rfl, -⟩ | hp
    · exact h.place _ _ pc hpc
    · exact h.place _ _ p hp
  · intro i' j' p hp hpdone
    rcases of_setResource hp with ⟨rfl, rfl, -⟩ | hp
    · exact h.working _ _ pc hpc hdone
    · exact h.working _ _ p hp hpdone
  · intro i' j' p hp hptesting
    rcases of_setResource hp with ⟨rfl, rfl, rfl⟩ | hp
    · exact htesting hptesting
    · exact h.testing _ _ p hp hptesting

theorem Threads.setSandbox (h : Threads conf s)
    (hsubmitted : ∀ j pc', s.resource i j = some pc' → pc.submitted j ∧
      (pc'.isDone = false → pc.added j)) :
    Threads conf (s.setSandbox i pc) := by
  constructor
  · intro i' j' p hp
    rcases sandbox_setSandbox s i i' pc with ⟨rfl, hpc⟩ | hsame
    · exact ⟨(h.place _ _ p hp).1, by rw [hpc]; exact (hsubmitted _ p hp).1⟩
    · exact ⟨(h.place _ _ p hp).1, by rw [hsame]; exact (h.place _ _ p hp).2⟩
  · intro i' j' p hp hpdone
    rcases sandbox_setSandbox s i i' pc with ⟨rfl, hpc⟩ | hsame
    · rw [hpc]
      exact (hsubmitted _ p hp).2 hpdone
    · rw [hsame]
      exact h.working _ _ p hp hpdone
  · exact h.testing

theorem Threads.setSandbox_of_none (h : Threads conf s)
    (hnone : ∀ j, (s.sandbox i).submitted j = false) : Threads conf (s.setSandbox i pc) := by
  refine h.setSandbox fun j pc' hpc' => ?_
  have hsubmitted := (h.place i j pc' hpc').2
  simp [hnone] at hsubmitted

theorem Threads.setSandbox_of_done (h : Threads conf s) (hdone : resourcesDone conf s i)
    (hsubmitted : ∀ j, pc.submitted j) : Threads conf (s.setSandbox i pc) := by
  refine h.setSandbox fun j pc' hpc' => ⟨hsubmitted j, fun hnot => ?_⟩
  simp only [resourcesDone, List.all_eq_true, List.mem_range] at hdone
  have := hdone j (h.place i j pc' hpc').1
  simp [hpc', hnot] at this

theorem Threads.submit (h : Threads conf s) (hpc : s.sandbox i = .submit j)
    (hj : j < (conf.resourcesOf i).length) :
    Threads conf ((s.setResource i j .queued).setSandbox i (.submit (j + 1))) := by
  constructor
  · intro i' j' p hp
    rcases of_setResource hp with ⟨rfl, rfl, -⟩ | hp
    · exact ⟨hj, by simp [State.setSandbox, SandboxPc.submitted]⟩
    · obtain ⟨hj', hsubmitted⟩ := h.place i' j' p hp
      refine ⟨hj', ?_⟩
      rcases sandbox_setSandbox (s.setResource i j .queued) i i' (.submit (j + 1)) with
        ⟨rfl, hpc'⟩ | hsame
      · rw [hpc']
        simp only [hpc, SandboxPc.submitted, decide_eq_true_eq] at hsubmitted ⊢
        exact Nat.lt_succ_of_lt hsubmitted
      · rwa [hsame]
  · intro i' j' p hp hdone
    rcases sandbox_setSandbox (s.setResource i j .queued) i i' (.submit (j + 1)) with
      ⟨rfl, hpc'⟩ | hsame
    · rw [hpc']
      rfl
    · rcases of_setResource hp with ⟨rfl, rfl, -⟩ | hp
      · rw [hsame]
        exact by rw [State.setResource, hpc]; rfl
      · rw [hsame]
        exact h.working i' j' p hp hdone
  · intro i' j' p hp htesting
    rcases of_setResource hp with ⟨rfl, rfl, rfl⟩ | hp
    · cases htesting
    · exact h.testing i' j' p hp htesting

theorem early_submitted (hpc : pc.early) (j : Nat) : SandboxPc.submitted j pc = false := by
  revert hpc
  cases pc <;> simp [SandboxPc.early, SandboxPc.submitted]

theorem threads_moves (h : Threads conf s) (hs : Moves conf s act s') : Threads conf s' := by
  cases hs with
  | main hmain =>
    obtain ⟨main, flag, rfl⟩ := nextMain_frame hmain
    exact h.congr rfl rfl
  | interrupt => exact h.congr rfl rfl
  | early hpc => exact h.setSandbox_of_none (early_submitted hpc)
  | stopped hpc => exact h.setSandbox_of_none fun j => by rw [hpc]; rfl
  | failed hpc =>
      exact h.setSandbox_of_none fun j => by rcases hpc with hpc | ⟨j, hpc⟩ <;> (rw [hpc]; rfl)
  | @added i j r hpc =>
    exact (h.congr (t := s.addResource i r) rfl rfl).setSandbox_of_none fun j => by
      rw [State.addResource, hpc]; rfl
  | notAdded hpc | allAdded hpc => exact h.setSandbox_of_none fun j => by rw [hpc]; rfl
  | submitted hpc hj => exact h.submit hpc hj
  | allSubmitted hpc =>
    refine h.setSandbox fun j pc' hpc' => ⟨rfl, fun _ => rfl⟩
  | raised hpc hresource hdone => exact h.setSandbox_of_done hdone fun j => rfl
  | waited hpc hall =>
    refine h.setSandbox_of_done ?_ fun j => rfl
    simp only [resourcesDone, List.all_eq_true, List.mem_range]
    intro j hj
    rw [hall j hj]
    rfl
  | @reported i reply hpc =>
    have hsame : Threads conf { s with sandboxesReports := s.sandboxesReports ++ [i] } :=
      h.congr rfl rfl
    refine hsame.setSandbox fun j pc' hpc' => ⟨rfl, fun hnot => ?_⟩
    have hadded := h.working i j pc' hpc' hnot
    rw [hpc] at hadded
    cases hadded
  | stop hpc hdone => exact h.setResource hpc hdone (by simp [ResourcePc.testing])
  | @work i j pc pc' act lock resourcesReports hpc hdone htesting =>
    have hsame : Threads conf { s with lock, resourcesReports } := h.congr rfl rfl
    exact hsame.setResource hpc hdone fun ht => (htesting ht).elim (h.testing i j pc hpc) id
  | @setup i j k r pc reply name text hpc hr hk htesting =>
    refine (h.congr (t := s.execute i r name text) rfl rfl).setResource hpc rfl ?_
    simp [htesting]
  | @execute i j pc r pc' act name text hpc hr htesting =>
    have hsame : Threads conf (s.execute i r name text) := h.congr rfl rfl
    exact hsame.setResource hpc (not_done_of_testing htesting) fun _ =>
      h.testing i j pc hpc htesting
  | @borrow i j tests ok dut r b hpc =>
    exact (h.congr (t := s.addResource b dut) rfl rfl).setResource hpc rfl fun _ =>
      h.testing i j _ hpc rfl
  | @giveBack i j tests ok dut r b hpc =>
    exact (h.congr (t := (s.removeResource b dut).unlock) rfl rfl).setResource hpc rfl
      fun _ => h.testing i j _ hpc rfl

-- ---------------------------------------------------------------------------
-- Nothing is taken away from a thread
-- ---------------------------------------------------------------------------

theorem any_setResource (hdone : (s.resource i j).any (·.isDone) → pc.isDone) (i' j' : Nat)
    (h : (s.resource i' j').any (·.isDone)) :
    ((s.setResource i j pc).resource i' j').any (·.isDone) := by
  rcases resource_setResource s i j i' j' pc with ⟨rfl, rfl, heq⟩ | heq
  · rw [heq]
    exact hdone h
  · rwa [heq]

theorem uses_setResource (h : Uses conf (s.setResource i j pc') i' r)
    (hpc : s.resource i j = some pc) (hdone : pc.isDone = false) : Uses conf s i' r :=
  h.of_done rfl (any_setResource (by simp [hpc, hdone]) i')

theorem uses_setSandbox (h : Uses conf (s.setSandbox i pc) i' r)
    (hadded : ∀ j r, (conf.resourcesOf i)[j]? = some r → conf.runTests r → pc.added j →
      (s.sandbox i).added j) : Uses conf s i' r := by
  obtain ⟨j, hj, hr, hrun, hadd, hnot⟩ := h
  refine ⟨j, hj, hr, hrun, ?_, hnot⟩
  rcases sandbox_setSandbox s i i' pc with ⟨rfl, hpc⟩ | hsame
  · exact hadded j r hr hrun (hpc ▸ hadd)
  · rwa [hsame] at hadd

theorem Bound.of_uses (h : Bound conf s) (hbinding : s'.binding = s.binding)
    (huses : ∀ i r, Uses conf s' i r → Uses conf s i r) : Bound conf s' := by
  intro i r hr
  rw [hbinding]
  exact h i r (huses i r hr)

theorem Bound.addResource (h : Bound conf s) (hother : ∀ i, Uses conf s i r → i = b) :
    Bound conf (s.addResource b r) := by
  intro i r' hr'
  by_cases hr : r' = r
  · subst hr
    simpa [State.addResource] using (hother i hr').symm
  · simpa [State.addResource, Function.update_of_ne hr] using h i r' hr'

theorem Bound.removeResource (h : Bound conf s) (hnone : ∀ i, ¬ Uses conf s i r) :
    Bound conf (s.removeResource b r) := by
  intro i r' hr'
  have hr : r' ≠ r := by
    rintro rfl
    exact hnone i hr'
  simpa [State.removeResource, Function.update_of_ne hr] using h i r' hr'

theorem Bound.added (h : Bound conf s) (hpc : s.sandbox i = .add j)
    (hr : (conf.resourcesOf i)[j]? = some r) (hbinding : s.binding r = some i) :
    Bound conf (s.setSandbox i (.add (j + 1))) := by
  intro i' r' ⟨j', hj', hr', hrun, hadd, hnot⟩
  rcases sandbox_setSandbox s i i' (.add (j + 1)) with ⟨rfl, hpc'⟩ | hsame
  · rw [hpc'] at hadd
    rcases Nat.lt_succ_iff_lt_or_eq.mp (of_decide_eq_true hadd) with hlt | rfl
    · refine h i' r' ⟨j', hj', hr', hrun, ?_, hnot⟩
      rw [hpc]
      exact decide_eq_true hlt
    · cases hr.symm.trans hr'
      exact hbinding
  · rw [hsame] at hadd
    exact h i' r' ⟨j', hj', hr', hrun, hadd, hnot⟩

theorem early_added (hpc : pc.early) (j : Nat) : SandboxPc.added j pc = false := by
  revert hpc
  cases pc with
  | add k => cases k <;> simp [SandboxPc.early, SandboxPc.added]
  | _ => simp [SandboxPc.early, SandboxPc.added]

theorem bound_moves (ht : Threads conf s) (h : Bound conf s) (hok : Undisturbed conf s act)
    (hs : Moves conf s act s') : Bound conf s' := by
  obtain ⟨hbinds, hunbinds, -⟩ := hok
  cases hs with
  | main hmain =>
    obtain ⟨main, flag, rfl⟩ := nextMain_frame hmain
    exact h.of_uses rfl fun _ _ hr => hr
  | interrupt => exact h.of_uses rfl fun _ _ hr => hr
  | early hpc hne hpc' =>
    exact h.of_uses rfl fun _ _ hr =>
      uses_setSandbox hr fun j _ _ _ hadd => by simp [early_added hpc'] at hadd
  | stopped | failed | raised | waited =>
    exact h.of_uses rfl fun _ _ hr => uses_setSandbox hr fun j _ _ _ hadd => by cases hadd
  | reported =>
    exact h.of_uses rfl fun _ _ hr => uses_setSandbox hr fun j _ _ _ hadd => by cases hadd
  | @added i j r hpc hr hrun =>
    have hother : ∀ i', Uses conf s i' r → i' = i := fun i' hr' =>
      hbinds (i, r) (by simp [binds, hpc, hr, hrun, Option.filter]) i' hr'.lt hr'
    exact (h.addResource hother).added hpc hr (by simp [State.addResource])
  | @notAdded i j r reply hpc hr hrun =>
    refine h.of_uses rfl fun _ _ hr' => uses_setSandbox hr' fun j' r' hr'' hrun' hadd => ?_
    rw [hpc]
    rcases Nat.lt_succ_iff_lt_or_eq.mp (of_decide_eq_true hadd) with hlt | rfl
    · exact decide_eq_true hlt
    · cases hr.symm.trans hr''
      exact absurd hrun' hrun
  | allAdded hpc hj =>
    refine h.of_uses rfl fun _ _ hr => uses_setSandbox hr fun j' r' hr' _ _ => ?_
    rw [hpc]
    exact decide_eq_true (Nat.lt_of_lt_of_le (List.getElem?_eq_some_iff.mp hr').1 hj)
  | @submitted i j reply hpc hj =>
    have hnone : s.resource i j = none := by
      cases hresource : s.resource i j with
      | none => rfl
      | some pc =>
        have hsubmitted := (ht.place i j pc hresource).2
        simp [hpc, SandboxPc.submitted] at hsubmitted
    refine h.of_uses rfl fun i' r hr => ?_
    have hr := uses_setSandbox hr fun j' _ _ _ _ => by rw [State.setResource, hpc]; rfl
    exact hr.of_done rfl (any_setResource (by simp [hnone]) i')
  | allSubmitted hpc =>
    exact h.of_uses rfl fun _ _ hr => uses_setSandbox hr fun j _ _ _ _ => by rw [hpc]; rfl
  | stop hpc hdone => exact h.of_uses rfl fun _ _ hr => uses_setResource hr hpc hdone
  | @work i j pc pc' act lock resourcesReports hpc hdone =>
    exact h.of_uses rfl fun _ _ hr =>
      uses_setResource (s := { s with lock, resourcesReports }) hr hpc hdone
  | @setup i j k r pc reply name text hpc =>
    exact h.of_uses rfl fun _ _ hr => uses_setResource (s := s.execute i r name text) hr hpc rfl
  | @execute i j pc r pc' act name text hpc hr htesting =>
    have hdone := not_done_of_testing htesting
    exact h.of_uses rfl fun _ _ hr => uses_setResource (s := s.execute i r name text) hr hpc hdone
  | @borrow i j tests ok dut r b hpc hr hb =>
    have hother : ∀ i', Uses conf s i' dut → i' = b := fun i' hr' =>
      hbinds (b, dut) (by simp [binds, hpc, hr, hb]) i' hr'.lt hr'
    exact (h.addResource hother).of_uses rfl fun _ _ hr =>
      uses_setResource (s := s.addResource b dut) hr hpc rfl
  | @giveBack i j tests ok dut r b hpc hr hb =>
    have hnone : ∀ i', ¬ Uses conf s i' dut := fun i' hr' =>
      hunbinds dut (by simp [unbinds, hpc, hr, hb]) i' hr'.lt hr'
    exact (h.removeResource (b := b) hnone).of_uses rfl
      fun _ _ hr => uses_setResource (s := (s.removeResource b dut).unlock) hr hpc rfl

theorem uses_of_working (ht : Threads conf s) (hpc : s.resource i j = some pc)
    (hdone : pc.isDone = false) (hr : (conf.resourcesOf i)[j]? = some r)
    (hrun : conf.runTests r) : Uses conf s i r :=
  ⟨j, (ht.place i j pc hpc).1, hr, hrun, ht.working i j pc hpc hdone, by simp [hpc, hdone]⟩

theorem RanInOwn.execute (h : RanInOwn s) (hbinding : s.binding r = some i) :
    RanInOwn (s.execute i r name text) := by
  intro c hc
  rcases List.mem_append.mp hc with hc | hc
  · exact h c hc
  · obtain rfl := List.mem_singleton.mp hc
    exact hbinding

theorem ran_moves (ht : Threads conf s) (hb : Bound conf s) (h : RanInOwn s)
    (hok : Undisturbed conf s act) (hs : Moves conf s act s') : RanInOwn s' := by
  cases hs with
  | main hmain =>
    obtain ⟨main, flag, rfl⟩ := nextMain_frame hmain
    exact h
  | @setup i j k r pc reply name text hpc hr hk =>
    have hrun : conf.runTests r := hok.2.2 r (by simp [setsUp, hpc, hr, hk, Option.filter])
    exact h.execute (hb i r (uses_of_working ht hpc rfl hr hrun))
  | @execute i j pc r pc' act name text hpc hr htesting =>
    obtain ⟨r', hr', hrun⟩ := ht.testing i j pc hpc htesting
    cases hr.symm.trans hr'
    have hdone := not_done_of_testing htesting
    exact h.execute (hb i r (uses_of_working ht hpc hdone hr hrun))
  | _ => exact h

structure BindingInv (conf : Conf) (s : State) : Prop where
  threads : Threads conf s
  bound : Bound conf s
  ran : RanInOwn s

theorem bindingInv_init (h : init s) : BindingInv conf s := by
  subst h
  refine ⟨⟨?_, ?_, ?_⟩, ?_, ?_⟩
  · simp
  · simp
  · simp
  · rintro i r ⟨j, -, -, -, hadded, -⟩
    cases hadded
  · simp [RanInOwn]

theorem bindingInv_step (h : BindingInv conf s) (hok : Undisturbed conf s act)
    (hs : step conf s act = some s') : BindingInv conf s' := by
  have hmoves := step_moves hs
  exact ⟨threads_moves h.threads hmoves, bound_moves h.threads h.bound hok hmoves,
    ran_moves h.threads h.bound h.ran hok hmoves⟩

theorem reach_bindingInv (h : Reach (step conf) (Undisturbed conf) init s) : BindingInv conf s :=
  h.invariant (fun _ => bindingInv_init) fun _ _ _ hi hok hs => bindingInv_step hi hok hs

/-- In an undisturbed run, every command that a thread executes on a resource
runs in the sandbox of the thread. -/
theorem commands_in_own_sandbox (h : Reach (step conf) (Undisturbed conf) init s) :
    ∀ c ∈ s.commands, c.ran = some c.sandbox :=
  (reach_bindingInv h).ran

/-- A thread through its setup command, a test that runs a command, and its
teardown command. -/
theorem commands_in_own_sandbox_three :
    let conf : Conf := ⟨[{ name := "sandbox", resourceNames := ["r"] }],
      [{ name := "r", shellName := "", setupCommands := [⟨"up", .config⟩],
         teardownCommands := [⟨"down", .enable⟩] }]⟩
    ∃ s, Reach (step conf) (Undisturbed conf) init s ∧
      s.commands.map (·.text) = ["up", "", "down"] ∧
      ∀ c ∈ s.commands, c.ran = some c.sandbox := by
  intro conf
  let next : Act := .resource 0 0 (.ok ())
  let acts : List Act := List.replicate 8 (.sandbox 0 (.ok ())) ++ [next, next, next, next, next,
    .suite 0 0 [.plain], next, .command 0 0 "health_check" "", .endTest 0 0 true,
    next, next, next, next, next]
  let s := (run (step conf) {} acts).getD {}
  have hreach : Reach (step conf) (Undisturbed conf) init s :=
    .of_run acts rfl rfl (by decide +kernel)
  exact ⟨s, hreach, by decide +kernel, commands_in_own_sandbox hreach⟩

/-- Without `run_tests`, with two sandboxes for one resource, and after the
connectivity test of another resource: the command of a thread fails, runs in
the other sandbox, and fails. -/
theorem command_in_other_sandbox :
    let conf (names : List (List String)) (handlers : List ResourceConfig) : Conf :=
      ⟨names.map fun resourceNames => { name := "sandbox", resourceNames }, handlers⟩
    let up : List ResourceCommand := [⟨"up", .enable⟩]
    let unbound :=
      conf [["r"]] [{ name := "r", shellName := "", runTests := false, setupCommands := up }]
    let shared := conf [["r"], ["r"]] [{ name := "r", shellName := "", setupCommands := up }]
    let borrowed :=
      conf [["r", "dut"]] [{ name := "r", shellName := "" }, { name := "dut", shellName := "" }]
    (∃ s, Reach (step unbound) free init s ∧ ∃ c ∈ s.commands, c.sandbox = 0 ∧ c.ran = none) ∧
    (∃ s, Reach (step shared) free init s ∧ ∃ c ∈ s.commands, c.sandbox = 0 ∧ c.ran = some 1) ∧
    ∃ s, Reach (step borrowed) free init s ∧ ∃ c ∈ s.commands, c.sandbox = 0 ∧ c.ran = none := by
  intro conf up unbound shared borrowed
  let sandbox (i n : Nat) : List Act := List.replicate n (.sandbox i (.ok ()))
  let resource (j n : Nat) : List Act := List.replicate n (.resource 0 j (.ok ()))
  let unboundActs := sandbox 0 7 ++ resource 0 3
  let sharedActs := sandbox 0 7 ++ sandbox 1 5 ++ resource 0 3
  let borrowedActs := sandbox 0 9 ++ resource 0 4 ++ [.suite 0 0 [.connectivity]] ++ resource 1 4 ++
    [.suite 0 1 [.plain]] ++ resource 1 1 ++ resource 0 6 ++ [.command 0 1 "health_check" ""]
  refine ⟨⟨_, .of_free_run unboundActs rfl rfl, ?_⟩, ⟨_, .of_free_run sharedActs rfl rfl, ?_⟩,
    ⟨_, .of_free_run borrowedActs rfl rfl, ?_⟩⟩
  · exact ⟨⟨0, 0, "run_custom_command", "up", none⟩, by decide +kernel, rfl, rfl⟩
  · exact ⟨⟨0, 0, "run_custom_command", "up", some 1⟩, by decide +kernel, rfl, rfl⟩
  · exact ⟨⟨0, 1, "health_check", "", none⟩, by decide +kernel, rfl, rfl⟩

end ShellTests.RunTests
