import ShellTests.RunTests

/-!
# What a run of the tests raises

`_wait_for_futures` takes one KeyboardInterrupt for the user's, and two for an
error. The stop flag is set by the user's interrupt or after another exception,
and only a thread that saw it set raises a KeyboardInterrupt.
-/

namespace ShellTests.RunTests

open Machine

variable {conf : Conf} {s s' : State} {act : Act}

-- ---------------------------------------------------------------------------
-- What a step of a thread leaves to main
-- ---------------------------------------------------------------------------

/-- A step of a thread: a sandbox thread that has ended stays as it is, and a
KeyboardInterrupt comes from the stop flag or from a resource thread. -/
structure ThreadStep (s s' : State) : Prop where
  main : s'.main = s.main
  interrupted : s'.interrupted = s.interrupted
  stopFlag : s'.stopFlag = s.stopFlag
  sandbox : ∀ i, s'.sandbox i = s.sandbox i ∨ (s.sandbox i).isDone = false ∧
    (s'.sandbox i = .done (.error .keyboardInterrupt) →
      s.stopFlag ∨ ∃ j, s.resource i j = some (.done (.error .keyboardInterrupt)))
  resource : ∀ i j, s'.resource i j = some (.done (.error .keyboardInterrupt)) →
    s.resource i j = some (.done (.error .keyboardInterrupt)) ∨ s.stopFlag

theorem setSandbox_step (s : State) (hdone : (s.sandbox i).isDone = false)
    (hpc : pc = .done (.error .keyboardInterrupt) →
      s.stopFlag ∨ ∃ j, s.resource i j = some (.done (.error .keyboardInterrupt))) :
    ThreadStep s (s.setSandbox i pc) := by
  refine ⟨rfl, rfl, rfl, fun i' => ?_, fun _ _ h => .inl h⟩
  rcases sandbox_setSandbox s i i' pc with ⟨rfl, heq⟩ | heq
  · exact .inr ⟨hdone, fun h => hpc (heq.symm.trans h)⟩
  · exact .inl heq

theorem setResource_step (s : State) (hpc : pc = .done (.error .keyboardInterrupt) → s.stopFlag) :
    ThreadStep s (s.setResource i j pc) := by
  refine ⟨rfl, rfl, rfl, fun _ => .inl rfl, fun i' j' h => ?_⟩
  rcases resource_setResource s i j i' j' pc with ⟨-, -, heq⟩ | heq
  · exact .inr (hpc (Option.some.inj (heq.symm.trans h)))
  · exact .inl (heq ▸ h)

theorem ThreadStep.congr {t : State} (h : ThreadStep t s') (hmain : t.main = s.main)
    (hinterrupted : t.interrupted = s.interrupted) (hflag : t.stopFlag = s.stopFlag)
    (hsandbox : t.sandbox = s.sandbox) (hresource : t.resource = s.resource) : ThreadStep s s' :=
  ⟨h.main.trans hmain, h.interrupted.trans hinterrupted, h.stopFlag.trans hflag,
    by simpa only [hflag, hsandbox, hresource] using h.sandbox,
    by simpa only [hflag, hresource] using h.resource⟩

theorem thread_moves (h : Moves conf s act s') :
    nextMain conf s = some s' ∨ s' = { s with main := .stop, interrupted := true } ∨
      ThreadStep s s' := by
  cases h with
  | main h => exact .inl h
  | interrupt => exact .inr (.inl rfl)
  | early hpc hadd hpc' hqueued =>
    refine .inr (.inr (setSandbox_step s ?_ ?_))
    · revert hpc
      cases s.sandbox _ <;> simp [SandboxPc.early, SandboxPc.isDone]
    · rintro rfl
      cases hpc'
  | stopped hpc hflag =>
    exact .inr (.inr (setSandbox_step s (by rw [hpc]; rfl) fun _ => .inl hflag))
  | failed hpc he =>
    refine .inr (.inr (setSandbox_step s ?_ ?_))
    · rcases hpc with hpc | ⟨j, hpc⟩ <;> (rw [hpc]; rfl)
    · rintro ⟨⟩
      cases he
  | @added i j r hpc =>
    refine .inr (.inr (.congr (t := s.addResource i r) ?_ rfl rfl rfl rfl rfl))
    exact setSandbox_step _ (by rw [State.addResource, hpc]; rfl) (by simp)
  | notAdded hpc | allAdded hpc | allSubmitted hpc | waited hpc =>
    exact .inr (.inr (setSandbox_step s (by rw [hpc]; rfl) (by simp)))
  | @submitted i j reply hpc =>
    have hsandbox : ThreadStep s (s.setSandbox i (.submit (j + 1))) :=
      setSandbox_step s (by rw [hpc]; rfl) (by simp)
    have hresource : ThreadStep s (s.setResource i j .queued) := setResource_step s (by simp)
    exact .inr (.inr ⟨rfl, rfl, rfl, hsandbox.sandbox, hresource.resource⟩)
  | raised hpc hresource =>
    refine .inr (.inr (setSandbox_step s (by rw [hpc]; rfl) ?_))
    rintro ⟨⟩
    exact .inr ⟨_, hresource⟩
  | @reported i reply hpc =>
    let t := { s with sandboxesReports := s.sandboxesReports ++ [i] }
    refine .inr (.inr (.congr (t := t) ?_ rfl rfl rfl rfl rfl))
    exact setSandbox_step _ (by rw [hpc]; rfl) (by simp)
  | stop hpc hdone hflag => exact .inr (.inr (setResource_step s fun _ => hflag))
  | @work i j pc pc' act lock resourcesReports hpc hdone htesting hne =>
    refine .inr (.inr (.congr (t := { s with lock, resourcesReports }) ?_ rfl rfl rfl rfl rfl))
    exact setResource_step _ fun h => (hne h).elim
  | @setup i j k r pc reply name text hpc hr hk htesting hne =>
    refine .inr (.inr (.congr (t := s.execute i r name text) ?_ rfl rfl rfl rfl rfl))
    exact setResource_step _ fun h => (hne h).elim
  | @execute i j pc r pc' act name text hpc hr htesting hne =>
    refine .inr (.inr (.congr (t := s.execute i r name text) ?_ rfl rfl rfl rfl rfl))
    exact setResource_step _ fun h => (hne h).elim
  | @borrow i j tests ok dut r b =>
    refine .inr (.inr (.congr (t := s.addResource b dut) ?_ rfl rfl rfl rfl rfl))
    exact setResource_step _ (by simp)
  | @giveBack i j tests ok dut r b =>
    refine .inr (.inr (.congr (t := (s.removeResource b dut).unlock) ?_ rfl rfl rfl rfl rfl))
    exact setResource_step _ (by simp)

-- ---------------------------------------------------------------------------
-- What main raises
-- ---------------------------------------------------------------------------

theorem mem_exceptions :
    e ∈ exceptions conf s ↔ ∃ i < conf.sandboxes.length, s.sandbox i = .done (.error e) := by
  simp only [exceptions, List.mem_filterMap, List.mem_range]
  refine exists_congr fun i => and_congr_right fun _ => ?_
  cases s.sandbox i with
  | done r => cases r <;> simp
  | _ => simp

theorem exceptions_step (h : ThreadStep s s') (he : e ∈ exceptions conf s) :
    e ∈ exceptions conf s' := by
  obtain ⟨i, hi, hpc⟩ := mem_exceptions.mp he
  refine mem_exceptions.mpr ⟨i, hi, ?_⟩
  rcases h.sandbox i with hsame | ⟨hdone, -⟩
  · rw [hsame, hpc]
  · simp [hpc, SandboxPc.isDone] at hdone

theorem sandbox_of_allEnded (h : allEnded conf s) (hi : i < conf.sandboxes.length) :
    (s.sandbox i).isDone := by
  simp only [allEnded, List.all_eq_true, List.mem_range] at h
  exact h i hi

theorem ended_step (h : ThreadStep s s') (hended : allEnded conf s) :
    allEnded conf s' ∧ exceptions conf s' = exceptions conf s := by
  have hsame (i : Nat) (hi : i ∈ List.range conf.sandboxes.length) :
      s'.sandbox i = s.sandbox i := by
    rcases h.sandbox i with hsame | ⟨hdone, -⟩
    · exact hsame
    · simp [sandbox_of_allEnded hended (List.mem_range.mp hi)] at hdone
  constructor
  · simp only [allEnded, List.all_eq_true] at hended ⊢
    intro i hi
    rw [hsame i hi]
    exact hended i hi
  · refine List.filterMap_congr fun i hi => ?_
    rw [hsame i hi]

/-- Whether main is in the except clause, as long as it waits or classifies. -/
def Main.inExcept? : Main → Option Bool
  | .wait again | .waitAll again | .classify again => some again
  | .stop => some true
  | _ => none

def Main.settled : Main → Bool
  | .classify _ | .exit _ | .ended _ => true
  | _ => false

def Main.outcome? : Main → Option (Except Exn Unit)
  | .exit r | .ended r => some r
  | _ => none

/-- What main raises: the verdict, and in the except clause the user's
KeyboardInterrupt when there is none. -/
def Outcome (conf : Conf) (s : State) (r : Except Exn Unit) : Prop :=
  if s.interrupted then r = .error ((verdict (exceptions conf s)).getD .keyboardInterrupt)
  else exceptions conf s = [] ∧ r = .ok () ∨
    (∃ e ∈ exceptions conf s, e ≠ .keyboardInterrupt) ∧ ∃ msg, r = .error (.baseAutomation msg)

structure Inv (conf : Conf) (s : State) : Prop where
  inExcept : ∀ again, s.main.inExcept? = some again → s.interrupted = again
  flag : s.stopFlag → s.interrupted ∨ ∃ e ∈ exceptions conf s, e ≠ .keyboardInterrupt
  sandboxStopped : ∀ i, s.sandbox i = .done (.error .keyboardInterrupt) → s.stopFlag
  resourceStopped : ∀ i j, s.resource i j = some (.done (.error .keyboardInterrupt)) → s.stopFlag
  settled : s.main.settled → allEnded conf s
  outcome : ∀ r, s.main.outcome? = some r → Outcome conf s r

theorem inv_init (h : init s) : Inv conf s := by
  subst h
  refine ⟨?_, ?_, ?_, ?_, ?_, ?_⟩ <;> simp [Main.inExcept?, Main.settled, Main.outcome?]

theorem inv_thread (h : Inv conf s) (hs : ThreadStep s s') : Inv conf s' := by
  refine ⟨?_, ?_, ?_, ?_, ?_, ?_⟩
  · rw [hs.main, hs.interrupted]
    exact h.inExcept
  · rw [hs.stopFlag, hs.interrupted]
    intro hflag
    refine (h.flag hflag).imp_right ?_
    rintro ⟨e, he, hne⟩
    exact ⟨e, exceptions_step hs he, hne⟩
  · intro i hi
    rw [hs.stopFlag]
    rcases hs.sandbox i with hsame | ⟨-, hstopped⟩
    · exact h.sandboxStopped i (hsame ▸ hi)
    · rcases hstopped hi with hflag | ⟨j, hj⟩
      · exact hflag
      · exact h.resourceStopped i j hj
  · intro i j hij
    rw [hs.stopFlag]
    exact (hs.resource i j hij).elim (h.resourceStopped i j) id
  · rw [hs.main]
    exact fun hsettled => (ended_step hs (h.settled hsettled)).1
  · rw [hs.main]
    intro r hr
    have hsettled : s.main.settled := by
      revert hr
      cases s.main <;> simp [Main.outcome?, Main.settled]
    have houtcome := h.outcome r hr
    unfold Outcome at houtcome ⊢
    rwa [hs.interrupted, (ended_step hs (h.settled hsettled)).2]

theorem exceptions_other (h : Inv conf s) (hinterrupted : s.interrupted = false)
    (hne : exceptions conf s ≠ []) : ∃ e ∈ exceptions conf s, e ≠ .keyboardInterrupt := by
  obtain ⟨e, he⟩ := List.exists_mem_of_ne_nil _ hne
  by_cases hki : e = .keyboardInterrupt
  · subst hki
    obtain ⟨i, -, hi⟩ := mem_exceptions.mp he
    exact (h.flag (h.sandboxStopped i hi)).resolve_left (by simp [hinterrupted])
  · exact ⟨e, he, hki⟩

theorem verdict_other {exceptions : List Exn} (he : e ∈ exceptions) (hne : e ≠ .keyboardInterrupt) :
    ∃ msg, verdict exceptions = some (.baseAutomation msg) := by
  unfold verdict
  split
  · cases he
  · exact (hne (List.mem_singleton.mp he)).elim
  · exact ⟨_, rfl⟩

theorem verdict_none {exceptions : List Exn} (h : verdict exceptions = none) : exceptions = [] := by
  unfold verdict at h
  split at h
  · rfl
  · cases h
  · cases h

theorem Inv.setMain {main : Main} {flag : Bool} (h : Inv conf s)
    (hexcept : ∀ again, main.inExcept? = some again → s.interrupted = again)
    (hflag : s.stopFlag → flag)
    (hother : flag → s.interrupted ∨ ∃ e ∈ exceptions conf s, e ≠ .keyboardInterrupt)
    (hsettled : main.settled → allEnded conf s)
    (houtcome : ∀ r, main.outcome? = some r → Outcome conf s r) :
    Inv conf { s with main, stopFlag := flag } :=
  ⟨hexcept, hother, fun i hi => hflag (h.sandboxStopped i hi),
    fun i j hij => hflag (h.resourceStopped i j hij), hsettled, houtcome⟩

theorem Inv.exit (h : Inv conf s) (hsettled : s.main.settled) (hr : Outcome conf s r) :
    Inv conf { s with main := .exit r } := by
  refine h.setMain (by simp [Main.inExcept?]) id h.flag (fun _ => h.settled hsettled) ?_
  rintro _ ⟨⟩
  exact hr

theorem inv_main (h : Inv conf s) (hs : nextMain conf s = some s') : Inv conf s' := by
  unfold nextMain at hs
  split at hs
  · rename_i again hmain
    have hexcept : s.interrupted = again := h.inExcept again (by rw [hmain]; rfl)
    split at hs
    · cases hs
      rename_i hne
      refine h.setMain (by simp [Main.inExcept?, hexcept]) (fun _ => rfl) (fun _ => ?_)
        (by simp [Main.settled]) (by simp [Main.outcome?])
      cases again with
      | false => exact .inr (exceptions_other h hexcept hne)
      | true => exact .inl hexcept
    · split at hs <;> cases hs
      rename_i hended
      exact h.setMain (by simp [Main.inExcept?, hexcept]) id h.flag (fun _ => hended)
        (by simp [Main.outcome?])
  · rename_i again hmain
    have hexcept : s.interrupted = again := h.inExcept again (by rw [hmain]; rfl)
    split at hs <;> cases hs
    rename_i hended
    exact h.setMain (by simp [Main.inExcept?, hexcept]) id h.flag (fun _ => hended)
      (by simp [Main.outcome?])
  · rename_i again hmain
    have hexcept : s.interrupted = again := h.inExcept again (by rw [hmain]; rfl)
    have hsettled : s.main.settled := by rw [hmain]; rfl
    split at hs <;> cases hs
    · rename_i hverdict
      exact h.exit hsettled (by simp [Outcome, hexcept, verdict_none hverdict])
    · -- a KeyboardInterrupt alone is the user's, who has not interrupted
      rename_i hverdict
      obtain ⟨e, he, hne⟩ :=
        exceptions_other h hexcept fun hnil => by simp [hnil, verdict] at hverdict
      obtain ⟨msg, hmsg⟩ := verdict_other he hne
      rw [hmsg] at hverdict
      cases hverdict
    · rename_i e hki hverdict
      obtain ⟨e', he, hne⟩ :=
        exceptions_other h hexcept fun hnil => by simp [hnil, verdict] at hverdict
      obtain ⟨msg, hmsg⟩ := verdict_other he hne
      rw [hmsg] at hverdict
      cases hverdict
      refine h.exit hsettled ?_
      simp only [Outcome, hexcept, Bool.false_eq_true, if_false]
      exact .inr ⟨⟨e', he, hne⟩, msg, rfl⟩
    · rename_i hverdict
      exact h.exit hsettled (by simp [Outcome, hexcept, hverdict])
    · rename_i e hverdict
      exact h.exit hsettled (by simp [Outcome, hexcept, hverdict])
  · rename_i hmain
    cases hs
    have hexcept : s.interrupted = true := h.inExcept true (by rw [hmain]; rfl)
    exact h.setMain (by simp [Main.inExcept?, hexcept]) (fun _ => rfl) (fun _ => .inl hexcept)
      (by simp [Main.settled]) (by simp [Main.outcome?])
  · rename_i r hmain
    split at hs <;> cases hs
    rename_i hended
    refine h.setMain (by simp [Main.inExcept?]) id h.flag (fun _ => hended) ?_
    rintro _ ⟨⟩
    exact h.outcome r (by rw [hmain]; rfl)
  · cases hs

theorem inv_interrupt (h : Inv conf s) : Inv conf { s with main := .stop, interrupted := true } :=
  ⟨by simp [Main.inExcept?], fun _ => .inl rfl, h.sandboxStopped, h.resourceStopped,
    by simp [Main.settled], by simp [Main.outcome?]⟩

theorem inv_step (h : Inv conf s) (hs : step conf s act = some s') : Inv conf s' := by
  rcases thread_moves (step_moves hs) with hmain | rfl | hthread
  · exact inv_main h hmain
  · exact inv_interrupt h
  · exact inv_thread h hthread

theorem reach_inv (h : Reach (step conf) free init s) : Inv conf s :=
  h.invariant (fun _ => inv_init) fun _ _ _ hi _ hs => inv_step hi hs

def Main.rank : Main → Nat
  | .wait false => 8
  | .waitAll false => 7
  | .classify false => 6
  | .stop => 5
  | .wait true => 4
  | .waitAll true => 3
  | .classify true => 2
  | .exit _ => 1
  | .ended _ => 0

theorem nextMain_rank (hended : allEnded conf s) (hmain : ∀ r, s.main ≠ .ended r) :
    ∃ main stopFlag, nextMain conf s = some { s with main, stopFlag } ∧
      main.rank < s.main.rank := by
  cases hpc : s.main with
  | wait again =>
    by_cases hnil : exceptions conf s = []
    · exact ⟨.classify again, s.stopFlag, by simp [nextMain, hpc, hnil, hended],
        by cases again <;> decide⟩
    · exact ⟨.waitAll again, true, by simp [nextMain, hpc, hnil], by cases again <;> decide⟩
  | waitAll again =>
    exact ⟨.classify again, s.stopFlag, by simp [nextMain, hpc, hended], by cases again <;> decide⟩
  | classify again =>
    cases again with
    | true =>
      refine ⟨.exit (.error ((verdict (exceptions conf s)).getD .keyboardInterrupt)), s.stopFlag,
        ?_, Nat.lt_succ_self 1⟩
      cases hverdict : verdict (exceptions conf s) <;> simp [nextMain, hpc, hverdict]
    | false =>
      cases hverdict : verdict (exceptions conf s) with
      | none =>
          exact ⟨.exit (.ok ()), s.stopFlag, by simp [nextMain, hpc, hverdict], by simp [Main.rank]⟩
      | some e =>
        by_cases hki : e = .keyboardInterrupt
        · exact ⟨.stop, s.stopFlag, by simp [nextMain, hpc, hverdict, hki], by simp [Main.rank]⟩
        · exact ⟨.exit (.error e), s.stopFlag, by simp [nextMain, hpc, hverdict],
            by simp [Main.rank]⟩
  | stop => exact ⟨.wait true, true, by simp [nextMain, hpc], by simp [Main.rank]⟩
  | exit r => exact ⟨.ended r, s.stopFlag, by simp [nextMain, hpc, hended], by simp [Main.rank]⟩
  | ended r => exact (hmain r hpc).elim

theorem main_ends (hended : allEnded conf s) :
    ∃ n t r, run (step conf) s (List.replicate n .main) = some t ∧ t.main = .ended r := by
  induction hrank : s.main.rank using Nat.strong_induction_on generalizing s with
  | _ rank ih =>
    subst hrank
    by_cases hmain : ∃ r, s.main = .ended r
    · obtain ⟨r, hr⟩ := hmain
      exact ⟨0, s, r, rfl, hr⟩
    · obtain ⟨main, flag, hnext, hlt⟩ := nextMain_rank hended (by simpa using hmain)
      obtain ⟨n, t, r, hrun, ht⟩ :=
        ih main.rank hlt (s := { s with main, stopFlag := flag }) hended rfl
      refine ⟨n + 1, t, r, ?_, ht⟩
      rw [List.replicate_succ, run]
      simpa [step, hnext] using hrun

-- ---------------------------------------------------------------------------
-- Whose exception it is
-- ---------------------------------------------------------------------------

/-- Main raises the user's KeyboardInterrupt when the threads only stopped, a
BaseAutomationException when a thread failed, and returns otherwise. -/
structure Classified (conf : Conf) (s : State) (r : Except Exn Unit) : Prop where
  keyboardInterrupt : r = .error .keyboardInterrupt ↔
    s.interrupted ∧ ∀ e ∈ exceptions conf s, e = .keyboardInterrupt
  baseAutomation : (∃ msg, r = .error (.baseAutomation msg)) ↔
    ∃ e ∈ exceptions conf s, e ≠ .keyboardInterrupt
  returned : r = .ok () ↔
    ¬ (s.interrupted ∧ ∀ e ∈ exceptions conf s, e = .keyboardInterrupt) ∧
    ¬ ∃ e ∈ exceptions conf s, e ≠ .keyboardInterrupt

/-- Two or more threads stopped for the user, and none failed. -/
def StoppedTogether (conf : Conf) (s : State) : Prop :=
  s.interrupted ∧ 2 ≤ (exceptions conf s).length ∧ ∀ e ∈ exceptions conf s, e = .keyboardInterrupt

instance : Decidable (StoppedTogether conf s) := by
  unfold StoppedTogether
  infer_instance

theorem classified_error (he : ∃ e ∈ exceptions conf s, e ≠ .keyboardInterrupt) :
    Classified conf s (.error (.baseAutomation msg)) := by
  refine ⟨?_, ?_, ?_⟩
  · simpa using fun _ => he
  · simpa using he
  · simpa using fun _ => he

theorem classified_interrupt (hi : s.interrupted)
    (hall : ∀ e ∈ exceptions conf s, e = .keyboardInterrupt) :
    Classified conf s (.error .keyboardInterrupt) := by
  refine ⟨by simpa using ⟨hi, hall⟩, by simpa using hall, ?_⟩
  simp only [reduceCtorEq, false_iff]
  exact fun hnone => hnone.1 ⟨hi, hall⟩

theorem classified_return (hi : s.interrupted = false) (hnil : exceptions conf s = []) :
    Classified conf s (.ok ()) := by
  refine ⟨?_, ?_, ?_⟩ <;> simp [hi, hnil]

theorem verdict_together {exceptions : List Exn} (hlength : 2 ≤ exceptions.length) :
    ∃ msg, verdict exceptions = some (.baseAutomation msg) := by
  unfold verdict
  split
  · simp at hlength
  · simp at hlength
  · exact ⟨_, rfl⟩

theorem classified_iff (hr : Outcome conf s r) :
    Classified conf s r ↔ ¬ StoppedTogether conf s := by
  unfold Outcome at hr
  split at hr
  · rename_i hi
    by_cases hall : ∀ e ∈ exceptions conf s, e = .keyboardInterrupt
    · match hexceptions : exceptions conf s with
      | [] | [e] =>
        have hki : r = .error .keyboardInterrupt := by
          rw [hr]
          simp_all [verdict]
        subst hki
        exact iff_of_true (classified_interrupt hi hall) (by simp [StoppedTogether, hexceptions])
      | e :: e' :: es =>
        have hlength : 2 ≤ (exceptions conf s).length := by simp [hexceptions]
        obtain ⟨msg, hmsg⟩ := verdict_together hlength
        refine iff_of_false (fun h => ?_) (fun h => h ⟨hi, hlength, hall⟩)
        have hki := h.keyboardInterrupt.mpr ⟨hi, hall⟩
        rw [hr, hmsg] at hki
        cases hki
    · have hother : ∃ e ∈ exceptions conf s, e ≠ .keyboardInterrupt := by simpa using hall
      obtain ⟨e, he, hne⟩ := hother
      obtain ⟨msg, hmsg⟩ := verdict_other he hne
      rw [hr, hmsg]
      exact iff_of_true (classified_error ⟨e, he, hne⟩) fun h => hall h.2.2
  · rename_i hi
    refine iff_of_true ?_ fun h => hi h.1
    rcases hr with ⟨hnil, rfl⟩ | ⟨hother, msg, rfl⟩
    · exact classified_return (by simpa using hi) hnil
    · exact classified_error hother

/-- Main ends when the sandbox threads have, not before, and raises what it
should unless two or more of them stopped for the user. -/
theorem outcome_classified (h : Reach (step conf) free init s) :
    (allEnded conf s →
      ∃ n t r, run (step conf) s (List.replicate n .main) = some t ∧ t.main = .ended r) ∧
    ∀ r, s.main = .ended r →
      allEnded conf s ∧ (Classified conf s r ↔ ¬ StoppedTogether conf s) := by
  have hinv := reach_inv h
  refine ⟨main_ends, fun r hended => ⟨hinv.settled (by rw [hended]; rfl), ?_⟩⟩
  exact classified_iff (hinv.outcome r (by rw [hended]; rfl))

theorem outcome_classified_one :
    let conf : Conf := ⟨[{ name := "sandbox" }], []⟩
    ∃ s, Reach (step conf) free init s ∧ s.main = .ended (.error .keyboardInterrupt) ∧
      allEnded conf s ∧
        (Classified conf s (.error .keyboardInterrupt) ↔ ¬ StoppedTogether conf s) := by
  intro conf
  let acts : List Act :=
    [.interrupt, .main, .sandbox 0 (.ok ()), .sandbox 0 (.ok ()), .main, .main, .main, .main]
  have hreach : Reach (step conf) free init ((run (step conf) {} acts).getD {}) :=
    .of_free_run acts rfl rfl
  exact ⟨_, hreach, rfl, (outcome_classified hreach).2 _ rfl⟩

/-- The user interrupts main, and both sandbox threads stop: main raises a
BaseAutomationException. -/
theorem interrupt_not_classified :
    let conf : Conf := ⟨[{ name := "a" }, { name := "b" }], []⟩
    ∃ s r, Reach (step conf) free init s ∧ s.main = .ended r ∧ ¬ Classified conf s r := by
  intro conf
  let acts : List Act := [.interrupt, .main, .sandbox 0 (.ok ()), .sandbox 0 (.ok ()),
    .sandbox 1 (.ok ()), .sandbox 1 (.ok ()), .main, .main, .main, .main]
  let s := (run (step conf) {} acts).getD {}
  have hreach : Reach (step conf) free init s := .of_free_run acts rfl rfl
  refine ⟨s, _, hreach, rfl, fun h => ?_⟩
  have hall : ∀ e ∈ exceptions conf s, e = .keyboardInterrupt := by decide +kernel
  cases h.keyboardInterrupt.mpr ⟨rfl, hall⟩

end ShellTests.RunTests
