import Mathlib.Data.Fintype.Basic
import ShellTests.Autoload

/-!
# One autoload for the callers of `autoload_if_needed`

The resource threads of sandboxes that share a resource call only
`autoload_if_needed`. Its two checks and the `set` that follows them in
`autoload` are three lines, so a caller can pass both checks while another is
between them, or on an `autoload_finished` that it read before a whole call
of another thread.
-/

namespace ShellTests.Autoload

open Machine

variable {ι : Type}

def OnlyIfNeeded (_ : State ι) : Act ι → Prop
  | .autoload _ => False
  | _ => True

instance (s : State ι) (a : Act ι) : Decidable (OnlyIfNeeded s a) := by
  cases a <;> unfold OnlyIfNeeded <;> infer_instance

def Event.isBodyStarted : Event ι → Bool
  | .bodyStarted _ => true
  | _ => false

/-- The body of `autoload` ran at most once, and a call that returned did so
when that execution had ended. -/
structure OnceBeforeReturns (history : List (Event ι)) : Prop where
  once : history.countP Event.isBodyStarted ≤ 1
  returns : ∀ before after t, history = before ++ .returned t :: after →
    ∃ u ok, List.Sublist [.bodyStarted u, .bodyEnded u ok] before

/-- Two callers pass both checks before either sets `_autoload_started`; or
one checks `autoload_finished`, the other then runs a whole call up to
`_autoload_started.clear()`, and the first finds that event unset too. -/
theorem autoload_twice :
    (∃ s : State (Fin 2), Reach (step ⟨false, false⟩) OnlyIfNeeded init s ∧
      ¬ OnceBeforeReturns s.history) ∧
    ∃ s : State (Fin 2), Reach (step ⟨false, false⟩) OnlyIfNeeded init s ∧
      s.autoloadFinished = true ∧ s.history = [.bodyStarted 1, .bodyEnded 1 true, .returned 1,
        .bodyStarted 0] ∧ ¬ OnceBeforeReturns s.history := by
  constructor
  · refine ⟨_, .of_run [.autoloadIfNeeded 0, .next 0, .next 0, .autoloadIfNeeded 1, .next 1,
      .next 1, .next 0, .next 0, .next 0, .next 0, .next 0, .next 0, .next 1, .next 1]
      rfl rfl (by decide), ?_⟩
    exact fun h => absurd h.once (by decide)
  · refine ⟨_, .of_run [.autoloadIfNeeded 0, .next 0, .autoloadIfNeeded 1, .next 1, .next 1,
      .next 1, .next 1, .next 1, .next 1, .next 1, .next 1, .next 1, .next 0, .next 0, .next 0]
      rfl rfl (by decide), rfl, rfl, ?_⟩
    exact fun h => absurd h.once (by decide)

/-- A caller passes the second check, `_autoload_started` unset, only while
`autoload_finished` is unset too and no other is about to set the event. -/
def CheckedAlone (s : State ι) : Act ι → Prop
  | .autoload _ => False
  | .next t => s.pc t = .checkStarted → s.autoloadStarted = false →
      s.autoloadFinished = false ∧ ∀ u, s.pc u ≠ .setStarted
  | _ => True

instance [Fintype ι] (s : State ι) (a : Act ι) : Decidable (CheckedAlone s a) := by
  cases a <;> unfold CheckedAlone <;> infer_instance

def Pc.committed : Pc → Bool
  | .setStarted => true
  | p => p.inProgress

def Ran (u : ι) (ok : Bool) (history : List (Event ι)) : Prop :=
  ∃ rest, history = .bodyStarted u :: .bodyEnded u ok :: rest ∧
    rest.countP Event.isBodyStarted = 0

/-- The events and the history when the one caller, `u`, is at a line. -/
def Pc.finds (u : ι) (s : State ι) : Pc → Prop
  | .acquire => s.autoloadFinished = false ∧ s.history = []
  | .body _ => s.autoloadFinished = false ∧ s.history = [.bodyStarted u]
  | .setSuccess ok | .setFinished ok =>
    s.autoloadFinished = false ∧ s.history = [.bodyStarted u, .bodyEnded u ok]
  | .release ok => s.autoloadFinished = true ∧ Ran u ok s.history
  | .clearStarted => s.autoloadFinished = true ∧ Ran u true s.history
  | _ => False

/-- Nobody has begun and at most one is about to; or `u` is at it; or it is done. -/
inductive AtMostOne (s : State ι) : Prop
  | fresh : (∀ v, (s.pc v).inProgress = false) →
      (∀ u v, s.pc u = .setStarted → s.pc v = .setStarted → u = v) →
      s.autoloadFinished = false → s.history = [] → AtMostOne s
  | running (u : ι) : (∀ v, v ≠ u → (s.pc v).committed = false) → s.autoloadStarted = true →
      (s.pc u).finds u s → AtMostOne s
  | done (u : ι) (ok : Bool) : (∀ v, (s.pc v).committed = false) →
      s.autoloadFinished = true → Ran u ok s.history → AtMostOne s

theorem Ran.append (h : Ran u ok history) (he : e.isBodyStarted = false) :
    Ran u ok (history ++ [e]) := by
  obtain ⟨rest, rfl, hr⟩ := h
  exact ⟨rest ++ [e], rfl, by simp [hr, he]⟩

theorem Ran.once (h : Ran u ok history) : OnceBeforeReturns history := by
  obtain ⟨rest, rfl, hr⟩ := h
  refine ⟨by simp [List.countP_cons, Event.isBodyStarted, hr],
    fun before after t heq => ⟨u, ok, ?_⟩⟩
  match before with
  | [] => cases heq
  | [_] => simp at heq
  | e :: e' :: before =>
    obtain ⟨rfl, rfl, -⟩ : _ = e ∧ _ = e' ∧ _ := by simpa using heq
    simp

theorem once_nil : OnceBeforeReturns ([] : List (Event ι)) := ⟨by simp, by simp⟩

theorem AtMostOne.once (h : AtMostOne s) : OnceBeforeReturns s.history := by
  cases h with
  | fresh _ _ _ hh => exact hh ▸ once_nil
  | done u ok _ _ hr => exact hr.once
  | running u _ _ hf =>
    generalize s.pc u = p at hf
    cases p with
    | acquire => exact hf.2 ▸ once_nil
    | body _ =>
      refine hf.2 ▸ ⟨by simp [Event.isBodyStarted], fun before after t heq => ?_⟩
      simp [List.cons_eq_append_iff] at heq
    | setSuccess ok | setFinished ok =>
      have hran : Ran u ok s.history := ⟨[], hf.2, rfl⟩
      exact hran.once
    | release _ | clearStarted => exact hf.2.once
    | _ => exact hf.elim

-- ---------------------------------------------------------------------------
-- Each step keeps it
-- ---------------------------------------------------------------------------

variable [DecidableEq ι] {conf : Conf} {s s' : State ι} {t : ι} {a : Act ι}

theorem moves_checking (h : Moves conf s t a s') (hok : CheckedAlone s a)
    (ht : (s.pc t).committed = false) :
    (∃ p, p.committed = false ∧ s'.pc = Function.update s.pc t p ∧
      s'.autoloadStarted = s.autoloadStarted ∧ s'.autoloadFinished = s.autoloadFinished ∧
      (s'.history = s.history ∨
        s.autoloadFinished = true ∧ s'.history = s.history ++ [.returned t])) ∨
    s.autoloadStarted = false ∧ s.autoloadFinished = false ∧ (∀ u, s.pc u ≠ .setStarted) ∧
      s' = s.goto t .setStarted := by
  cases h with
  | autoload => exact hok.elim
  | willAutoload hp hs =>
    obtain ⟨hf, hu⟩ := hok hp hs
    exact .inr ⟨hs, hf, hu, rfl⟩
  | autoloadIfNeeded hp | notFinished hp | willWait hp =>
    exact .inl ⟨_, rfl, rfl, rfl, rfl, .inl rfl⟩
  | finishedBefore hp hf | woken hp hf => exact .inl ⟨_, rfl, rfl, rfl, rfl, .inr ⟨hf, rfl⟩⟩
  | _ hp => simp [hp, Pc.committed, Pc.inProgress] at ht

theorem moves_at_setStarted (h : Moves conf s t a s') (hp : s.pc t = .setStarted) :
    s' = { s.goto t .acquire with autoloadStarted := true } := by
  cases h <;> simp_all

theorem moves_running_once (h : Moves conf s t a s') (hs : s.autoloadStarted = true)
    (hf : (s.pc t).finds t s) :
    ∃ p, s'.pc = Function.update s.pc t p ∧
      (s'.autoloadStarted = true ∧ p.finds t s' ∨
        p.committed = false ∧ s'.autoloadFinished = true ∧ ∃ ok, Ran t ok s'.history) := by
  cases h with
  | acquire hp | bodyGoes hp | bodyEnds hp | bodyRaises hp | setSuccess hp =>
    refine ⟨_, rfl, .inl ⟨hs, ?_⟩⟩
    simp_all [Pc.finds]
  | setFinished hp =>
    refine ⟨_, rfl, .inl ⟨hs, rfl, [], ?_, rfl⟩⟩
    simp_all [Pc.finds]
  | leaveBlock hp =>
    refine ⟨_, rfl, .inl ⟨hs, ?_⟩⟩
    simpa [hp, Pc.finds] using hf
  | reraise hp | clearStarted hp =>
    rw [hp] at hf
    exact ⟨_, rfl, .inr ⟨rfl, hf.1, _, hf.2.append rfl⟩⟩
  | _ hp => simp [hp, Pc.finds] at hf

omit [DecidableEq ι] in
theorem Pc.finds_mono {u : ι} {p : Pc} (h : p.finds u s)
    (hf : s'.autoloadFinished = s.autoloadFinished)
    (hh : s'.history = s.history ∨
      s.autoloadFinished = true ∧ s'.history = s.history ++ [.returned t]) :
    p.finds u s' := by
  obtain hh | ⟨hfin, hh⟩ := hh
  · cases p <;> simp_all [Pc.finds]
  · cases p <;> simp_all [Pc.finds]
    · exact h.append rfl
    · exact h.append rfl

theorem Pc.not_committed {p : Pc} (hi : p.inProgress = false) (hs : p ≠ .setStarted) :
    p.committed = false := by
  cases p <;> simp_all [Pc.committed]

theorem Pc.not_inProgress {p : Pc} (h : p.committed = false) :
    p.inProgress = false ∧ p ≠ .setStarted := by
  cases p <;> simp_all [Pc.committed, Pc.inProgress]

theorem atMostOne_moves (hi : AtMostOne s) (hok : CheckedAlone s a) (h : Moves conf s t a s') :
    AtMostOne s' := by
  cases hi with
  | fresh hn hone hf hh =>
    by_cases hset : s.pc t = .setStarted
    · -- the others are neither inside nor at this line
      have hothers (v) (hv : v ≠ t) : (s.pc v).committed = false :=
        Pc.not_committed (hn v) fun hv' => hv (hone v t hv' hset)
      obtain rfl := moves_at_setStarted h hset
      refine .running t (fun v hv => ?_) rfl ?_
      · simpa [hv] using hothers v hv
      · simpa [Pc.finds] using ⟨hf, hh⟩
    · obtain ⟨p, hp, hpc, hs', hf', hh'⟩ | ⟨hs, -, hu, rfl⟩ :=
        moves_checking h hok (Pc.not_committed (hn t) hset)
      · obtain ⟨hpn, hps⟩ := Pc.not_inProgress hp
        refine .fresh ?_ (fun u v hu hv => ?_) (hf'.trans hf) ?_
        · rw [hpc]
          exact forall_update (P := fun p : Pc => p.inProgress = false) hpn hn
        · rw [hpc] at hu hv
          by_cases hut : u = t <;> by_cases hvt : v = t <;> simp_all
          exact hone u v hu hv
        · simpa [hf, hh] using hh'
      · refine .fresh ?_ (fun u v hu' hv' => ?_) hf hh
        · exact forall_update (P := fun p : Pc => p.inProgress = false) rfl hn
        · by_cases hut : u = t <;> by_cases hvt : v = t <;> simp_all
  | running u hu hs hfinds =>
    by_cases htu : t = u
    · subst htu
      obtain ⟨p, hpc, ⟨hs', hp⟩ | ⟨hp, hf', ok, hr⟩⟩ := moves_running_once h hs hfinds
      · refine .running t (fun v hv => ?_) hs' (by simpa [hpc] using hp)
        simpa [hpc, hv] using hu v hv
      · refine .done t ok (fun v => ?_) hf' hr
        by_cases hv : v = t
        · simpa [hpc, hv] using hp
        · simpa [hpc, hv] using hu v hv
    · obtain ⟨p, hp, hpc, hs', hf', hh'⟩ | ⟨hs', -⟩ := moves_checking h hok (hu t htu)
      · refine .running u (fun v hv => ?_) (hs'.trans hs) ?_
        · by_cases hvt : v = t
          · simpa [hpc, hvt] using hp
          · simpa [hpc, hvt] using hu v hv
        · have hpu : s'.pc u = s.pc u := by simp [hpc, Ne.symm htu]
          exact hpu ▸ Pc.finds_mono hfinds hf' hh'
      · simp [hs] at hs'
  | done u ok hu hf hr =>
    obtain ⟨p, hp, hpc, -, hf', hh'⟩ | ⟨-, hf', -⟩ := moves_checking h hok (hu t)
    · refine .done u ok ?_ (hf'.trans hf) ?_
      · rw [hpc]
        exact forall_update (P := fun p : Pc => p.committed = false) hp hu
      · obtain hh' | ⟨-, hh'⟩ := hh'
        · exact hh' ▸ hr
        · exact hh' ▸ hr.append rfl
    · simp [hf] at hf'

theorem reach_atMostOne (h : Reach (step conf) CheckedAlone init s) : AtMostOne s := by
  refine h.invariant (fun s h0 => ?_) fun s a s' hi hok hstep => ?_
  · obtain rfl : s = {} := h0
    exact .fresh (fun _ => rfl) (by simp) rfl rfl
  · obtain ⟨t, hm⟩ := step_moves hstep
    exact atMostOne_moves hi hok hm

/-- With the second check passed alone, the body runs at most once, and before
any call returns. -/
theorem autoload_once (conf : Conf) (h : Reach (step conf) CheckedAlone init s) :
    OnceBeforeReturns s.history := (reach_atMostOne h).once

theorem autoload_once_of_three : ∃ s : State (Fin 3),
    s.history = [.bodyStarted 0, .bodyEnded 0 true, .returned 1, .returned 2, .returned 0] ∧
      OnceBeforeReturns s.history := by
  refine ⟨_, ?_, autoload_once ⟨false, false⟩ (.of_run [.autoloadIfNeeded 0, .next 0, .next 0,
    .next 0, .autoloadIfNeeded 1, .next 1, .next 1, .next 0, .next 0, .next 0, .next 0, .next 1,
    .autoloadIfNeeded 2, .next 2, .next 0, .next 0] rfl rfl (by decide))⟩
  rfl

end ShellTests.Autoload
