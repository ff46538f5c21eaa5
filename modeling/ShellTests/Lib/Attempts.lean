import ShellTests.Lib.Program

/-!
# Attempts

A list of programs run one after the other, as a test runner does: what one of
them raises counts as its failure and the next one is run, unless it is fatal
to the whole run.
-/

namespace Prog

variable {σ ε ν : Type} (fatal : ε → Bool)

/-- Whether the program ended well. -/
def attempt (m : Prog σ ε ν Unit) : Prog σ ε ν Bool :=
  tryCatch (do m; pure true) fun e => if fatal e then throw e else pure false

/-- Whether all of them did. -/
def attempts : List (Prog σ ε ν Unit) → Prog σ ε ν Bool
  | [] => pure true
  | m :: ms => do
    let ok ← attempt fatal m
    let rest ← attempts ms
    pure (ok && rest)

variable {fatal} {m : Prog σ ε ν Unit} {ms : List (Prog σ ε ν Unit)} {s s' : σ} {log log' : List ν}

theorem attempt_ok (h : m s log = (.ok (), s', log')) :
    attempt fatal m s log = (.ok true, s', log') := by
  unfold attempt
  rw [run_tryCatch, run_bind_ok h]
  rfl

theorem attempt_error (fatal : ε → Bool) (h : m s log = (.error e, s', log')) :
    attempt fatal m s log = (if fatal e then .error e else .ok false, s', log') := by
  unfold attempt
  rw [run_tryCatch, run_bind_error h]
  cases he : fatal e <;> simp [he]

theorem attempts_cons (h : attempt fatal m s log = (.ok b, s₁, log₁))
    (hms : attempts fatal ms s₁ log₁ = (r, s', log')) :
    attempts fatal (m :: ms) s log = (r.map (b && ·), s', log') := by
  unfold attempts
  rw [run_bind_ok h]
  cases r with
  | ok rest => exact run_bind_ok hms
  | error e => exact run_bind_error hms

theorem attempts_cons_error (h : attempt fatal m s log = (.error e, s', log')) :
    attempts fatal (m :: ms) s log = (.error e, s', log') :=
  run_bind_error h

theorem attempts_cons_true : attempts fatal (m :: ms) s log = (.ok true, s', log') ↔
    ∃ s₁ log₁, m s log = (.ok (), s₁, log₁) ∧ attempts fatal ms s₁ log₁ = (.ok true, s', log') := by
  rcases hm : m s log with ⟨r, s₁, log₁⟩
  rcases hms : attempts fatal ms s₁ log₁ with ⟨r', s₂, log₂⟩
  cases r with
  | ok _ =>
    rw [attempts_cons (attempt_ok hm) hms]
    constructor
    · intro h
      refine ⟨s₁, log₁, rfl, ?_⟩
      rw [hms]
      cases r' with
      | ok b => simpa [Except.map] using h
      | error e => simp [Except.map] at h
    · rintro ⟨_, _, h, hall⟩
      obtain ⟨-, rfl, rfl⟩ := Prod.mk.inj h |>.imp id Prod.mk.inj
      rw [hms] at hall
      cases r' with
      | ok b => simpa [Except.map] using hall
      | error e => simp at hall
  | error e =>
    constructor
    · intro h
      cases he : fatal e with
      | true =>
        have hfatal := attempt_error fatal hm
        rw [he] at hfatal
        rw [attempts_cons_error hfatal] at h
        simp at h
      | false =>
        have hfailed := attempt_error fatal hm
        rw [he] at hfailed
        rw [attempts_cons hfailed hms] at h
        cases r' <;> simp [Except.map] at h
    · rintro ⟨_, _, h, -⟩
      simp at h

theorem attempts_append (h : attempts fatal ms s log = (.ok b, s₁, log₁))
    (h' : attempts fatal ms' s₁ log₁ = (r, s', log')) :
    attempts fatal (ms ++ ms') s log = (r.map (b && ·), s', log') := by
  induction ms generalizing b s log with
  | nil =>
    obtain ⟨rfl, rfl, rfl⟩ : true = b ∧ s = s₁ ∧ log = log₁ := by
      simpa [attempts, run_pure] using h
    rw [List.nil_append, h']
    cases r <;> simp [Except.map]
  | cons m ms ih =>
    rcases hm : attempt fatal m s log with ⟨r₁, s₂, log₂⟩
    cases r₁ with
    | error e =>
      rw [attempts_cons_error hm] at h
      simp at h
    | ok b₁ =>
      rcases hms : attempts fatal ms s₂ log₂ with ⟨r₂, s₃, log₃⟩
      rw [attempts_cons hm hms] at h
      cases r₂ with
      | error e => simp [Except.map] at h
      | ok b₂ =>
        obtain ⟨rfl, rfl, rfl⟩ : (b₁ && b₂) = b ∧ s₃ = s₁ ∧ log₃ = log₁ := by
          simpa [Except.map] using h
        rw [List.cons_append, attempts_cons hm (ih hms)]
        cases r <;> simp [Except.map, Bool.and_assoc]

theorem fatal_of_attempts (h : attempts fatal ms s log = (.error e, s', log')) :
    fatal e = true := by
  induction ms generalizing s log with
  | nil => simp [attempts, run_pure] at h
  | cons m ms ih =>
    rcases hm : m s log with ⟨r, s₁, log₁⟩
    rcases hms : attempts fatal ms s₁ log₁ with ⟨r', s₂, log₂⟩
    have hrest : ∀ b, attempt fatal m s log = (.ok b, s₁, log₁) → fatal e = true := by
      intro b hb
      rw [attempts_cons hb hms] at h
      cases r' with
      | ok b' => simp [Except.map] at h
      | error e' =>
        obtain ⟨rfl, rfl, rfl⟩ : e' = e ∧ s₂ = s' ∧ log₂ = log' := by simpa [Except.map] using h
        exact ih hms
    cases r with
    | ok _ => exact hrest true (attempt_ok hm)
    | error e' =>
      have hattempt := attempt_error fatal hm
      cases he : fatal e' with
      | false =>
        rw [he] at hattempt
        exact hrest false hattempt
      | true =>
        rw [he] at hattempt
        rw [attempts_cons_error hattempt] at h
        obtain rfl : e' = e := by simpa using congrArg Prod.fst h
        exact he

theorem attempt_triple {P : List ν → Prop} (h : Triple m s fun _ _ evs => P evs) :
    Triple (attempt fatal m) s fun _ _ evs => P evs := by
  intro log
  obtain ⟨r, s', evs, hrun, hevs⟩ := h log
  cases r with
  | ok _ => exact ⟨_, s', evs, attempt_ok hrun, hevs⟩
  | error e => exact ⟨_, s', evs, attempt_error fatal hrun, hevs⟩

theorem attempt_hoare {P : σ → List ν → Prop} (h : Hoare P m fun _ => P) :
    Hoare P (attempt fatal m) fun _ => P := by
  intro s log hp
  obtain ⟨r, s', evs, hrun, hp'⟩ := h s log hp
  cases r with
  | ok _ => exact ⟨_, s', evs, attempt_ok hrun, hp'⟩
  | error e => exact ⟨_, s', evs, attempt_error fatal hrun, hp'⟩

theorem attempts_hoare {P : σ → List ν → Prop} (h : ∀ m ∈ ms, Hoare P m fun _ => P) :
    Hoare P (attempts fatal ms) fun _ => P := by
  induction ms with
  | nil => exact .pure' fun _ _ hp => hp
  | cons m ms ih =>
    refine .bind (attempt_hoare (h m (by simp))) (fun _ => ?_) fun _ _ _ hp => hp
    exact .bind (ih fun m hm => h m (by simp [hm])) (fun _ => .pure' fun _ _ hp => hp)
      fun _ _ _ hp => hp

/-- What the events of each program have, and lists of such events keep when
they are put together, the events of the run have. -/
theorem attempts_triple {P : List ν → Prop} (hnil : P [])
    (happ : ∀ as bs, P as → P bs → P (as ++ bs))
    (h : ∀ m ∈ ms, ∀ s, Triple m s fun _ _ evs => P evs) (s : σ) :
    Triple (attempts fatal ms) s fun _ _ evs => P evs := by
  induction ms generalizing s with
  | nil => exact .pure' hnil
  | cons m ms ih =>
    refine .bind (attempt_triple (h m (by simp) s)) (fun b s' evs hevs => ?_) fun _ _ _ hevs => hevs
    refine .bind (ih (fun m hmem => h m (by simp [hmem])) s') (fun _ _ evs' hevs' => ?_)
      fun _ _ evs' hevs' => happ evs evs' hevs hevs'
    exact .pure' (by simpa using happ evs evs' hevs hevs')

end Prog
