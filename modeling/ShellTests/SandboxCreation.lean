import ShellTests.StorageReservations

/-!
# When a sandbox comes to be

`SandboxHandler.create` polls the new reservation until it is started. What
the polls answer decides between a handler and one `EndReservation`.
-/

namespace ShellTests

open Prog

variable {σ : Type} (api : Api) (rid : ReservationId)

def ReservationStatus.Started (status : ReservationStatus) : Prop :=
  status.provisioningStatus = "Ready" ∨
    status.provisioningStatus = "Not Run" ∧ status.status = "Started"

theorem isStarted_iff (status : ReservationStatus) :
    CloudShellHandler.ReservationStatus.isStarted status ↔ status.Started := by
  simp [CloudShellHandler.ReservationStatus.isStarted, ReservationStatus.Started]

/-- The log after one poll more. -/
def polled (log : List Event) : List Event :=
  log ++ [.getReservationStatus rid (api.getReservationStatus log rid)]

def afterPolls (log : List Event) : Nat → List Event
  | 0 => log
  | n + 1 => afterPolls (polled api rid log) n

/-- What poll number `i` gets: a status, or an exception. -/
def statusReply (log : List Event) (i : Nat) : Except Exn ReservationStatus :=
  api.getReservationStatus (afterPolls api rid log i) rid

/-- One of the first `n` replies means started, and before it nothing raised
and nothing was an error. -/
def StartsWithin (n : Nat) (log : List Event) : Prop :=
  ∃ i < n, (∃ status, statusReply api rid log i = .ok status ∧ status.Started) ∧
    ∀ j < i, ∃ status, statusReply api rid log j = .ok status ∧
      status.provisioningStatus ≠ "Error"

theorem not_startsWithin_zero (log : List Event) : ¬ StartsWithin api rid 0 log := by
  rintro ⟨i, hi, -⟩
  omega

theorem startsWithin_succ (n : Nat) (log : List Event) :
    StartsWithin api rid (n + 1) log ↔
      ∃ status, api.getReservationStatus log rid = .ok status ∧
        (status.Started ∨
          status.provisioningStatus ≠ "Error" ∧ StartsWithin api rid n (polled api rid log)) := by
  constructor
  · rintro ⟨i, hi, hstarted, hbefore⟩
    cases i with
    | zero =>
      obtain ⟨status, hreply, hs⟩ := hstarted
      exact ⟨status, hreply, .inl hs⟩
    | succ i =>
      obtain ⟨status, hreply, hne⟩ := hbefore 0 (by omega)
      refine ⟨status, hreply, .inr ⟨hne, i, by omega, hstarted, fun j hj => ?_⟩⟩
      exact hbefore (j + 1) (by omega)
  · rintro ⟨status, hreply, hs | ⟨hne, i, hi, hstarted, hbefore⟩⟩
    · exact ⟨0, by omega, ⟨status, hreply, hs⟩, fun j hj => by omega⟩
    · refine ⟨i + 1, by omega, hstarted, fun j hj => ?_⟩
      cases j with
      | zero => exact ⟨status, hreply, hne⟩
      | succ j => exact hbefore j (by omega)

theorem waitStartedLoop_ok_iff (n : Nat) (s : σ) (log : List Event) :
    (CloudShellHandler.waitStartedLoop api rid n s log).1 = .ok () ↔
      StartsWithin api rid n log := by
  induction n generalizing log with
  | zero => simp [CloudShellHandler.waitStartedLoop, not_startsWithin_zero]
  | succ n ih =>
    rw [startsWithin_succ]
    simp only [CloudShellHandler.waitStartedLoop, CloudShellHandler.getReservationStatus]
    cases hreply : api.getReservationStatus log rid with
    | error e => simp [run_bind, hreply]
    | ok status =>
      have hpoll : log ++ [.getReservationStatus rid (.ok status)] = polled api rid log := by
        rw [polled, hreply]
      simp only [run_bind, run_call, hreply, hpoll, Except.ok.injEq, exists_eq_left']
      by_cases hs : status.Started
      · simp [(isStarted_iff status).mpr hs, hs]
      · have hnot : CloudShellHandler.ReservationStatus.isStarted status = false :=
          Bool.eq_false_iff.mpr fun h => hs ((isStarted_iff status).mp h)
        by_cases herr : status.provisioningStatus = "Error"
        · cases herrors : api.getReservationErrors (polled api rid log) rid <;>
          · simp [hnot, hs, herr, run_bind, herrors]
        · simp [hnot, hs, herr, ih]

theorem waitStartedLoop_ends (n : Nat) (s : σ) :
    Triple (CloudShellHandler.waitStartedLoop api rid n) s fun _ s' evs =>
      s' = s ∧ ended evs = [] := by
  have hemits : Emits (fun e => e.ended? = none)
      (CloudShellHandler.waitStartedLoop (σ := σ) api rid n) :=
    waitStartedLoop_emits api rid (fun _ => rfl) (fun _ => rfl) n
  exact (hemits s).mono fun _ _ _ ⟨hs, hevs⟩ => ⟨hs, ended_of_none hevs⟩

section
variable {api rid} {conf : SandboxConfig} {duration : Nat} {s s' : σ} {log log' : List Event}

theorem create_of_started
    (h : SandboxHandler.reserve api conf duration s log = (.ok rid, s', log'))
    (hwait : CloudShellHandler.waitStartedLoop api rid 60 s' log' = (.ok (), s', log'')) :
    SandboxHandler.create api conf duration s log = (.ok ⟨conf, rid⟩, s', log'') := by
  have hcreate : SandboxHandler.create api conf duration s log = _ := run_bind_ok h
  rw [hcreate, run_bind, run_tryCatch, CloudShellHandler.waitReservationIsStarted, hwait]
  rfl

theorem create_of_not_started
    (h : SandboxHandler.reserve api conf duration s log = (.ok rid, s', log'))
    (hwait : CloudShellHandler.waitStartedLoop api rid 60 s' log' = (.error e, s', log'')) :
    ∃ e' evs, SandboxHandler.create api conf duration s log = (.error e', s', log'' ++ evs) ∧
      ended evs = [rid] := by
  have hcreate : SandboxHandler.create api conf duration s log = _ := run_bind_ok h
  obtain ⟨rend, s₁, evs, hend, hs, -, hended⟩ := endReservation_ends api ⟨conf, rid⟩ s' log''
  subst s₁
  rw [hcreate, run_bind, run_tryCatch, CloudShellHandler.waitReservationIsStarted, hwait]
  simp only [run_bind]
  rw [SandboxHandler.endReservation] at hend
  rw [hend]
  -- the end of the reservation may raise in place of `e`
  cases rend with
  | ok _ => exact ⟨e, evs, by simp, hended⟩
  | error e' => exact ⟨e', evs, by simp, hended⟩

end

/-- Once the reservation is made: a handler and no end of it if it starts in
time, and else an exception and one end of it. -/
theorem create_after_reserve {conf : SandboxConfig} {duration : Nat} {s s' : σ}
    {log log' : List Event}
    (h : SandboxHandler.reserve api conf duration s log = (.ok rid, s', log')) :
    ∃ r evs, SandboxHandler.create api conf duration s log = (r, s', log ++ evs) ∧
      ((∃ handler, r = .ok handler) ↔ StartsWithin api rid 60 log') ∧
      (∀ handler, r = .ok handler → handler = ⟨conf, rid⟩ ∧ ended evs = []) ∧
      ∀ e, r = .error e → ended evs = [rid] := by
  obtain ⟨_, _, evs₀, hreserve, hnone₀, -⟩ := reserve_reserves api conf duration s log
  obtain ⟨rfl, rfl, rfl⟩ : _ ∧ _ ∧ _ := by simpa [h] using hreserve
  obtain ⟨r, s₁, evs, hwait, hs, hnone⟩ := waitStartedLoop_ends api rid 60 s' (log ++ evs₀)
  subst s₁
  have hiff := waitStartedLoop_ok_iff api rid 60 s' (log ++ evs₀)
  rw [hwait] at hiff
  cases r with
  | ok _ =>
    have hended : ended (evs₀ ++ evs) = [] := by rw [ended_append, hnone₀, hnone, List.nil_append]
    refine ⟨.ok ⟨conf, rid⟩, evs₀ ++ evs, ?_, by simpa using hiff, ?_, by simp⟩
    · rw [create_of_started h hwait, List.append_assoc]
    · rintro _ ⟨⟩
      exact ⟨rfl, hended⟩
  | error e =>
    have hnot : ¬ StartsWithin api rid 60 (log ++ evs₀) := by simpa using hiff
    obtain ⟨e', evs', hrun, hended⟩ := create_of_not_started h hwait
    have hall : ended (evs₀ ++ (evs ++ evs')) = [rid] := by
      rw [ended_append, ended_append, hnone₀, hnone, hended, List.nil_append, List.nil_append]
    refine ⟨.error e', evs₀ ++ (evs ++ evs'), ?_, by simpa using hnot, by simp, fun _ _ => hall⟩
    rw [hrun, List.append_assoc, List.append_assoc]

theorem create_after_reserve_obliging :
    ∃ r evs, SandboxHandler.create Api.obliging { name := "s" } 120 () [] = (r, (), [] ++ evs) ∧
      ((∃ handler, r = .ok handler) ↔
        StartsWithin Api.obliging "s" 60 [.createImmediateReservation "s" 120 (.ok "s")]) ∧
      (∀ handler, r = .ok handler → handler = ⟨{ name := "s" }, "s"⟩ ∧ ended evs = []) ∧
      ∀ e, r = .error e → ended evs = ["s"] :=
  create_after_reserve Api.obliging "s" rfl

end ShellTests
