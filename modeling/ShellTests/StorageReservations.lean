import ShellTests.DoHandler
import ShellTests.StorageThreads

/-!
# The reservations of a storage

Every reservation that a `HandlerStorage` makes comes from the creation of a
sandbox handler: the creation ends it itself, or a future holds the handler.
-/

namespace ShellTests

open Machine Prog

-- ---------------------------------------------------------------------------
-- What a task reserves and ends
-- ---------------------------------------------------------------------------

theorem mem_ended_iff {log : List Event} {rid : ReservationId} :
    rid ∈ ended log ↔ .endReservation rid ∈ releases log := by
  simp only [ended, releases, List.mem_filterMap]
  refine exists_congr fun e => and_congr_right fun _ => ?_
  cases e <;> simp [Event.ended?, Event.release?]

theorem reserved_of_none {evs : List Event} (h : ∀ e ∈ evs, e.reserved? = none) :
    reserved evs = [] :=
  List.filterMap_eq_nil_iff.mpr h

theorem ended_of_none {evs : List Event} (h : ∀ e ∈ evs, e.ended? = none) : ended evs = [] :=
  List.filterMap_eq_nil_iff.mpr h

def Event.Apart (e : Event) : Prop := e.reserved? = none ∧ e.ended? = none

theorem apart_of_resource (e : Event) (h : e.OfResource) : e.Apart := by
  cases e <;> first | exact ⟨rfl, rfl⟩ | exact h.elim

theorem apart_of_shell (e : Event) (h : e.OfShell name) : e.Apart := by
  cases e <;> first | exact ⟨rfl, rfl⟩ | exact h.elim

theorem reserve_reserves (api : Api) (conf : SandboxConfig) (duration : Nat) (s : σ) :
    Triple (SandboxHandler.reserve api conf duration) s fun r _ evs =>
      ended evs = [] ∧ ∀ rid, r = .ok rid → rid ∈ reserved evs := by
  unfold SandboxHandler.reserve
  split <;>
  · refine .call' fun r => ⟨rfl, ?_⟩
    rintro rid rfl
    simp [reserved, Event.reserved?]

/-- A creation ends no other reservation than its own. -/
theorem create_ends_own (api : Api) (conf : SandboxConfig) (duration : Nat) (s : σ) :
    Triple (SandboxHandler.create api conf duration) s fun r _ evs =>
      (∀ rid ∈ ended evs, rid ∈ reserved evs) ∧
        ∀ h, r = .ok h → h.reservationId ∈ reserved evs := by
  refine .bind (reserve_reserves api conf duration s) ?_ fun e _ evs hevs =>
    ⟨by simp [hevs.1], nofun⟩
  intro rid s evs ⟨hnone, hreserved⟩
  have hrid : rid ∈ reserved evs := hreserved rid rfl
  have hwait : Emits Event.Apart (CloudShellHandler.waitReservationIsStarted (σ := σ) api rid) :=
    waitStartedLoop_emits api rid (fun _ => ⟨rfl, rfl⟩) (fun _ => ⟨rfl, rfl⟩) 60
  refine .bind (Q := fun _ _ evs' => ∀ rid' ∈ ended evs', rid' = rid)
    (.tryCatch' (hwait.events s) ?_ ?_) ?_ ?_
  · intro _ _ evs' hevs'
    simp [ended_of_none fun e he => (hevs' e he).2]
  · intro e s' evs' hevs'
    have hbefore : ended evs' = [] := ended_of_none fun e he => (hevs' e he).2
    refine .bind (endReservation_ends api ⟨conf, rid⟩ s') ?_ ?_
    · rintro _ _ evs'' ⟨-, -, hend⟩
      exact .throw' (by simp [hbefore, hend])
    · rintro _ _ evs'' ⟨-, -, hend⟩
      simp [hbefore, hend]
  · intro _ _ evs' hevs'
    refine .pure' ⟨fun rid' hrid' => ?_, ?_⟩
    · obtain rfl := hevs' rid' (by simpa [hnone] using hrid')
      simp [hrid]
    · rintro h ⟨⟩
      simp [hrid]
  · intro e _ evs' hevs'
    refine ⟨fun rid' hrid' => ?_, nofun⟩
    obtain rfl := hevs' rid' (by simpa [hnone] using hrid')
    simp [hrid]

theorem Held.finish_reserves (api : Api) (hasSmb : Bool) (h : Held) :
    Emits (fun e => e.reserved? = none) (h.finish api hasSmb : Cs σ Unit) := by
  cases h with
  | sandbox h => exact endReservation_emits api h.reservationId true (fun _ => rfl) fun _ => rfl
  | resource h => exact .call' fun _ => rfl
  | shell h => exact (h.finish_emits api hasSmb).mono fun e he => (apart_of_shell e he).1

namespace StorageThreads

/-- What a task has reserved it has ended, or its handler has it. -/
structure JobReserves (job : Job) (r : Except Exn Held) (evs : List Event) : Prop where
  ended : ∀ rid ∈ ended evs, rid ∈ reserved evs
  made : ∀ h, r = .ok (.sandbox h) → job.sec = .sandboxes ∧ h.reservationId ∈ reserved evs
  accounted : ∀ rid ∈ reserved evs, rid ∈ ShellTests.ended evs ∨
    ∃ h, r = .ok (.sandbox h) ∧ h.reservationId = rid

theorem jobReserves_of_apart {job : Job} (h : ∀ e ∈ evs, Event.Apart e)
    (hr : ∀ h, r ≠ .ok (.sandbox h)) : JobReserves job r evs := by
  have hended : ended evs = [] := ended_of_none fun e he => (h e he).2
  have hreserved : reserved evs = [] := reserved_of_none fun e he => (h e he).1
  exact ⟨by simp [hended], fun h hh => absurd hh (hr h), by simp [hreserved]⟩

theorem run_reserves {job : Job} (hrun : job.run hasSmb api = (r, evs)) :
    JobReserves job r evs := by
  cases job with
  | sandbox c =>
    obtain ⟨r', u, evs', hm, ⟨-, hok, herror⟩, hended, hmade⟩ :=
      (create_balanced api c 120 ()).and (create_ends_own api c 120 ()) []
    simp only [Job.run, outcomeOf, hm, Prod.mk.injEq] at hrun
    obtain ⟨rfl, rfl⟩ := hrun
    rw [List.nil_append]
    cases r' with
    | ok h =>
      refine ⟨hended, ?_, fun rid hrid => ?_⟩
      · rintro h' ⟨⟩
        exact ⟨rfl, hmade h rfl⟩
      · refine ((hok h rfl).accounted hrid).imp_right fun hheld => ?_
        exact ⟨h, rfl, (List.mem_singleton.mp hheld).symm⟩
    | error e =>
      refine ⟨hended, nofun, fun rid hrid => ?_⟩
      exact .inl (((herror e rfl).accounted hrid).resolve_right List.not_mem_nil)
  | resource c shellHandler =>
    obtain ⟨r', u, evs', hm, -, hevs⟩ := ResourceHandler.create_spec api c shellHandler () []
    simp only [Job.run, outcomeOf, hm, Prod.mk.injEq] at hrun
    obtain ⟨rfl, rfl⟩ := hrun
    refine jobReserves_of_apart (fun e he => apart_of_resource e (hevs e (by simpa using he))) ?_
    intro h
    cases r' <;> simp [Except.map]
  | shell c =>
    obtain ⟨r', u, evs', hm, -, hevs⟩ := ShellHandler.create_spec api hasSmb c () []
    simp only [Job.run, outcomeOf, hm, Prod.mk.injEq] at hrun
    obtain ⟨rfl, rfl⟩ := hrun
    refine jobReserves_of_apart (fun e he => ?_) ?_
    · obtain ⟨name, -, hshell⟩ := hevs e (by simpa using he)
      exact apart_of_shell e hshell
    · intro h
      cases r' <;> simp [Except.map]

-- ---------------------------------------------------------------------------
-- Who has a reservation
-- ---------------------------------------------------------------------------

def State.calls (s : State) : List Event := s.log.map (·.2)

theorem calls_record (s : State) (k : Option Nat) (evs : List Event) :
    (s.record k evs).calls = s.calls ++ evs := by
  simp [State.calls, State.record]

/-- The storage ends nothing but its own reservations, and one that it has not
ended is held by the handler of a future. -/
structure Reservations (s : State) : Prop where
  own : ∀ rid ∈ ended s.calls, rid ∈ reserved s.calls
  made : ∀ k f h, s.futures k = some f → f.outcome = some (.ok (.sandbox h)) →
    f.job.sec = .sandboxes ∧ h.reservationId ∈ reserved s.calls
  listed : ∀ p, ∀ e ∈ s.lists p, ∃ f, s.futures e.future = some f ∧
    f.outcome = some (.ok e.handler)
  accounted : ∀ rid ∈ reserved s.calls, rid ∈ ended s.calls ∨
    ∃ k f h, s.futures k = some f ∧ f.outcome = some (.ok (.sandbox h)) ∧ h.reservationId = rid

variable {conf : MainConfig} {s s' : State} {act : Act}

theorem Reservations.put (h : Reservations s) : Reservations (s.put a sec? pc) :=
  ⟨h.own, h.made, h.listed, h.accounted⟩

theorem Reservations.submit (h : Reservations s) (hk : s.futures k = none) :
    Reservations (s.submit k job i) := by
  have hsame (j : Nat) (f : Future) (hf : s.futures j = some f) :
      (s.submit k job i).futures j = some f := update_keeps hf (by simp [hk])
  refine ⟨h.own, fun j f sandbox hj hok => ?_, fun p e he => ?_, fun rid hrid => ?_⟩
  · rcases update_eq_some hj with ⟨-, rfl⟩ | ⟨-, hj⟩
    · cases hok
    · exact h.made j f sandbox hj hok
  · obtain ⟨f, hf, hok⟩ := h.listed p e he
    exact ⟨f, hsame _ f hf, hok⟩
  · refine (h.accounted rid hrid).imp_right ?_
    rintro ⟨j, f, sandbox, hf, hok⟩
    exact ⟨j, f, sandbox, hsame j f hf, hok⟩

theorem Reservations.append (h : Reservations s) (hk : s.futures entry.future = some f)
    (hok : f.outcome = some (.ok entry.handler)) : Reservations (s.append sec version entry) := by
  refine ⟨h.own, h.made, fun p e he => ?_, h.accounted⟩
  rcases mem_append_lists he with ⟨-, rfl⟩ | he
  · exact ⟨f, hk, hok⟩
  · exact h.listed p e he

theorem Reservations.record (h : Reservations s) (hreserved : reserved evs = [])
    (hended : ∀ rid ∈ ended evs, rid ∈ reserved s.calls) : Reservations (s.record k evs) := by
  have hsame : reserved (s.record k evs).calls = reserved s.calls := by
    rw [calls_record, reserved_append, hreserved, List.append_nil]
  have hmore (rid : ReservationId) :
      rid ∈ ended (s.record k evs).calls ↔ rid ∈ ended s.calls ∨ rid ∈ ended evs := by
    rw [calls_record, ended_append, List.mem_append]
  refine ⟨fun rid hrid => ?_, ?_, h.listed, fun rid hrid => ?_⟩
  · rw [hsame]
    exact ((hmore rid).mp hrid).elim (h.own rid) (hended rid)
  · rw [hsame]
    exact h.made
  · rw [hsame] at hrid
    exact (h.accounted rid hrid).imp_left fun hold => (hmore rid).mpr (.inl hold)

theorem Reservations.complete (h : Reservations s) (hk : s.futures k = some ⟨job, i, none⟩)
    (hrun : job.run conf.hasCsSmb api = (r, evs)) :
    Reservations
      ({ s with futures := Function.update s.futures k (some ⟨job, i, some r⟩) }.record k evs) := by
  have hjob := run_reserves hrun
  have hsame (j : Nat) (f : Future) (o : Except Exn Held) (hf : s.futures j = some f)
      (ho : f.outcome = some o) :
      Function.update s.futures k (some ⟨job, i, some r⟩) j = some f := by
    refine update_keeps hf ?_
    rw [hk]
    rintro ⟨⟩
    cases ho
  refine ⟨fun rid hrid => ?_, fun j f sandbox hj hok => ?_, fun p e he => ?_, fun rid hrid => ?_⟩
  · rw [calls_record, ended_append, List.mem_append] at hrid
    rw [calls_record, reserved_append, List.mem_append]
    exact hrid.imp (h.own rid) (hjob.ended rid)
  · rw [calls_record, reserved_append, List.mem_append]
    rcases update_eq_some hj with ⟨-, rfl⟩ | ⟨-, hj⟩
    · obtain ⟨hsec, hrid⟩ := hjob.made sandbox (Option.some.inj hok)
      exact ⟨hsec, .inr hrid⟩
    · obtain ⟨hsec, hrid⟩ := h.made j f sandbox hj hok
      exact ⟨hsec, .inl hrid⟩
  · obtain ⟨f, hf, hok⟩ := h.listed p e he
    exact ⟨f, hsame _ f _ hf hok, hok⟩
  · rw [calls_record, reserved_append, List.mem_append] at hrid
    rw [calls_record, ended_append, List.mem_append]
    rcases hrid with hrid | hrid
    · refine (h.accounted rid hrid).imp .inl ?_
      rintro ⟨j, f, sandbox, hf, hok, hid⟩
      exact ⟨j, f, sandbox, hsame j f _ hf hok, hok, hid⟩
    · refine (hjob.accounted rid hrid).imp .inr ?_
      rintro ⟨sandbox, rfl, hid⟩
      exact ⟨k, ⟨job, i, _⟩, sandbox, by simp [State.record], rfl, hid⟩

theorem release_run (h : release conf s a api = some s') :
    (∃ sec? e sec version pos entry r evs,
      s.activity a = some ⟨sec?, .finish e (.at sec version pos)⟩ ∧
      (s.lists (sec, version))[pos]? = some entry ∧
      (entry.handler.finish api conf.hasCsSmb : Cs Unit Unit) () [] = (r, (), evs) ∧
      s' = (s.record entry.future evs).put a sec? (match r with
        | .ok () => .finish e (.at sec version (pos + 1))
        | .error e' => .raised e')) ∨
    ∃ sec? e pc r, s.activity a = some ⟨sec?, .finish e .vcenter⟩ ∧
      (pc = .finished e ∨ ∃ e', pc = .raised e') ∧
      s' = (s.record none [.disconnectVcenter r]).put a sec? pc := by
  unfold release at h
  split at h
  · rename_i sec? e sec version pos ha
    split at h
    · rename_i entry hentry
      rcases hrun : (entry.handler.finish api conf.hasCsSmb : Cs Unit Unit) () [] with ⟨r, u, evs⟩
      rw [hrun] at h
      refine .inl ⟨sec?, e, sec, version, pos, entry, r, evs, ha, hentry, hrun, ?_⟩
      cases r <;> cases h <;> rfl
    · cases h
  · rename_i sec? e ha
    split at h
    · split at h <;> cases h
      · exact .inr ⟨sec?, e, _, _, ha, .inl rfl, rfl⟩
      · exact .inr ⟨sec?, e, _, _, ha, .inr ⟨_, rfl⟩, rfl⟩
    · cases h
  · cases h

theorem finish_calls {h : Held} (hrun : (h.finish api hasSmb : Cs Unit Unit) () [] = (r, (), evs)) :
    reserved evs = [] ∧ releases evs = [h.release] := by
  obtain ⟨r', _, evs', hm, -, hnone⟩ := h.finish_reserves api hasSmb () []
  obtain ⟨r'', _, evs'', hm', -, hreleases⟩ := h.finish_releases api hasSmb () []
  rw [hrun] at hm hm'
  cases hm
  cases hm'
  exact ⟨reserved_of_none hnone, hreleases⟩

theorem reservations_release (h : Reservations s) (hs : release conf s a api = some s') :
    Reservations s' := by
  rcases release_run hs with ⟨sec?, e, sec, version, pos, entry, r, evs, -, hentry, hrun, rfl⟩ |
    ⟨sec?, e, pc, r, -, -, rfl⟩
  · obtain ⟨hreserved, hreleases⟩ := finish_calls hrun
    refine (h.record hreserved fun rid hrid => ?_).put
    -- what is ended is a sandbox, whose creation made the reservation
    rw [mem_ended_iff, hreleases, List.mem_singleton] at hrid
    obtain ⟨f, hf, hok⟩ := h.listed _ entry (List.mem_of_getElem? hentry)
    cases hhandler : entry.handler with
    | sandbox sandbox =>
      rw [hhandler] at hrid hok
      obtain rfl : rid = sandbox.reservationId := by simpa [Held.release] using hrid
      exact (h.made _ f sandbox hf hok).2
    | resource | shell =>
      rw [hhandler] at hrid
      cases hrid
  · exact (h.record (by simp [reserved, Event.reserved?]) (by simp [ended, Event.ended?])).put

theorem reservations_moves (h : Reservations s) (hm : Moves conf s act s')
    (hrelease : ∀ a api, act ≠ .release a api) : Reservations s' := by
  cases hm with
  | submit ha hjob hk => exact (h.submit hk).put
  | found ha hb hc hshell hk => exact (h.submit hk).put
  | collectOk ha hmem hk => exact (h.append hk rfl).put
  | fork => exact h.put.put
  | @publish a sec k =>
    have hpublish : Reservations (s.publish sec) := ⟨h.own, h.made, h.listed, h.accounted⟩
    exact hpublish.put
  | release | disconnect => exact (hrelease _ _ rfl).elim
  | complete hk hrun => exact h.complete hk hrun
  | _ => exact h.put

theorem reservations_step (h : Reservations s) (hs : step conf s act = some s') :
    Reservations s' := by
  cases act with
  | release a api => exact reservations_release h hs
  | _ => exact reservations_moves h (step_moves hs) nofun

theorem reservations_init (h : init s) : Reservations s := by
  obtain ⟨hasVcenter, rfl⟩ := h
  constructor <;> simp [State.calls, reserved, ended]

end StorageThreads

end ShellTests
