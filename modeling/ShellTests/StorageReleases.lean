import Mathlib.Data.List.Nodup
import ShellTests.StorageThreads

/-!
# What a storage releases, handler by handler

Each future belongs to one read or to one list, so a handler is in one place
only. Until some `finish` comes to a handler, the only releases are those of
creations that failed.
-/

namespace ShellTests.StorageThreads

open Machine

variable {conf : MainConfig} {s s' : State} {act : Act}

/-- The releases of the handler that the future `k` makes, in order. -/
def releasesOf (k : Nat) (log : List (Option Nat × Event)) : List Release :=
  releases ((log.filter (·.1 = some k)).map (·.2))

theorem releasesOf_record (k : Nat) (k' : Option Nat) (evs : List Event) :
    releasesOf k (s.record k' evs).log =
      releasesOf k s.log ++ if k' = some k then releases evs else [] := by
  have hevs : ((evs.map (k', ·)).filter (·.1 = some k)).map (·.2) =
      if k' = some k then evs else [] := by
    induction evs with
    | nil => simp
    | cons e evs ih =>
      simp only [List.map_cons, List.filter_cons]
      by_cases hk : k' = some k <;> simp_all
  simp only [releasesOf, State.record, List.filter_append, List.map_append, releases_append, hevs]
  split <;> rfl

/-- A creation that succeeds releases nothing, one that fails at most once. -/
theorem run_releases {job : Job} (hrun : job.run hasSmb api = (r, evs)) :
    (releases evs).length ≤ 1 ∧ ((∀ e, r ≠ .error e) → releases evs = []) := by
  cases job with
  | sandbox c =>
    obtain ⟨r', u, evs', hm, hok, hone⟩ := SandboxHandler.create_releases api c 120 () []
    simp only [Job.run, outcomeOf, hm, Prod.mk.injEq] at hrun
    obtain ⟨rfl, rfl⟩ := hrun
    refine ⟨by simpa using hone, fun hne => ?_⟩
    cases r' with
    | ok h => simpa using (hok h rfl).2
    | error e => exact (hne e rfl).elim
  | resource c shellHandler =>
    obtain ⟨r', u, evs', hm, -, hevs⟩ := ResourceHandler.create_spec api c shellHandler () []
    simp only [Job.run, outcomeOf, hm, Prod.mk.injEq] at hrun
    obtain ⟨rfl, rfl⟩ := hrun
    have hnone : releases evs' = [] := by
      refine releases_of_emits fun e he => ?_
      have hresource := hevs e he
      cases e <;> first | rfl | exact hresource.elim
    simp [hnone]
  | shell c =>
    obtain ⟨r', u, evs', hm, hok, hone⟩ := ShellHandler.create_releases api hasSmb c () []
    simp only [Job.run, outcomeOf, hm, Prod.mk.injEq] at hrun
    obtain ⟨rfl, rfl⟩ := hrun
    refine ⟨by simpa using hone, fun hne => ?_⟩
    cases r' with
    | ok h => simpa using (hok h rfl).2
    | error e => exact (hne e rfl).elim

-- ---------------------------------------------------------------------------
-- Who has a future
-- ---------------------------------------------------------------------------

abbrev Owner := Nat ⊕ (Sec × Nat)

/-- Every future that a read still has to collect, or whose handler is in a
list, is there only and there once. -/
structure Owned (s : State) (owner : Nat → Option Owner) : Prop where
  fresh : ∀ k, s.futures k = none → owner k = none
  reads : ∀ a act, s.activity a = some act →
    act.pc.futures.Nodup ∧ ∀ k ∈ act.pc.futures, owner k = some (.inl a)
  lists : ∀ p, ((s.lists p).map Entry.future).Nodup ∧
    ∀ e ∈ s.lists p, owner e.future = some (.inr p)

variable {owner : Nat → Option Owner}

theorem owned_put (h : Owned s owner)
    (hpc : pc.futures.Nodup ∧ ∀ k ∈ pc.futures, owner k = some (.inl a)) :
    Owned (s.put a sec? pc) owner := by
  refine ⟨h.fresh, fun b act hb => ?_, h.lists⟩
  rcases update_eq_some hb with ⟨rfl, rfl⟩ | ⟨-, hb⟩
  · exact hpc
  · exact h.reads b act hb

theorem owned_idle (h : Owned s owner) (hpc : pc.futures = []) : Owned (s.put a sec? pc) owner :=
  owned_put h (by simp [hpc])

theorem owned_submit (h : Owned s owner) (ha : s.activity a = some ⟨sec?, pc⟩)
    (hk : s.futures k = none)
    (hpc : pc' = .submit i (pc.futures ++ [k])) :
    Owned ((s.submit k job index).put a sec? pc') (Function.update owner k (some (.inl a))) := by
  obtain ⟨hnodup, hmine⟩ := h.reads a _ ha
  have hother (j : Nat) (o : Owner) (hj : owner j = some o) :
      Function.update owner k (some (.inl a)) j = some o :=
    update_keeps hj (by simp [h.fresh k hk])
  have hnew : k ∉ pc.futures := by
    intro hmem
    have howned := hmine k hmem
    simp [h.fresh k hk] at howned
  refine ⟨fun j hj => ?_, fun b act hb => ?_, fun p => ?_⟩
  · by_cases hjk : j = k
    · simp [hjk, State.put, State.submit] at hj
    · simp only [State.put, State.submit, Function.update_of_ne hjk] at hj ⊢
      exact h.fresh j hj
  · rcases update_eq_some hb with ⟨rfl, rfl⟩ | ⟨-, hb⟩
    · subst hpc
      refine ⟨?_, fun j hj => ?_⟩
      · exact List.nodup_append.mpr
          ⟨hnodup, by simp, by simpa using fun j hj => ne_of_mem_of_not_mem hj hnew⟩
      · rcases List.mem_append.mp hj with hj | hj
        · exact hother j _ (hmine j hj)
        · simp [List.mem_singleton.mp hj]
    · obtain ⟨hnodup', hreads⟩ := h.reads b act hb
      exact ⟨hnodup', fun j hj => hother j _ (hreads j hj)⟩
  · obtain ⟨hnodup', hlists⟩ := h.lists p
    exact ⟨hnodup', fun e he => hother _ _ (hlists e he)⟩

theorem owned_collect (h : Owned s owner)
    (ha : s.activity a = some ⟨sec?, .collect futures exception⟩)
    (hmem : k ∈ futures) (hk : s.futures k = some future) :
    Owned ((s.append sec version ⟨k, index, handler⟩).put a sec?
      (.collect (futures.erase k) exception))
      (Function.update owner k (some (.inr (sec, version)))) := by
  obtain ⟨hnodup, hmine⟩ := h.reads a _ ha
  have howner : owner k = some (.inl a) := hmine k hmem
  have hother (j : Nat) (hjk : j ≠ k) (o : Owner) (hj : owner j = some o) :
      Function.update owner k (some (.inr (sec, version))) j = some o := by
    rw [Function.update_of_ne hjk, hj]
  -- the handler was in no list yet
  have hnew (p : Sec × Nat) (e : Entry) (he : e ∈ s.lists p) : e.future ≠ k := by
    intro heq
    have hlist := (h.lists p).2 e he
    rw [heq, howner] at hlist
    simp at hlist
  refine ⟨fun j hj => ?_, fun b act hb => ?_, fun p => ?_⟩
  · have hjk : j ≠ k := by
      rintro rfl
      simp [State.put, State.append, hk] at hj
    rw [Function.update_of_ne hjk]
    exact h.fresh j hj
  · rcases update_eq_some hb with ⟨rfl, rfl⟩ | ⟨hba, hb⟩
    · refine ⟨hnodup.erase k, fun j hj => ?_⟩
      have hjk : j ≠ k := by
        rintro rfl
        exact hnodup.not_mem_erase hj
      exact hother j hjk _ (hmine j (List.mem_of_mem_erase hj))
    · obtain ⟨hnodup', hreads⟩ := h.reads b act hb
      refine ⟨hnodup', fun j hj => ?_⟩
      have hjk : j ≠ k := by
        rintro rfl
        have hb' := hreads j hj
        rw [howner] at hb'
        exact hba (by simpa using hb'.symm)
      exact hother j hjk _ (hreads j hj)
  · obtain ⟨hnodup', hlists⟩ := h.lists p
    by_cases hp : p = (sec, version)
    · subst hp
      simp only [State.put, State.append, Function.update_self]
      refine ⟨?_, fun e he => ?_⟩
      · rw [List.map_append]
        refine List.nodup_append.mpr ⟨hnodup', by simp, ?_⟩
        simpa using fun e he => hnew _ e he
      · rcases List.mem_append.mp he with he | he
        · exact hother _ (hnew _ e he) _ (hlists e he)
        · simp [List.mem_singleton.mp he]
    · simp only [State.put, State.append, Function.update_of_ne hp]
      exact ⟨hnodup', fun e he => hother _ (hnew p e he) _ (hlists e he)⟩

theorem owned_moves (h : Owned s owner) (hm : Moves conf s act s') : ∃ owner, Owned s' owner := by
  cases hm with
  | submit ha hjob hk => exact ⟨_, owned_submit h ha hk rfl⟩
  | found ha hb hc hshell hk => exact ⟨_, owned_submit h ha hk rfl⟩
  | collectOk ha hmem hk hmemo => exact ⟨_, owned_collect h ha hmem hk⟩
  | @fork a i futures b ha hi hb =>
    have hfork : Owned (s.put b (some .shells) .check) owner := owned_idle h rfl
    exact ⟨owner, owned_put hfork (h.reads a _ ha)⟩
  | submitted ha => exact ⟨owner, owned_put h (h.reads _ _ ha)⟩
  | abort ha => exact ⟨owner, owned_put h (h.reads _ _ ha)⟩
  | collectError ha =>
    obtain ⟨hnodup, hmine⟩ := h.reads _ _ ha
    exact ⟨owner, owned_put h ⟨hnodup.erase _, fun k hk => hmine k (List.mem_of_mem_erase hk)⟩⟩
  | publish => exact ⟨owner, owned_idle (s := s.publish _) ⟨h.fresh, h.reads, h.lists⟩ rfl⟩
  | finished =>
    refine ⟨owner, owned_idle h ?_⟩
    unfold Pc.finished
    split <;> rfl
  | @release a sec? e sec version pos entry evs pc api ha hentry hevs hpc =>
    refine ⟨owner, owned_idle (s := s.record _ _) ⟨h.fresh, h.reads, h.lists⟩ ?_⟩
    rcases hpc with rfl | ⟨e', rfl⟩ <;> rfl
  | @disconnect a sec? e pc r api ha hpc =>
    refine ⟨owner, owned_idle (s := s.record _ _) ⟨h.fresh, h.reads, h.lists⟩ ?_⟩
    rcases hpc with rfl | ⟨e', rfl⟩
    · cases e <;> rfl
    · rfl
  | @complete k job index api r evs hk hrun =>
    refine ⟨owner, fun j hj => ?_, h.reads, h.lists⟩
    by_cases hjk : j = k
    · simp [hjk, State.record] at hj
    · simp only [State.record, Function.update_of_ne hjk] at hj
      exact h.fresh j hj
  | _ => exact ⟨owner, owned_idle h rfl⟩

-- ---------------------------------------------------------------------------
-- Before any handler is finished
-- ---------------------------------------------------------------------------

/-- Only creations that failed have released something, and the handlers in the
lists come from creations that did not fail. -/
structure Quiet (s : State) : Prop where
  once : ∀ k, (releasesOf k s.log).length ≤ 1
  kept : ∀ k, (∀ future e, s.futures k = some future → future.outcome ≠ some (.error e)) →
    releasesOf k s.log = []
  entries : ∀ p, ∀ e ∈ s.lists p, ∃ future h, s.futures e.future = some future ∧
    future.outcome = some (.ok h)

theorem quiet_put (h : Quiet s) : Quiet (s.put a sec? pc) := ⟨h.once, h.kept, h.entries⟩

theorem quiet_entry (h : Quiet s) (he : e ∈ s.lists p) : releasesOf e.future s.log = [] := by
  obtain ⟨future, handler, hfuture, hok⟩ := h.entries p e he
  refine h.kept _ fun future' e' hfuture' => ?_
  obtain rfl := Option.some.inj (hfuture.symm.trans hfuture')
  simp [hok]

theorem quiet_submit (h : Quiet s) (hk : s.futures k = none) : Quiet (s.submit k job i) := by
  refine ⟨h.once, fun j hj => ?_, fun p e he => ?_⟩
  · refine h.kept j fun future e hfuture => ?_
    exact hj future e (update_keeps hfuture (by simp [hk]))
  · obtain ⟨future, handler, hfuture, hok⟩ := h.entries p e he
    exact ⟨future, handler, update_keeps hfuture (by simp [hk]), hok⟩

theorem quiet_append (h : Quiet s) (hk : s.futures entry.future = some future)
    (hok : future.outcome = some (.ok handler)) : Quiet (s.append sec version entry) := by
  refine ⟨h.once, h.kept, fun p e he => ?_⟩
  rcases mem_append_lists he with ⟨-, rfl⟩ | he
  · exact ⟨future, handler, hk, hok⟩
  · exact h.entries p e he

theorem quiet_complete (h : Quiet s) (hk : s.futures k = some ⟨job, index, none⟩)
    (hrun : job.run conf.hasCsSmb api = (r, evs)) :
    Quiet ({ s with futures := Function.update s.futures k (some ⟨job, index, some r⟩) }.record
      k evs) := by
  obtain ⟨hone, hnone⟩ := run_releases hrun
  have hbefore : releasesOf k s.log = [] := by
    refine h.kept k fun future e hfuture => ?_
    obtain rfl := Option.some.inj (hk.symm.trans hfuture)
    simp
  refine ⟨fun j => ?_, fun j hj => ?_, fun p e he => ?_⟩
  · rw [releasesOf_record]
    by_cases hjk : k = j
    · subst hjk
      simpa [hbefore] using hone
    · simpa [hjk] using h.once j
  · rw [releasesOf_record]
    by_cases hjk : j = k
    · subst hjk
      have hr : ∀ e, r ≠ .error e := by
        rintro e rfl
        exact hj ⟨job, index, _⟩ e (by simp [State.record]) rfl
      simp [hbefore, hnone hr]
    · rw [if_neg (by simpa using Ne.symm hjk), List.append_nil]
      refine h.kept j fun future e hfuture => ?_
      exact hj future e (by simpa [State.record, Function.update_of_ne hjk] using hfuture)
  · obtain ⟨future, handler, hfuture, hok⟩ := h.entries p e he
    have hother : s.futures k ≠ some future := by
      rw [hk]
      rintro ⟨⟩
      cases hok
    exact ⟨future, handler, update_keeps hfuture hother, hok⟩

theorem quiet_moves (h : Quiet s) (hm : Moves conf s act s')
    (hfinish : ∀ a api sec? e sec version pos, act = .release a api →
      s.activity a = some ⟨sec?, .finish e (.at sec version pos)⟩ → s.lists (sec, version) = []) :
    Quiet s' := by
  cases hm with
  | submit ha hjob hk => exact quiet_put (quiet_submit h hk)
  | found ha hb hc hshell hk => exact quiet_put (quiet_submit h hk)
  | collectOk ha hmem hk hmemo => exact quiet_put (quiet_append h hk rfl)
  | fork => exact quiet_put (quiet_put h)
  | publish => exact quiet_put (s := s.publish _) ⟨h.once, h.kept, h.entries⟩
  | release ha hentry =>
    rw [hfinish _ _ _ _ _ _ _ rfl ha] at hentry
    simp at hentry
  | @disconnect a sec? e pc r api ha hpc =>
    refine quiet_put (s := s.record _ _) ⟨fun k => ?_, fun k hk => ?_, h.entries⟩
    · simpa [releasesOf_record] using h.once k
    · simpa [releasesOf_record] using h.kept k hk
  | complete hk hrun => exact quiet_complete h hk hrun
  | _ => exact quiet_put h

-- ---------------------------------------------------------------------------
-- One finish
-- ---------------------------------------------------------------------------

def State.listed (s : State) (sec : Sec) : List Nat :=
  (s.memo sec).elim [] fun version => (s.lists (sec, version)).map Entry.future

def Sec.from : Sec → List Sec
  | .sandboxes => [.sandboxes, .resources, .shells]
  | .resources => [.resources, .shells]
  | .shells => [.shells]

/-- What a loop of `finish` has still to come to. -/
def State.ahead (s : State) : Loop → List Nat
  | .enter sec => sec.from.flatMap s.listed
  | .at sec version pos =>
    ((s.lists (sec, version)).drop pos).map Entry.future ++ sec.from.tail.flatMap s.listed
  | .vcenter => []

theorem ahead_after (s : State) (sec : Sec) :
    s.ahead (.after sec) = sec.from.tail.flatMap s.listed := by
  cases sec <;> rfl

theorem from_cons (sec : Sec) : sec.from = sec :: sec.from.tail := by
  cases sec <;> rfl

/-- No handler was released twice, and those ahead of a loop not at all. -/
structure Ahead (s : State) (loop : Loop) : Prop where
  once : ∀ k, (releasesOf k s.log).length ≤ 1
  nodup : (s.ahead loop).Nodup
  kept : ∀ k ∈ s.ahead loop, releasesOf k s.log = []

theorem ahead_put (h : Ahead s loop) (hsub : s.ahead loop' <:+ s.ahead loop) :
    Ahead (s.put a sec? pc) loop' :=
  ⟨h.once, h.nodup.sublist hsub.sublist, fun k hk => h.kept k (hsub.subset hk)⟩

theorem exists_of_mem_listed (h : k ∈ s.listed sec) :
    ∃ version, ∃ e ∈ s.lists (sec, version), e.future = k := by
  unfold State.listed at h
  cases hmemo : s.memo sec with
  | none => simp [hmemo] at h
  | some version =>
    rw [hmemo] at h
    exact ⟨version, List.mem_map.mp h⟩

theorem listed_nodup (h : Owned s owner) (secs : List Sec) (hsecs : secs.Nodup) :
    (secs.flatMap s.listed).Nodup := by
  have howner (sec : Sec) (k : Nat) (hk : k ∈ s.listed sec) :
      ∃ version, owner k = some (.inr (sec, version)) := by
    obtain ⟨version, e, he, rfl⟩ := exists_of_mem_listed hk
    exact ⟨version, (h.lists _).2 e he⟩
  refine List.nodup_flatMap.mpr ⟨fun sec _ => ?_, hsecs.imp fun {sec sec'} hne => ?_⟩
  · unfold State.listed
    rcases hmemo : s.memo sec with _ | version
    · simp
    · simpa [hmemo] using (h.lists (sec, version)).1
  · intro k hk hk'
    obtain ⟨version, ho⟩ := howner sec k hk
    obtain ⟨version', ho'⟩ := howner sec' k hk'
    rw [ho] at ho'
    simp only [Option.some.injEq, Sum.inr.injEq, Prod.mk.injEq] at ho'
    exact hne ho'.1

theorem ahead_start (howned : Owned s owner) (h : Quiet s) : Ahead s (.enter .sandboxes) := by
  refine ⟨h.once, listed_nodup howned _ (by decide), fun k hk => ?_⟩
  obtain ⟨sec, -, hk⟩ := List.mem_flatMap.mp hk
  obtain ⟨version, e, he, rfl⟩ := exists_of_mem_listed hk
  exact quiet_entry h he

theorem ahead_enter (hmemo : s.memo sec = some version) :
    s.ahead (.at sec version 0) = s.ahead (.enter sec) := by
  simp only [State.ahead, List.drop_zero]
  rw [from_cons sec]
  simp [State.listed, hmemo]

theorem ahead_suffix (s : State) (sec : Sec) : s.ahead (.after sec) <:+ s.ahead (.enter sec) := by
  rw [ahead_after]
  simp only [State.ahead]
  rw [from_cons sec]
  exact List.suffix_append ..

theorem ahead_release (h : Ahead s (.at sec version pos))
    (hentry : (s.lists (sec, version))[pos]? = some entry)
    (hevs : releases evs = [r]) :
    Ahead (s.record entry.future evs) (.at sec version (pos + 1)) := by
  obtain ⟨hpos, hentry⟩ := List.getElem?_eq_some_iff.mp hentry
  have hahead : s.ahead (.at sec version pos) =
      entry.future :: s.ahead (.at sec version (pos + 1)) := by
    simp only [State.ahead]
    rw [List.drop_eq_getElem_cons hpos, hentry]
    rfl
  obtain ⟨honce, hnodup, hkept⟩ := h
  rw [hahead] at hnodup hkept
  obtain ⟨hnot, hnodup⟩ := List.nodup_cons.mp hnodup
  refine ⟨fun k => ?_, hnodup, fun k hk => ?_⟩
  · rw [releasesOf_record]
    by_cases hk : entry.future = k
    · subst hk
      simp [hkept _ List.mem_cons_self, hevs]
    · simpa [hk] using honce k
  · have hne : entry.future ≠ k := by
      rintro rfl
      exact hnot hk
    rw [releasesOf_record, if_neg (by simpa using hne), List.append_nil]
    exact hkept k (List.mem_cons_of_mem _ hk)

end ShellTests.StorageThreads
