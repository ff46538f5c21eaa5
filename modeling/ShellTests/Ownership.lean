import ShellTests.Finish

/-!
# What a storage may delete

A storage is read in any order and then finished. It deletes only resources
whose names it claimed itself, which a taken name counts as, and a shell only
after it has put it in, save where the preparation of the shell fails: the
clean-up of that deletes the shell whoever installed it.
-/

namespace ShellTests

open Prog

-- ---------------------------------------------------------------------------
-- What the reads of a property keep
-- ---------------------------------------------------------------------------

namespace HandlerStorage

section
variable {κ ρ η : Type} {p : Section κ ρ η} {I : HandlerStorage → List Event → Prop}
  {T : κ → Except Exn η → List Event → Prop} {G : η → List Event → Prop}

theorem Section.submit_keeps
    (hlookup : ∀ conf, Hoare I (p.lookup conf) fun _ => I)
    (hgrow : ∀ h log evs, G h log → G h (log ++ evs)) (api : Nat → Api) (i : Nat) (confs : List κ)
    (htask : ∀ k conf, confs[k]? = some conf → ∀ st needed log r u evs, I st log →
      p.create (api (i + k)) st conf needed () [] = (r, u, evs) →
      I st (log ++ evs) ∧ ∀ h, r = .ok h → G h (log ++ evs)) :
    Hoare I (p.submit api i confs) fun r st log =>
      I st log ∧ ∀ futures, r = .ok futures → ∀ h, .ok h ∈ futures → G h log := by
  induction confs generalizing i with
  | nil =>
    refine .pure' fun st log hi => ⟨hi, ?_⟩
    rintro futures ⟨⟩ h hh
    simp at hh
  | cons conf confs ih =>
    refine .bind (hlookup conf) (fun needed => ?_) fun e st log hi => ⟨hi, by simp⟩
    refine .bind (Q := fun r st log => r = .ok st ∧ I st log)
      (.get' fun st log hi => ⟨rfl, hi⟩) (fun st => ?_) fun e st log hi => ⟨hi.2, by simp⟩
    have hspawn : Hoare (fun st' log => Except.ok (ε := Exn) st = .ok st' ∧ I st' log)
        (spawn (p.create (api i) st conf needed)) fun future st' log =>
        I st' log ∧ ∀ h, future = .ok (.ok h) → G h log := by
      rintro st' log ⟨⟨⟩, hi⟩
      rcases hrun : p.create (api i) st conf needed () [] with ⟨r, u, evs⟩
      obtain ⟨hi', hg⟩ := htask 0 conf rfl st needed log r u evs hi hrun
      refine ⟨.ok r, st, evs, by rw [run_spawn, hrun], hi', fun h hr => hg h ?_⟩
      exact Except.ok.inj hr
    refine .bind hspawn (fun future => ?_) fun e st log hi => ⟨hi.1, by simp⟩
    -- what is known of this future stays true while the others are submitted
    have hrest := ih (i + 1) fun k c hc => by
      rw [Nat.add_right_comm]
      exact htask (k + 1) c hc
    have hframe := hrest.frame
      (F := fun log => ∀ h, Except.ok (ε := Exn) future = .ok (.ok h) → G h log)
      fun log evs hf h hh => hgrow h log evs (hf h hh)
    refine .bind hframe (fun futures => ?_) fun e st log hi => ⟨hi.1.1, by simp⟩
    refine .pure' fun st log hi => ⟨hi.1.1, ?_⟩
    rintro _ ⟨⟩ h hh
    obtain rfl | hh := List.mem_cons.mp hh
    · exact hi.2 h rfl
    · exact hi.1.2 futures rfl h hh

/-- What each creation and the clean-up keep, a read of the property keeps. -/
theorem Section.read_keeps_runs
    (hlookup : ∀ conf, Hoare I (p.lookup conf) fun _ => I)
    (hgrow : ∀ h log evs, G h log → G h (log ++ evs)) (pool : Pool η)
    (htask : ∀ st log, I st log → ∀ k conf, (p.confs st.conf)[k]? = some conf →
      ∀ st needed log r u evs, I st log →
      p.create (pool.api k) st conf needed () [] = (r, u, evs) →
      I st (log ++ evs) ∧ ∀ h, r = .ok h → G h (log ++ evs))
    (hmemo : ∀ st log handlers, I st log → (∀ h ∈ handlers, G h log) →
      I (p.setMemo handlers st) log)
    (hfinish : ∀ api, Hoare I (finish api) fun _ => I) (api : Api) :
    Hoare I (p.read api pool) fun _ => I := by
  refine .bind (.get' (Q := fun _ st log => I st log) fun st log hi => hi) (fun st => ?_)
    fun _ _ _ hi => hi
  split
  · exact .pure' fun _ _ hi => hi
  · refine .bind (.modify' (Q := fun _ => I) fun st log hi => hmemo st log [] hi (by simp))
      (fun _ => ?_) fun _ _ _ hi => hi
    refine .bind (Q := fun r st log => I st log ∧ ∀ st', r = .ok st' → I st' log)
      (.get' fun st log hi => ⟨hi, by rintro _ ⟨⟩; exact hi⟩) (fun st' => ?_) fun _ _ _ hi => hi.1
    intro st₁ log₁ ⟨hi₁, hst'⟩
    have hsubmit := submit_keeps hlookup hgrow pool.api 0 (p.confs st'.conf) fun k conf hk => by
      rw [Nat.zero_add]
      exact htask st' log₁ (hst' st' rfl) k conf hk
    refine Hoare.bind (P := I) hsubmit (fun futures => ?_) (fun _ _ _ hi => hi.1) st₁ log₁ hi₁
    have hdone : ∀ st log, (I st log ∧ ∀ futures', Except.ok (ε := Exn) futures = .ok futures' →
        ∀ h, .ok h ∈ futures' → G h log) →
          I (p.setMemo (handlersOf (pool.iterate futures)) st) log := by
      rintro st log ⟨hi, hg⟩
      refine hmemo st log _ hi fun h hh => ?_
      obtain ⟨future, hmem, hfuture⟩ := List.mem_filterMap.mp hh
      obtain ⟨_⟩ | a := future
      · simp [Except.toOption] at hfuture
      · obtain rfl : a = h := by simpa [Except.toOption] using hfuture
        exact hg futures rfl a ((pool.perm futures).mem_iff.mp hmem)
    refine .bind (.modify' (Q := fun _ => I) hdone) (fun _ => ?_) fun _ _ _ hi => hi
    split
    · exact .bind (hfinish api) (fun _ => .throw' fun _ _ hi => hi) fun _ _ _ hi => hi
    · exact .pure' fun _ _ hi => hi

theorem Section.read_keeps
    (hlookup : ∀ conf, Hoare I (p.lookup conf) fun _ => I)
    (hcreate : ∀ api st conf needed, Triple (p.create api st conf needed) () fun r _ evs =>
      T conf r evs)
    (hgrow : ∀ h log evs, G h log → G h (log ++ evs))
    (htask : ∀ st log, I st log → ∀ conf ∈ p.confs st.conf, ∀ st log r evs,
      I st log → T conf r evs →
      I st (log ++ evs) ∧ ∀ h, r = .ok h → G h (log ++ evs))
    (hmemo : ∀ st log handlers, I st log → (∀ h ∈ handlers, G h log) →
      I (p.setMemo handlers st) log)
    (hfinish : ∀ api, Hoare I (finish api) fun _ => I) (api : Api) (pool : Pool η) :
    Hoare I (p.read api pool) fun _ => I := by
  refine read_keeps_runs hlookup hgrow pool ?_ hmemo hfinish api
  intro st₀ log₀ h₀ k conf hk st needed log r u evs hi hrun
  obtain ⟨r', u', evs', hrun', ht⟩ := hcreate (pool.api k) st conf needed []
  obtain ⟨rfl, -, rfl⟩ : r' = r ∧ u' = u ∧ evs' = evs := by
    simpa only [Prod.mk.injEq, List.nil_append] using hrun'.symm.trans hrun
  exact htask st₀ log₀ h₀ conf (List.mem_of_getElem? hk) st log r' evs' hi ht

end

theorem finish_keeps {I : HandlerStorage → List Event → Prop}
    (hrelease : ∀ st log, I st log → ∀ h ∈ st.held, ∀ evs, releases evs = [h.release] →
      created evs = [] → I st (log ++ evs))
    (hother : ∀ st log evs, I st log → releases evs = [] → created evs = [] → I st (log ++ evs))
    (api : Api) :
    Hoare I (finish api) fun _ => I := by
  intro st log hi
  rw [finish_eq]
  have hloop : Hoare (fun st' log => st' = st ∧ I st log)
      (each (Held.finish api st.conf.hasCsSmb) st.held) fun _ st' log => st' = st ∧ I st log := by
    refine .each' fun h hh => .of_triple (fun s => h.finish_spec api st.conf.hasCsSmb s) ?_
    rintro _ log r _ evs ⟨rfl, hi⟩ ⟨rfl, hevs, hnone⟩
    exact ⟨rfl, hrelease _ _ hi h hh evs hevs hnone⟩
  refine Hoare.bind hloop (fun _ => .of_triple (finishVcenter_spec api st) ?_)
    (fun _ st' log h => h.1 ▸ h.2) st log ⟨rfl, hi⟩
  rintro _ log r _ evs ⟨rfl, hi⟩ ⟨rfl, hevs, hnone⟩
  exact hother _ _ evs hi hevs hnone

end HandlerStorage

-- ---------------------------------------------------------------------------
-- What is deleted
-- ---------------------------------------------------------------------------

/-- Each release of a kind comes after what allows it. -/
def ReleasedAfter (release : String → Release) (Allowed : List Event → String → Prop)
    (log : List Event) : Prop :=
  ∀ pre e post name, log = pre ++ e :: post → e.release? = some (release name) → Allowed pre name

/-- Each DeleteResource is for a name that was claimed before it. -/
def DeletesClaimed (log : List Event) : Prop :=
  ReleasedAfter .deleteResource (fun pre name => name ∈ claimed pre) log

/-- The archive that an add_shell or update_shell call has put in. -/
def Event.installs? : Event → Option String
  | .addShell path (.ok ()) | .updateShell path _ (.ok ()) => some path
  | _ => none

/-- The archive gives its shell this name. -/
def ShellConfig.Names (shell : ShellConfig) (name : String) : Prop :=
  shell.definition.map ShellDefinition.templateName = some name

/-- The archive of a configured shell of this name was put in. -/
def MainConfig.Installed (conf : MainConfig) (log : List Event) (name : String) : Prop :=
  ∃ shell ∈ conf.shellsConf, shell.Names name ∧ ∃ e ∈ log, e.installs? = some shell.path

theorem MainConfig.Installed.append {conf : MainConfig} (h : conf.Installed log name)
    (evs : List Event) : conf.Installed (log ++ evs) name := by
  obtain ⟨shell, hshell, hname, e, he, hinstalls⟩ := h
  exact ⟨shell, hshell, hname, e, List.mem_append_left _ he, hinstalls⟩

theorem releasedAfter_append {release : String → Release} {Allowed : List Event → String → Prop}
    (h : ReleasedAfter release Allowed log)
    (hevs : ∀ name, release name ∈ releases evs → ∀ more, Allowed (log ++ more) name) :
    ReleasedAfter release Allowed (log ++ evs) := by
  intro pre e post name hsplit he
  rcases List.append_eq_append_iff.mp hsplit with ⟨mid, rfl, hmid⟩ | ⟨mid, hmid, hpost⟩
  · have hmem : release name ∈ releases evs :=
      List.mem_filterMap.mpr ⟨e, by simp [hmid], he⟩
    exact hevs name hmem mid
  · cases mid with
    | nil =>
      have hevs' : evs = e :: post := by simpa using hpost.symm
      have hmem : release name ∈ releases evs :=
        List.mem_filterMap.mpr ⟨e, by simp [hevs'], he⟩
      simpa [hmid] using hevs name hmem []
    | cons e' mid =>
      simp only [List.cons_append, List.cons.injEq] at hpost
      obtain ⟨rfl, -⟩ := hpost
      exact h pre e mid name hmid he

theorem releases_of_reservation (h : ∀ e ∈ evs, Event.OfReservation e) :
    ∀ x ∈ releases evs, ∃ rid, x = .endReservation rid := by
  intro x hx
  obtain ⟨e, he, hex⟩ := List.mem_filterMap.mp hx
  cases e <;> simp [Event.release?] at hex <;> first | exact ⟨_, hex.symm⟩ | exact (h _ he).elim

theorem releases_of_resource (h : ∀ e ∈ evs, Event.OfResource e) : releases evs = [] := by
  refine List.filterMap_eq_nil_iff.mpr fun e he => ?_
  cases e <;> first | rfl | exact (h _ he).elim

theorem releases_of_shell {N : String → Prop}
    (h : ∀ e ∈ evs, ∃ name, N name ∧ Event.OfShell name e) :
    ∀ x ∈ releases evs, ∃ name, N name ∧ x = .deleteShell name := by
  intro x hx
  obtain ⟨e, he, hex⟩ := List.mem_filterMap.mp hx
  obtain ⟨name, hname, hof⟩ := h e he
  cases e <;> simp [Event.release?] at hex <;> subst hex
  case deleteShell => exact ⟨name, hname, by simpa [Event.OfShell] using hof⟩
  all_goals exact hof.elim

def PutsIn (path : String) (r : Except Exn Unit) (_ : σ) (evs : List Event) : Prop :=
  r = .ok () → ∃ e ∈ evs, e.installs? = some path

theorem PutsIn.frame {s : σ} (h : PutsIn path r s evs') (evs : List Event) :
    PutsIn path r s (evs ++ evs') := by
  intro hr
  obtain ⟨e, he, hinstalls⟩ := h hr
  exact ⟨e, List.mem_append_right _ he, hinstalls⟩

theorem installShellOnce_putsIn (api : Api) (path : String) (s : σ) :
    Triple (CloudShellHandler.installShellOnce api path) s (PutsIn path) := by
  refine .tryCatch' (Q := fun r _ evs => evs = [.addShell path r]) (.call' fun _ => rfl) ?_ ?_
  · rintro ⟨⟩ _ evs rfl -
    exact ⟨.addShell path (.ok ()), by simp, rfl⟩
  · rintro e s' evs rfl
    split
    · beta_reduce
      split
      · exact .throw' nofun
      split
      · split
        · refine .call' ?_
          rintro _ rfl
          exact ⟨_, List.mem_append_right _ (List.mem_singleton_self _), rfl⟩
        · exact .throw' nofun
      · exact .throw' nofun
    · exact .throw' nofun

theorem ShellHandler.prepare_putsIn (api : Api) (hasSmb : Bool) (h : ShellHandler) (s : σ) :
    Triple (ShellHandler.prepare api hasSmb h) s (PutsIn h.conf.path) := by
  have hinstall (s : σ) :
      Triple (CloudShellHandler.installShell api h.conf.path) s (PutsIn h.conf.path) :=
    retry_triple (installShellOnce_putsIn api h.conf.path)
      (fun _ _ evs _ _ _ _ _ h => h.frame evs) 6 s
  have hextra := (h.storeExtraFiles_emits api hasSmb (P := fun _ => True) (fun _ _ => trivial)
    fun _ _ => trivial).events s
  refine .tryCatch' (.bind hextra (fun _ s' evs _ => ?_) (by nofun)) (fun _ _ _ h => h) ?_
  · exact (hinstall s').mono fun r _ evs' h => h.frame evs
  · intro e s' evs _
    split
    · exact .bind (ShellHandler.finish_releases api hasSmb h s') (fun _ _ _ _ => .throw' nofun)
        (by nofun)
    · exact .throw' nofun

theorem ShellHandler.create_putsIn (api : Api) (hasSmb : Bool) (conf : ShellConfig) (s : σ) :
    Triple (ShellHandler.create api hasSmb conf) s fun r s' evs =>
      PutsIn conf.path (r.map fun _ => ()) s' evs := by
  unfold ShellHandler.create
  split
  · exact .throw' nofun
  · refine .bind (ShellHandler.prepare_putsIn api hasSmb _ s) (fun _ _ evs h => ?_) (by nofun)
    refine .pure' ?_
    rw [List.append_nil]
    exact h

namespace HandlerStorage

/-- The preparation of a configured shell of this name fails. -/
def Unprepared (w : World) (conf : MainConfig) (name : String) : Prop :=
  ∃ i shell, conf.shellsConf[i]? = some shell ∧ shell.Names name ∧
    ∃ e, (ShellHandler.create (w.shells.api i) conf.hasCsSmb shell () []).1 = .error e

/-- Each delete_shell is for a shell that was put in before it, or whose
preparation fails. -/
def DeletesInstalled (w : World) (conf : MainConfig) (log : List Event) : Prop :=
  ReleasedAfter .deleteShell (fun pre name => conf.Installed pre name ∨ Unprepared w conf name) log

/-- What is held and what was deleted belongs to this storage. -/
structure Owned (w : World) (conf : MainConfig) (st : HandlerStorage) (log : List Event) :
    Prop where
  sameConf : st.conf = conf
  resources : ∀ h ∈ st.resourceMemo.getD [], h.name ∈ claimed log
  shells : ∀ h ∈ st.shellMemo.getD [], conf.Installed log h.csShellName
  deletedResources : DeletesClaimed log
  deletedShells : DeletesInstalled w conf log

variable {w : World} {conf : MainConfig}

theorem Owned.append (h : Owned w conf st log)
    (hresources : ∀ name, .deleteResource name ∈ releases evs → name ∈ claimed log)
    (hshells : ∀ name, .deleteShell name ∈ releases evs →
      conf.Installed log name ∨ Unprepared w conf name) :
    Owned w conf st (log ++ evs) where
  sameConf := h.sameConf
  resources := by
    intro r hr
    rw [claimed_append]
    exact List.mem_append_left _ (h.resources r hr)
  shells := fun s hs => (h.shells s hs).append evs
  deletedResources := by
    refine releasedAfter_append h.deletedResources fun name hname more => ?_
    rw [claimed_append]
    exact List.mem_append_left _ (hresources name hname)
  deletedShells := releasedAfter_append h.deletedShells fun name hname more =>
    (hshells name hname).imp (·.append more) id

theorem finish_owned (w : World) (conf : MainConfig) (api : Api) :
    Hoare (Owned w conf) (finish api) fun _ => Owned w conf := by
  refine finish_keeps ?_ (fun st log evs h hevs _ => h.append (by simp [hevs]) (by simp [hevs])) api
  intro st log h x hx evs hevs _
  simp only [held, List.mem_append, List.mem_map] at hx
  rcases hx with (⟨s, -, rfl⟩ | ⟨r, hr, rfl⟩) | ⟨s, hs, rfl⟩
  · exact h.append (by simp [hevs, Held.release]) (by simp [hevs, Held.release])
  · refine h.append ?_ (by simp [hevs, Held.release])
    simpa [hevs, Held.release] using h.resources r hr
  · refine h.append (by simp [hevs, Held.release]) fun name hname => .inl ?_
    obtain rfl : name = s.csShellName := by simpa [hevs, Held.release] using hname
    exact h.shells s hs

theorem shellHandlers_owned (conf : MainConfig) (w : World) :
    Hoare (Owned w conf) (shellHandlers w) fun _ => Owned w conf := by
  refine Section.read_keeps_runs (p := shells)
    (G := fun h log => conf.Installed log h.csShellName)
    (fun _ => .pure' (Q := fun _ => Owned w conf) fun _ _ h => h)
    (fun _ _ evs h => h.append evs) w.shells ?_ (fun st log handlers h hg => ?_)
    (finish_owned w conf) w.api
  · rintro st₀ log₀ h₀ k c hk st ⟨⟩ log r u evs h hrun
    rw [h₀.sameConf] at hk
    have hrun' : ShellHandler.create (w.shells.api k) conf.hasCsSmb c () [] = (r, u, evs) := by
      rw [← h.sameConf]
      exact hrun
    obtain ⟨_, _, _, heq, ⟨hok, hevs⟩, hreleases, -⟩ := ((ShellHandler.create_spec
      (w.shells.api k) conf.hasCsSmb c ()).and
        (ShellHandler.create_releases (w.shells.api k) conf.hasCsSmb c ())) []
    obtain ⟨_, _, _, heq', hinstalls⟩ :=
      ShellHandler.create_putsIn (w.shells.api k) conf.hasCsSmb c () []
    rw [hrun', Prod.mk.injEq, Prod.mk.injEq, List.nil_append] at heq heq'
    obtain ⟨rfl, -, rfl⟩ := heq
    obtain ⟨rfl, -, rfl⟩ := heq'
    refine ⟨h.append ?_ ?_, fun shell hr => ?_⟩
    · intro name hname
      obtain ⟨_, -, hx⟩ := releases_of_shell hevs _ hname
      cases hx
    · intro name hname
      obtain ⟨name', hname', hx⟩ := releases_of_shell hevs _ hname
      cases hx
      refine .inr ⟨k, c, hk, hname', ?_⟩
      rw [hrun']
      cases r with
      | ok shell => simp [(hreleases shell rfl).2] at hname
      | error e => exact ⟨e, rfl⟩
    · obtain ⟨e, he, heinstalls⟩ := hinstalls (by rw [hr]; rfl)
      exact ⟨c, List.mem_of_getElem? hk, (hok shell hr).2, e, List.mem_append_right _ he,
        heinstalls⟩
  · exact ⟨h.sameConf, h.resources, hg, h.deletedResources, h.deletedShells⟩

theorem lookupShell_owned (conf : MainConfig) (w : World) (c : ResourceConfig) :
    Hoare (Owned w conf) (lookupShell w c) fun _ => Owned w conf := by
  refine .bind (shellHandlers_owned conf w) (fun handlers => ?_) fun _ _ _ h => h
  split
  · exact .pure' fun _ _ h => h
  · exact .throw' fun _ _ h => h

theorem resourceHandlers_owned (conf : MainConfig) (w : World) :
    Hoare (Owned w conf) (resourceHandlers w) fun _ => Owned w conf := by
  refine Section.read_keeps (G := fun h log => h.name ∈ claimed log) (lookupShell_owned conf w)
    (fun api st c shell => ResourceHandler.create_spec api c shell ()) ?_ ?_
    (fun st log handlers h hg => ⟨h.sameConf, hg, h.shells, h.deletedResources, h.deletedShells⟩)
    (finish_owned w conf) w.api w.resources
  · intro h log evs hh
    rw [claimed_append]
    exact List.mem_append_left _ hh
  · intro st₀ log₀ h₀ c hc st log r evs h ⟨hok, hevs⟩
    have hnone := releases_of_resource hevs
    refine ⟨h.append (by simp [hnone]) (by simp [hnone]), fun resource hr => ?_⟩
    rw [claimed_append]
    exact List.mem_append_right _ (hok resource hr).2

theorem sandboxHandlers_owned (conf : MainConfig) (w : World) :
    Hoare (Owned w conf) (sandboxHandlers w) fun _ => Owned w conf := by
  refine Section.read_keeps (T := fun _ _ evs => ∀ e ∈ evs, Event.OfReservation e)
    (G := fun _ _ => True)
    (fun _ => .pure' (Q := fun _ => Owned w conf) fun _ _ h => h)
    (fun api st c _ => (SandboxHandler.create_emits api c 120).events ())
    (fun _ _ _ _ => trivial) ?_
    (fun st log handlers h hg =>
      ⟨h.sameConf, h.resources, h.shells, h.deletedResources, h.deletedShells⟩)
    (finish_owned w conf) w.api w.sandboxes
  intro st₀ log₀ h₀ c hc st log r evs h hevs
  refine ⟨h.append ?_ ?_, fun _ _ => trivial⟩
  all_goals
    intro name hname
    obtain ⟨rid, hx⟩ := releases_of_reservation hevs _ hname
    cases hx

-- ---------------------------------------------------------------------------
-- Reads in any order, and finish
-- ---------------------------------------------------------------------------

inductive Property
  | shells
  | resources
  | sandboxes
  deriving DecidableEq, Repr

def Property.read (w : World) : Property → Cs HandlerStorage Unit
  | .shells => do let _ ← shellHandlers w
  | .resources => do let _ ← resourceHandlers w
  | .sandboxes => do let _ ← sandboxHandlers w

/-- The properties are read one after another, whatever a read raises, and the
storage is finished. -/
def session (w : World) (reads : List Property) : Cs HandlerStorage Unit := do
  sweep (Property.read w) reads
  finish w.api

theorem read_owned (conf : MainConfig) (w : World) (property : Property) :
    Hoare (Owned w conf) (property.read w) fun _ => Owned w conf := by
  cases property with
  | shells =>
    exact .bind (shellHandlers_owned conf w) (fun _ => .pure' fun _ _ h => h) fun _ _ _ h => h
  | resources =>
    exact .bind (resourceHandlers_owned conf w) (fun _ => .pure' fun _ _ h => h) fun _ _ _ h => h
  | sandboxes =>
    exact .bind (sandboxHandlers_owned conf w) (fun _ => .pure' fun _ _ h => h) fun _ _ _ h => h

theorem session_owned (conf : MainConfig) (w : World) (reads : List Property) :
    Hoare (Owned w conf) (session w reads) fun _ => Owned w conf := by
  refine .bind (.each' fun property _ => ?_) (fun _ => finish_owned w conf w.api) fun _ _ _ h => h
  exact .tryCatch' (read_owned conf w property) (fun _ _ _ h => h) fun _ => .pure' fun _ _ h => h

structure Inventory where
  resources : List String
  shells : List String
  deriving DecidableEq, Repr

/-- The inventory after a call; `shellAt` names the shell of an archive. -/
def Inventory.after (shellAt : String → String) (inv : Inventory) : Event → Inventory
  | .createResource _ _ name _ _ (.ok ()) => { inv with resources := name :: inv.resources }
  | .deleteResource name (.ok ()) => { inv with resources := inv.resources.filter (· ≠ name) }
  | .addShell path (.ok ()) => { inv with shells := shellAt path :: inv.shells }
  | .deleteShell name (.ok ()) => { inv with shells := inv.shells.filter (· ≠ name) }
  | _ => inv

def Inventory.run (shellAt : String → String) (inv : Inventory) (log : List Event) : Inventory :=
  log.foldl (·.after shellAt) inv

theorem after_resources (shellAt : String → String) (inv : Inventory) (e : Event)
    (hname : name ∈ inv.resources) (he : e.release? ≠ some (.deleteResource name)) :
    name ∈ (inv.after shellAt e).resources := by
  unfold Inventory.after
  split <;> simp_all [Event.release?, eq_comm]

theorem after_shells (shellAt : String → String) (inv : Inventory) (e : Event)
    (hname : name ∈ inv.shells) (he : e.release? ≠ some (.deleteShell name)) :
    name ∈ (inv.after shellAt e).shells := by
  unfold Inventory.after
  split <;> simp_all [Event.release?, eq_comm]

theorem run_resources (shellAt : String → String) (log : List Event) (inv : Inventory)
    (hname : name ∈ inv.resources) (hlog : .deleteResource name ∉ releases log) :
    name ∈ (inv.run shellAt log).resources := by
  induction log generalizing inv with
  | nil => exact hname
  | cons e log ih =>
    obtain ⟨he, hlog⟩ := not_mem_releases_cons.mp hlog
    exact ih _ (after_resources shellAt inv e hname he) hlog

theorem run_shells (shellAt : String → String) (log : List Event) (inv : Inventory)
    (hname : name ∈ inv.shells) (hlog : .deleteShell name ∉ releases log) :
    name ∈ (inv.run shellAt log).shells := by
  induction log generalizing inv with
  | nil => exact hname
  | cons e log ih =>
    obtain ⟨he, hlog⟩ := not_mem_releases_cons.mp hlog
    exact ih _ (after_shells shellAt inv e hname he) hlog

/-- The device and the shell of the config are in the inventory already: the
shell is updated, the resource is used as it is, and `finish` deletes both. -/
theorem session_deletes_foreign :
    let conf : MainConfig := {
      shellsConf := [{ name := "s", path := "s.zip", definition := some ⟨"Model", "Shell"⟩ }]
      resourcesConf := [{ name := "dut", shellName := "s" }] }
    let api : Api := { Api.obliging with
      createResource := fun _ _ _ name _ _ =>
        if name = "dut" then .error (.cloudShellApi "114" "Resource exists") else .ok ()
      addShell := fun _ _ => .error (.other "A shell named 'Shell' already exists") }
    let inv : Inventory := ⟨["dut"], ["Shell"]⟩
    let log := (session (.of api) [.resources] { conf } []).2.2
    (.deleteResource "dut" ∈ releases log ∧ "dut" ∉ created log ∧
        "dut" ∉ (inv.run (fun _ => "Shell") log).resources) ∧
      .deleteShell "Shell" ∈ releases log ∧ "Shell" ∉ (inv.run (fun _ => "Shell") log).shells := by
  decide +kernel

/-- A storage deletes only resources that its own CreateResource calls created
or found taken, and only shells that its own add_shell or update_shell calls put
in; the rest of the inventory is still there. The shells whose preparation fails
are left out. -/
theorem session_deletes_own (w : World) (conf : MainConfig) (hasVcenter : Bool)
    (reads : List Property) (shellAt : String → String) (inv : Inventory) :
    let log := (session w reads { conf, hasVcenter } []).2.2
    DeletesClaimed log ∧ DeletesInstalled w conf log ∧
      (∀ name ∈ inv.resources, name ∉ claimed log → name ∈ (inv.run shellAt log).resources) ∧
      ∀ name ∈ inv.shells, ¬ conf.Installed log name → ¬ Unprepared w conf name →
        name ∈ (inv.run shellAt log).shells := by
  intro log
  have hinit : Owned w conf { conf, hasVcenter } [] :=
    ⟨rfl, by simp, by simp, by simp [DeletesClaimed, ReleasedAfter],
      by simp [DeletesInstalled, ReleasedAfter]⟩
  obtain ⟨r, st, evs, hrun, h⟩ := session_owned conf w reads _ _ hinit
  obtain rfl : log = [] ++ evs := by simp [log, hrun]
  refine ⟨h.deletedResources, h.deletedShells, ?_, ?_⟩
  · intro name hname hunclaimed
    refine run_resources shellAt _ inv hname fun hmem => hunclaimed ?_
    obtain ⟨e, he, hx⟩ := List.mem_filterMap.mp hmem
    obtain ⟨pre, post, hsplit⟩ := List.append_of_mem he
    rw [hsplit, claimed_append]
    exact List.mem_append_left _ (h.deletedResources pre e post name hsplit hx)
  · intro name hname hother hprepared
    refine run_shells shellAt _ inv hname fun hmem => ?_
    obtain ⟨e, he, hx⟩ := List.mem_filterMap.mp hmem
    obtain ⟨pre, post, hsplit⟩ := List.append_of_mem he
    refine (h.deletedShells pre e post name hsplit hx).elim (fun hin => hother ?_) hprepared
    rw [hsplit]
    exact hin.append _

end HandlerStorage

end ShellTests
