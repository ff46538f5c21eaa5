/-!
# Programs that call a remote side

A `Prog σ ε ν α` works on a state `σ`, may raise an `ε`, and logs one event `ν`
for each call it makes. What a call answers may depend on everything logged
before it, so a family of answers is any behaviour of the other side. `Triple`
describes a program by what it adds to the log.
-/

/-- A program: from a state and a log to an outcome, a state and a log. -/
def Prog (σ ε ν α : Type) : Type := σ → List ν → Except ε α × σ × List ν

namespace Prog

variable {σ ε ν α β : Type}

instance : Monad (Prog σ ε ν) where
  pure a := fun s log => (.ok a, s, log)
  bind m f := fun s log =>
    match m s log with
    | (.ok a, s', log') => f a s' log'
    | (.error e, s', log') => (.error e, s', log')

instance : MonadExceptOf ε (Prog σ ε ν) where
  throw e := fun s log => (.error e, s, log)
  tryCatch m h := fun s log =>
    match m s log with
    | (.ok a, s', log') => (.ok a, s', log')
    | (.error e, s', log') => h e s' log'

instance : MonadStateOf σ (Prog σ ε ν) where
  get := fun s log => (.ok s, s, log)
  set s' := fun _ log => (.ok ⟨⟩, s', log)
  modifyGet f := fun s log => (.ok (f s).1, (f s).2, log)

/-- One call: the answer to it in the light of the log, and its event. -/
def call (reply : List ν → Except ε α) (event : Except ε α → ν) : Prog σ ε ν α :=
  fun s log => (reply log, s, log ++ [event (reply log)])

/-- A task of a thread pool: it shares no state with its caller, sees the
answers to its own calls, and hands its outcome over as a value. -/
def spawn (m : Prog Unit ε ν α) : Prog σ ε ν (Except ε α) := fun s log =>
  let (r, _, evs) := m () []
  (.ok r, s, log ++ evs)

/-- A `for` loop: a raise ends it. -/
def each (f : β → Prog σ ε ν Unit) : List β → Prog σ ε ν Unit
  | [] => pure ()
  | b :: bs => do
    f b
    each f bs

/-- The same loop with every raise dropped: each turn is taken. -/
def sweep (f : β → Prog σ ε ν Unit) (bs : List β) : Prog σ ε ν Unit :=
  each (fun b => tryCatch (f b) fun _ => pure ()) bs

/-- `try: m finally: f` -/
def withFinally (m f : Prog σ ε ν Unit) : Prog σ ε ν Unit := do
  tryCatch m fun e => do
    f
    throw e
  f

-- ---------------------------------------------------------------------------
-- Running
-- ---------------------------------------------------------------------------

@[simp] theorem run_pure (a : α) (s : σ) (log : List ν) :
    (pure a : Prog σ ε ν α) s log = (.ok a, s, log) := rfl

@[simp] theorem run_throw (e : ε) (s : σ) (log : List ν) :
    (throw e : Prog σ ε ν α) s log = (.error e, s, log) := rfl

theorem run_bind (m : Prog σ ε ν α) (f : α → Prog σ ε ν β) (s : σ) (log : List ν) :
    (m >>= f) s log = match m s log with
      | (.ok a, s', log') => f a s' log'
      | (.error e, s', log') => (.error e, s', log') := rfl

theorem run_tryCatch (m : Prog σ ε ν α) (h : ε → Prog σ ε ν α) (s : σ) (log : List ν) :
    tryCatch m h s log = match m s log with
      | (.ok a, s', log') => (.ok a, s', log')
      | (.error e, s', log') => h e s' log' := rfl

theorem run_bind_ok {m : Prog σ ε ν α} {f : α → Prog σ ε ν β} (h : m s log = (.ok a, s', log')) :
    (m >>= f) s log = f a s' log' := by
  simp [run_bind, h]

theorem run_bind_error {m : Prog σ ε ν α} {f : α → Prog σ ε ν β}
    (h : m s log = (.error e, s', log')) : (m >>= f) s log = (.error e, s', log') := by
  simp [run_bind, h]

/-- The end of `f` is the end of all; a raise of it takes the place of what `m` came to. -/
theorem run_withFinally {m f : Prog σ ε ν Unit} (hm : m s log = (r, s', log'))
    (hf : f s' log' = (r', s'', log'')) :
    withFinally m f s log = (do r'; r, s'', log'') := by
  unfold withFinally
  cases r with
  | ok _ =>
    have htry : tryCatch m (fun e => do f; throw e) s log = (.ok (), s', log') := by
      rw [run_tryCatch, hm]
    rw [run_bind_ok htry, hf]
    cases r' <;> rfl
  | error e =>
    cases r' with
    | ok _ =>
      refine run_bind_error ?_
      rw [run_tryCatch, hm]
      exact run_bind_ok hf
    | error e' =>
      refine run_bind_error ?_
      rw [run_tryCatch, hm]
      exact run_bind_error hf

@[simp] theorem run_get (s : σ) (log : List ν) :
    (get : Prog σ ε ν σ) s log = (.ok s, s, log) := rfl

@[simp] theorem run_modify (f : σ → σ) (s : σ) (log : List ν) :
    (modify f : Prog σ ε ν PUnit) s log = (.ok ⟨⟩, f s, log) := rfl

@[simp] theorem run_call (reply : List ν → Except ε α) (event : Except ε α → ν) (s : σ)
    (log : List ν) :
    (call reply event : Prog σ ε ν α) s log = (reply log, s, log ++ [event (reply log)]) := rfl

@[simp] theorem run_spawn (m : Prog Unit ε ν α) (s : σ) (log : List ν) :
    (spawn m : Prog σ ε ν (Except ε α)) s log = (.ok (m () []).1, s, log ++ (m () []).2.2) := rfl

def newEvents (m : Prog σ ε ν α) (s : σ) (log : List ν) : List ν := (m s log).2.2.drop log.length

def Raises (m : Prog σ ε ν α) (s : σ) (log : List ν) : Prop := ∃ e, (m s log).1 = .error e

theorem newEvents_of_run {m : Prog σ ε ν α} (h : m s log = (r, s', log ++ evs)) :
    newEvents m s log = evs := by
  simp [newEvents, h]

-- ---------------------------------------------------------------------------
-- What a program adds to the log
-- ---------------------------------------------------------------------------

/-- From state `s`, and whatever was logged before, `m` adds events to the log
and ends with an outcome, a state and those events in `Q`. -/
def Triple (m : Prog σ ε ν α) (s : σ) (Q : Except ε α → σ → List ν → Prop) : Prop :=
  ∀ log, ∃ r s' evs, m s log = (r, s', log ++ evs) ∧ Q r s' evs

namespace Triple

variable {m : Prog σ ε ν α} {s : σ} {Q Q' : Except ε α → σ → List ν → Prop}

theorem mono (h : Triple m s Q) (hQ : ∀ r s' evs, Q r s' evs → Q' r s' evs) : Triple m s Q' := by
  intro log
  obtain ⟨r, s', evs, hm, hq⟩ := h log
  exact ⟨r, s', evs, hm, hQ _ _ _ hq⟩

theorem pure' {a : α} (h : Q (.ok a) s []) : Triple (pure a) s Q :=
  fun log => ⟨.ok a, s, [], by simp, h⟩

theorem throw' {e : ε} (h : Q (.error e) s []) : Triple (throw e) s Q :=
  fun log => ⟨.error e, s, [], by simp, h⟩

theorem get' {Q : Except ε σ → σ → List ν → Prop} (h : Q (.ok s) s []) : Triple get s Q :=
  fun log => ⟨.ok s, s, [], by simp, h⟩

theorem modify' {f : σ → σ} {Q : Except ε PUnit → σ → List ν → Prop} (h : Q (.ok ⟨⟩) (f s) []) :
    Triple (modify f) s Q :=
  fun log => ⟨.ok ⟨⟩, f s, [], by simp, h⟩

theorem call' {reply : List ν → Except ε α} {event : Except ε α → ν} (h : ∀ r, Q r s [event r]) :
    Triple (call reply event) s Q :=
  fun log => ⟨reply log, s, [event (reply log)], rfl, h _⟩

theorem bind {f : α → Prog σ ε ν β} {R : Except ε β → σ → List ν → Prop} (hm : Triple m s Q)
    (hok : ∀ a s' evs, Q (.ok a) s' evs → Triple (f a) s' fun r s'' evs' => R r s'' (evs ++ evs'))
    (herr : ∀ e s' evs, Q (.error e) s' evs → R (.error e) s' evs) : Triple (m >>= f) s R := by
  intro log
  obtain ⟨r, s', evs, hrun, hq⟩ := hm log
  cases r with
  | ok a =>
    obtain ⟨r', s'', evs', hrun', hr⟩ := hok a s' evs hq (log ++ evs)
    refine ⟨r', s'', evs ++ evs', ?_, hr⟩
    rw [run_bind_ok hrun, hrun', List.append_assoc]
  | error e => exact ⟨.error e, s', evs, run_bind_error hrun, herr e s' evs hq⟩

theorem tryCatch' {h : ε → Prog σ ε ν α} {R : Except ε α → σ → List ν → Prop} (hm : Triple m s Q)
    (hok : ∀ a s' evs, Q (.ok a) s' evs → R (.ok a) s' evs)
    (herr : ∀ e s' evs, Q (.error e) s' evs → Triple (h e) s' fun r s'' evs' =>
      R r s'' (evs ++ evs')) :
    Triple (tryCatch m h) s R := by
  intro log
  obtain ⟨r, s', evs, hrun, hq⟩ := hm log
  cases r with
  | ok a =>
    refine ⟨.ok a, s', evs, ?_, hok a s' evs hq⟩
    rw [run_tryCatch, hrun]
  | error e =>
    obtain ⟨r', s'', evs', hrun', hr⟩ := herr e s' evs hq (log ++ evs)
    refine ⟨r', s'', evs ++ evs', ?_, hr⟩
    rw [run_tryCatch, hrun]
    simp only
    rw [hrun', List.append_assoc]

theorem withFinally' {m f : Prog σ ε ν Unit} {Q R : Except ε Unit → σ → List ν → Prop}
    (hm : Triple m s Q)
    (hf : ∀ r s' evs, Q r s' evs → Triple f s' fun r' s'' evs' =>
      R (do r'; r) s'' (evs ++ evs')) : Triple (withFinally m f) s R := by
  intro log
  obtain ⟨r, s', evs, hrun, hq⟩ := hm log
  obtain ⟨r', s'', evs', hrun', hr⟩ := hf r s' evs hq (log ++ evs)
  refine ⟨_, s'', evs ++ evs', ?_, hr⟩
  rw [run_withFinally hrun hrun', List.append_assoc]

theorem spawn' {m : Prog Unit ε ν α} {T : Except ε α → Unit → List ν → Prop}
    {Q : Except ε (Except ε α) → σ → List ν → Prop} (hm : Triple m () T)
    (h : ∀ r evs, T r () evs → Q (.ok r) s evs) : Triple (spawn m) s Q := by
  intro log
  obtain ⟨r, s', evs, hrun, ht⟩ := hm []
  exact ⟨.ok r, s, evs, by simp [hrun], h r evs ht⟩

theorem and (h : Triple m s Q) (h' : Triple m s Q') :
    Triple m s fun r s' evs => Q r s' evs ∧ Q' r s' evs := by
  intro log
  obtain ⟨r, s', evs, hm, hq⟩ := h log
  obtain ⟨r₁, s₁, evs₁, hm₁, hq₁⟩ := h' log
  rw [hm] at hm₁
  simp only [Prod.mk.injEq, List.append_cancel_left_eq] at hm₁
  obtain ⟨rfl, rfl, rfl⟩ := hm₁
  exact ⟨r, s', evs, hm, hq, hq₁⟩

end Triple

-- ---------------------------------------------------------------------------
-- A program later in a log
-- ---------------------------------------------------------------------------

/-- `m` does after `log` what `m'` does from the beginning, and leaves the state alone. -/
def Shifts (log : List ν) (m : Prog σ ε ν α) (m' : Prog Unit ε ν α) : Prop :=
  ∀ s evs, m s (log ++ evs) = ((m' () evs).1, s, log ++ (m' () evs).2.2)

namespace Shifts

variable {log : List ν} {m : Prog σ ε ν α} {m' : Prog Unit ε ν α}

theorem pure' (a : α) : Shifts log (pure a : Prog σ ε ν α) (pure a) := fun _ _ => rfl

theorem throw' (e : ε) : Shifts log (throw e : Prog σ ε ν α) (throw e) := fun _ _ => rfl

theorem call' (reply : List ν → Except ε α) (event : Except ε α → ν) :
    Shifts log (call reply event : Prog σ ε ν α) (call (fun evs => reply (log ++ evs)) event) := by
  intro s evs
  simp

theorem bind {f : α → Prog σ ε ν β} {f' : α → Prog Unit ε ν β} (hm : Shifts log m m')
    (hf : ∀ a, Shifts log (f a) (f' a)) : Shifts log (m >>= f) (m' >>= f') := by
  intro s evs
  rcases hrun : m' () evs with ⟨r, _, evs'⟩
  have hrun' := hm s evs
  rw [hrun] at hrun'
  cases r with
  | ok a => rw [run_bind_ok hrun', hf a s evs', run_bind_ok hrun]
  | error e => rw [run_bind_error hrun', run_bind_error hrun]

theorem tryCatch' {h : ε → Prog σ ε ν α} {h' : ε → Prog Unit ε ν α} (hm : Shifts log m m')
    (hh : ∀ e, Shifts log (h e) (h' e)) : Shifts log (tryCatch m h) (tryCatch m' h') := by
  intro s evs
  rcases hrun : m' () evs with ⟨r, _, evs'⟩
  have hrun' := hm s evs
  rw [hrun] at hrun'
  rw [run_tryCatch, run_tryCatch, hrun', hrun]
  cases r with
  | ok a => rfl
  | error e => exact hh e s evs'

end Shifts

-- ---------------------------------------------------------------------------
-- Loops
-- ---------------------------------------------------------------------------

section
variable {f : β → Prog σ ε ν Unit}

theorem each_append (as bs : List β) (s : σ) (log : List ν) :
    each f (as ++ bs) s log = (do each f as; each f bs) s log := by
  induction as generalizing s log with
  | nil => rfl
  | cons a as ih =>
    simp only [List.cons_append, each, run_bind]
    obtain ⟨r, s', log'⟩ := f a s log
    cases r with
    | ok _ => simp only [ih, run_bind]
    | error e => rfl

theorem each_map (g : γ → β) (cs : List γ) (s : σ) (log : List ν) :
    each f (cs.map g) s log = each (fun c => f (g c)) cs s log := by
  induction cs generalizing s log with
  | nil => rfl
  | cons c cs ih =>
    simp only [List.map_cons, each, run_bind]
    obtain ⟨r, s', log'⟩ := f (g c) s log
    cases r with
    | ok _ => exact ih s' log'
    | error e => rfl

theorem sweep_of_each (h : each f bs s log = (.ok (), s', log')) :
    sweep f bs s log = (.ok (), s', log') := by
  induction bs generalizing s log with
  | nil => exact h
  | cons b bs ih =>
    simp only [each, run_bind] at h
    simp only [sweep, each, run_bind, run_tryCatch]
    rcases hb : f b s log with ⟨r, s₁, log₁⟩
    cases r with
    | ok _ =>
      rw [hb] at h
      exact ih h
    | error e => simp [hb] at h

theorem not_raises_of_each (h : each f (pre ++ b :: post) s log = (.ok (), s', log')) :
    ¬ Raises (f b) (sweep f pre s log).2.1 (sweep f pre s log).2.2 := by
  rw [each_append, run_bind] at h
  rcases hp : each f pre s log with ⟨r, s₁, log₁⟩
  cases r with
  | error e => simp [hp] at h
  | ok _ =>
    rw [hp] at h
    rw [sweep_of_each hp]
    rintro ⟨e, he⟩
    simp only [each, run_bind] at h
    rcases hb : f b s₁ log₁ with ⟨r, s₂, log₂⟩
    rw [hb] at he
    obtain rfl : r = .error e := he
    simp [hb] at h

/-- How far a loop comes whose turns leave one mark each: through all of the
list, or up to a turn that raises. -/
theorem each_marks (mark : List ν → List μ) (hnil : mark [] = [])
    (happ : ∀ a b, mark (a ++ b) = mark a ++ mark b) (g : β → μ)
    (hf : ∀ b s, Triple (f b) s fun _ _ evs => mark evs = [g b]) (bs : List β) (s : σ)
    (log : List ν) :
    ∃ pre post r s' evs, bs = pre ++ post ∧ each f bs s log = (r, s', log ++ evs) ∧
      mark evs = pre.map g ∧
      (r = .ok () ∧ post = [] ∨
        ∃ front b, pre = front ++ [b] ∧ (∃ s₁ log₁, each f front s log = (.ok (), s₁, log₁)) ∧
          Raises (f b) (sweep f front s log).2.1 (sweep f front s log).2.2) := by
  induction bs generalizing s log with
  | nil => exact ⟨[], [], .ok (), s, [], rfl, by simp [each], hnil, .inl ⟨rfl, rfl⟩⟩
  | cons b bs ih =>
    obtain ⟨r, s₁, evs, hb, hmark⟩ := hf b s log
    cases r with
    | error e =>
      have heach : each f (b :: bs) s log = (.error e, s₁, log ++ evs) := run_bind_error hb
      refine ⟨[b], bs, .error e, s₁, evs, rfl, heach, by simpa using hmark, .inr ?_⟩
      exact ⟨[], b, rfl, ⟨s, log, rfl⟩, e, by simp [sweep, each, hb]⟩
    | ok _ =>
      obtain ⟨pre, post, r, s', evs', rfl, hrun, hmark', hend⟩ := ih s₁ (log ++ evs)
      have hcons (l : List β) : each f (b :: l) s log = each f l s₁ (log ++ evs) := run_bind_ok hb
      have hturn : tryCatch (f b) (fun _ => pure ()) s log = (.ok (), s₁, log ++ evs) := by
        rw [run_tryCatch, hb]
      have hsweep (l : List β) : sweep f (b :: l) s log = sweep f l s₁ (log ++ evs) :=
        run_bind_ok hturn
      refine ⟨b :: pre, post, r, s', evs ++ evs', rfl, ?_, by simp [happ, hmark, hmark'], ?_⟩
      · rw [hcons, hrun, List.append_assoc]
      · refine hend.imp id ?_
        rintro ⟨front, c, rfl, ⟨s₂, log₂, hfront⟩, hc⟩
        refine ⟨b :: front, c, rfl, ⟨s₂, log₂, ?_⟩, ?_⟩
        · rw [hcons, hfront]
        · rw [hsweep]
          exact hc

end

-- ---------------------------------------------------------------------------
-- What a program keeps
-- ---------------------------------------------------------------------------

/-- From any state and log in `P`, `m` adds to the log and ends with an
outcome, a state and a log in `Q`. -/
def Hoare (P : σ → List ν → Prop) (m : Prog σ ε ν α) (Q : Except ε α → σ → List ν → Prop) : Prop :=
  ∀ s log, P s log → ∃ r s' evs, m s log = (r, s', log ++ evs) ∧ Q r s' (log ++ evs)

namespace Hoare

variable {m : Prog σ ε ν α} {P : σ → List ν → Prop} {Q : Except ε α → σ → List ν → Prop}

theorem of_triple {T : σ → Except ε α → σ → List ν → Prop} (h : ∀ s, Triple m s (T s))
    (hQ : ∀ s log r s' evs, P s log → T s r s' evs → Q r s' (log ++ evs)) : Hoare P m Q := by
  intro s log hp
  obtain ⟨r, s', evs, hrun, ht⟩ := h s log
  exact ⟨r, s', evs, hrun, hQ _ _ _ _ _ hp ht⟩

theorem pure' {a : α} (h : ∀ s log, P s log → Q (.ok a) s log) : Hoare P (pure a) Q :=
  fun s log hp => ⟨.ok a, s, [], by simp, by simpa using h s log hp⟩

theorem throw' {e : ε} (h : ∀ s log, P s log → Q (.error e) s log) : Hoare P (throw e) Q :=
  fun s log hp => ⟨.error e, s, [], by simp, by simpa using h s log hp⟩

theorem get' {Q : Except ε σ → σ → List ν → Prop} (h : ∀ s log, P s log → Q (.ok s) s log) :
    Hoare P get Q :=
  fun s log hp => ⟨.ok s, s, [], by simp, by simpa using h s log hp⟩

theorem modify' {f : σ → σ} {Q : Except ε PUnit → σ → List ν → Prop}
    (h : ∀ s log, P s log → Q (.ok ⟨⟩) (f s) log) : Hoare P (modify f) Q :=
  fun s log hp => ⟨.ok ⟨⟩, f s, [], by simp, by simpa using h s log hp⟩

theorem spawn' {m : Prog Unit ε ν α} {T : Except ε α → Unit → List ν → Prop}
    {Q : Except ε (Except ε α) → σ → List ν → Prop} (hm : Triple m () T)
    (h : ∀ r evs s log, T r () evs → P s log → Q (.ok r) s (log ++ evs)) : Hoare P (spawn m) Q := by
  intro s log hp
  obtain ⟨r, s', evs, hrun, ht⟩ := hm []
  exact ⟨.ok r, s, evs, by simp [hrun], h r evs s log ht hp⟩

theorem bind {f : α → Prog σ ε ν β} {R : Except ε β → σ → List ν → Prop} (hm : Hoare P m Q)
    (hok : ∀ a, Hoare (Q (.ok a)) (f a) R)
    (herr : ∀ e s log, Q (.error e) s log → R (.error e) s log) :
    Hoare P (m >>= f) R := by
  intro s log hp
  obtain ⟨r, s', evs, hrun, hq⟩ := hm s log hp
  cases r with
  | ok a =>
    obtain ⟨r', s'', evs', hrun', hr⟩ := hok a s' (log ++ evs) hq
    refine ⟨r', s'', evs ++ evs', ?_, by simpa using hr⟩
    rw [run_bind_ok hrun, hrun', List.append_assoc]
  | error e => exact ⟨.error e, s', evs, run_bind_error hrun, herr e s' _ hq⟩

theorem tryCatch' {h : ε → Prog σ ε ν α} {R : Except ε α → σ → List ν → Prop} (hm : Hoare P m Q)
    (hok : ∀ a s log, Q (.ok a) s log → R (.ok a) s log)
    (herr : ∀ e, Hoare (Q (.error e)) (h e) R) : Hoare P (tryCatch m h) R := by
  intro s log hp
  obtain ⟨r, s', evs, hrun, hq⟩ := hm s log hp
  cases r with
  | ok a =>
    refine ⟨.ok a, s', evs, ?_, hok a s' _ hq⟩
    rw [run_tryCatch, hrun]
  | error e =>
    obtain ⟨r', s'', evs', hrun', hr⟩ := herr e s' (log ++ evs) hq
    refine ⟨r', s'', evs ++ evs', ?_, by simpa using hr⟩
    rw [run_tryCatch, hrun]
    simp only
    rw [hrun', List.append_assoc]

/-- A fact about the log that no further event undoes is kept. -/
theorem frame {F : List ν → Prop} (h : Hoare P m Q) (hF : ∀ log evs, F log → F (log ++ evs)) :
    Hoare (fun s log => P s log ∧ F log) m fun r s log => Q r s log ∧ F log := by
  rintro s log ⟨hp, hf⟩
  obtain ⟨r, s', evs, hrun, hq⟩ := h s log hp
  exact ⟨r, s', evs, hrun, hq, hF _ _ hf⟩

theorem each' {f : β → Prog σ ε ν Unit} {bs : List β}
    (h : ∀ b ∈ bs, Hoare P (f b) fun _ => P) : Hoare P (each f bs) fun _ => P := by
  induction bs with
  | nil => exact pure' fun _ _ hp => hp
  | cons b bs ih =>
    refine bind (h b (by simp)) (fun _ => ?_) (fun _ _ _ hp => hp)
    exact ih fun c hc => h c (by simp [hc])

end Hoare

-- ---------------------------------------------------------------------------
-- Programs that only call
-- ---------------------------------------------------------------------------

/-- `m` leaves the state alone, and every event that it adds to the log is in `P`. -/
def Emits (P : ν → Prop) (m : Prog σ ε ν α) : Prop :=
  ∀ s, Triple m s fun _ s' evs => s' = s ∧ ∀ e ∈ evs, P e

namespace Emits

variable {P P' : ν → Prop} {m : Prog σ ε ν α}

theorem mono (h : Emits P m) (hP : ∀ e, P e → P' e) : Emits P' m := by
  intro s
  exact (h s).mono fun _ _ _ ⟨hs, hevs⟩ => ⟨hs, fun e he => hP e (hevs e he)⟩

theorem events (h : Emits P m) (s : σ) : Triple m s fun _ _ evs => ∀ e ∈ evs, P e :=
  (h s).mono fun _ _ _ ⟨_, hevs⟩ => hevs

theorem pure' (a : α) : Emits P (pure a : Prog σ ε ν α) := by
  intro s
  exact .pure' (by simp)

theorem throw' (e : ε) : Emits P (throw e : Prog σ ε ν α) := by
  intro s
  exact .throw' (by simp)

theorem get' : Emits P (get : Prog σ ε ν σ) := fun _ => .get' (by simp)

theorem call' {reply : List ν → Except ε α} {event : Except ε α → ν} (h : ∀ r, P (event r)) :
    Emits P (call reply event : Prog σ ε ν α) := by
  intro s
  exact .call' fun r => by simpa using h r

theorem bind {f : α → Prog σ ε ν β} (hm : Emits P m) (hf : ∀ a, Emits P (f a)) :
    Emits P (m >>= f) := by
  intro s
  refine .bind (hm s) ?_ fun _ _ _ h => h
  rintro a s' evs ⟨rfl, hevs⟩
  refine (hf a s').mono fun r s'' evs' ⟨hs, hevs'⟩ => ⟨hs, fun e he => ?_⟩
  exact (List.mem_append.mp he).elim (hevs e) (hevs' e)

theorem tryCatch' {h : ε → Prog σ ε ν α} (hm : Emits P m) (hh : ∀ e, Emits P (h e)) :
    Emits P (tryCatch m h) := by
  intro s
  refine .tryCatch' (hm s) (fun _ _ _ h => h) ?_
  rintro e s' evs ⟨rfl, hevs⟩
  refine (hh e s').mono fun r s'' evs' ⟨hs, hevs'⟩ => ⟨hs, fun e he => ?_⟩
  exact (List.mem_append.mp he).elim (hevs e) (hevs' e)

end Emits

/-- All that `m` adds to the log is in `P`, whatever becomes of the state. -/
def Logs (P : ν → Prop) (m : Prog σ ε ν α) : Prop :=
  ∀ s, Triple m s fun _ _ evs => ∀ e ∈ evs, P e

namespace Logs

variable {P : ν → Prop} {m : Prog σ ε ν α}

theorem pure' (a : α) : Logs P (pure a : Prog σ ε ν α) := fun _ => .pure' (by simp)

theorem throw' (e : ε) : Logs P (throw e : Prog σ ε ν α) := fun _ => .throw' (by simp)

theorem get' : Logs P (get : Prog σ ε ν σ) := fun _ => .get' (by simp)

theorem modify' (f : σ → σ) : Logs P (modify f : Prog σ ε ν PUnit) := fun _ => .modify' (by simp)

theorem call' {reply : List ν → Except ε α} {event : Except ε α → ν} (h : ∀ r, P (event r)) :
    Logs P (call reply event : Prog σ ε ν α) :=
  fun _ => .call' fun r => by simpa using h r

theorem bind {f : α → Prog σ ε ν β} (hm : Logs P m) (hf : ∀ a, Logs P (f a)) :
    Logs P (m >>= f) := by
  intro s
  refine .bind (hm s) (fun a s' evs hevs => ?_) fun _ _ _ h => h
  refine (hf a s').mono fun r s'' evs' hevs' e he => ?_
  exact (List.mem_append.mp he).elim (hevs e) (hevs' e)

theorem tryCatch' {h : ε → Prog σ ε ν α} (hm : Logs P m) (hh : ∀ e, Logs P (h e)) :
    Logs P (tryCatch m h) := by
  intro s
  refine .tryCatch' (hm s) (fun _ _ _ h => h) fun e s' evs hevs => ?_
  refine (hh e s').mono fun r s'' evs' hevs' e he => ?_
  exact (List.mem_append.mp he).elim (hevs e) (hevs' e)

theorem withFinally' {m f : Prog σ ε ν Unit} (hm : Logs P m) (hf : Logs P f) :
    Logs P (withFinally m f) :=
  .bind (.tryCatch' hm fun e => .bind hf fun _ => .throw' e) fun _ => hf

theorem each' {f : β → Prog σ ε ν Unit} {bs : List β} (h : ∀ b ∈ bs, Logs P (f b)) :
    Logs P (each f bs) := by
  induction bs with
  | nil => exact .pure' ()
  | cons b bs ih => exact .bind (h b (by simp)) fun _ => ih fun c hc => h c (by simp [hc])

theorem mem_newEvents (h : Logs P m) (s : σ) (log : List ν) : ∀ e ∈ newEvents m s log, P e := by
  obtain ⟨r, s', evs, hrun, hevs⟩ := h s log
  rw [newEvents_of_run hrun]
  exact hevs

end Logs

end Prog
