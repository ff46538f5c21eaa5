import Mathlib.Data.Finset.Basic
import Mathlib.Data.Finset.Insert
import Mathlib.Logic.Function.Basic
import ShellTests.Lib.Machine

/-!
# The files that shells put on the CloudShell server

`ShellHandler.create` and `ShellHandler.finish` of any number of shells, one
thread each, over the two directories that they share: the offline PyPI and the
TOSCA standards. A step is one call to the server. Each call may raise, and a
call that raises may have had its effect; a listing that is denied is taken for
an empty one.
-/

namespace ShellTests.ServerFiles

open Machine

/-- What a thread reads of its `ShellConfig`: the packages in the archive at
`dependencies_path` and the names of the `extra_standards_paths`. -/
structure Conf where
  dependencies : Option (List String) := none
  extraStandards : List String := []
  deriving DecidableEq, Repr

/-- The next call of a thread. In `finish`, `raised` tells whether it runs in
the `except` branch of `prepare`; at its end, `listed` tells whether the files of
the offline PyPI were listed. -/
inductive Pc
  | idle
  | putPackage (name : String) (left : List String)
  | listStandards
  | putStandard (installed : List String) (name : String) (left : List String)
  | install
  | prepared
  | removeShell (raised : Bool)
  | listPypi (raised : Bool)
  | removePackage (raised : Bool) (name : String) (left : List String)
  | ended (raised listed : Bool)
  -- the archive has no readable definition, so there is no handler to finish
  | unread
  deriving DecidableEq, Repr

structure State (ι : Type) where
  pypi : Finset String
  standards : Finset String
  pc : ι → Pc

inductive Act (ι : Type)
  | next (t : ι)
  -- `ls` answers with the files of the directory, in any order
  | list (t : ι) (names : List String)
  -- "Unable to open directory": `ls` answers with no files
  | denied (t : ι)
  -- the call raises; `took` tells whether it had its effect all the same
  | fail (t : ι) (took : Bool)
  -- `HandlerStorage.finish` comes to the handler
  | finish (t : ι)
  deriving DecidableEq

/-- `excluded` of `get_file_names_from_offline_pypi`. -/
def excluded : List String := [".", "..", "PlaceHolder.txt"]

def State.goto [DecidableEq ι] (s : State ι) (t : ι) (p : Pc) : State ι :=
  { s with pc := Function.update s.pc t p }

section
variable (hasSmb : Bool) (conf : Conf)

def afterPackages : Pc :=
  if hasSmb ∧ conf.extraStandards ≠ [] then .listStandards else .install

/-- The loop of `add_dependencies_to_offline_pypi`. -/
def nextPackage : List String → Pc
  | [] => afterPackages hasSmb conf
  | name :: left => .putPackage name left

/-- `_store_extra_files` up to its first call. -/
def start : Pc :=
  match conf.dependencies with
  | some names => if hasSmb then nextPackage hasSmb conf names else afterPackages hasSmb conf
  | none => afterPackages hasSmb conf

/-- The loop of `add_extra_standards`. -/
def nextStandard (installed : List String) : List String → Pc
  | [] => .install
  | name :: left =>
    if name ∈ installed then nextStandard installed left else .putStandard installed name left

def afterRemoveShell (raised : Bool) : Pc :=
  if conf.dependencies.isSome ∧ hasSmb then .listPypi raised else .ended raised false

end

/-- The loop of `clear_offline_pypi`. -/
def nextRemoval (raised : Bool) : List String → Pc
  | [] => .ended raised true
  | name :: left => .removePackage raised name left

section
variable {ι : Type} [DecidableEq ι] (hasSmb : Bool) (conf : ι → Conf)

def next (s : State ι) (t : ι) : Option (State ι) :=
  match s.pc t with
  | .idle => some (s.goto t (start hasSmb (conf t)))
  | .putPackage name left =>
    some { s.goto t (nextPackage hasSmb (conf t) left) with pypi := insert name s.pypi }
  | .putStandard installed name left =>
    some { s.goto t (nextStandard installed left) with standards := insert name s.standards }
  | .install => some (s.goto t .prepared)
  -- also where the shell is not there or is in use
  | .removeShell raised => some (s.goto t (afterRemoveShell hasSmb (conf t) raised))
  | .removePackage raised name left =>
    some { s.goto t (nextRemoval raised left) with pypi := s.pypi.erase name }
  | .listStandards | .listPypi _ | .prepared | .ended _ _ | .unread => none

def fail (s : State ι) (t : ι) (took : Bool) : Option (State ι) :=
  match s.pc t with
  | .idle => some (s.goto t .unread)
  | .putPackage name _ =>
    some { s.goto t (.removeShell true) with pypi := if took then insert name s.pypi else s.pypi }
  | .listStandards | .install => some (s.goto t (.removeShell true))
  | .putStandard _ name _ =>
    some { s.goto t (.removeShell true) with
      standards := if took then insert name s.standards else s.standards }
  -- what `finish` raises takes the place of what `prepare` caught
  | .removeShell _ | .listPypi _ => some (s.goto t (.ended true false))
  | .removePackage _ name _ =>
    some { s.goto t (.ended true true) with pypi := if took then s.pypi.erase name else s.pypi }
  | .prepared | .ended _ _ | .unread => none

def step (s : State ι) : Act ι → Option (State ι)
  | .next t => next hasSmb conf s t
  | .list t names =>
    match s.pc t with
    | .listStandards =>
      if names.toFinset = s.standards then
        some (s.goto t (nextStandard names (conf t).extraStandards))
      else none
    | .listPypi raised =>
      if names.toFinset = s.pypi then
        some (s.goto t (nextRemoval raised (names.filter (· ∉ excluded))))
      else none
    | _ => none
  | .denied t =>
    match s.pc t with
    | .listStandards => some (s.goto t (nextStandard [] (conf t).extraStandards))
    | .listPypi raised => some (s.goto t (.ended raised false))
    | _ => none
  | .fail t took => fail s t took
  | .finish t => if s.pc t = .prepared then some (s.goto t (.removeShell false)) else none

end

def init (pypi standards : Finset String) (s : State ι) : Prop :=
  s = { pypi, standards, pc := fun _ => .idle }

-- ---------------------------------------------------------------------------
-- What a step can do
-- ---------------------------------------------------------------------------

variable {ι : Type} [DecidableEq ι] {hasSmb : Bool} {conf : ι → Conf} {s s' : State ι} {t : ι}
  {a : Act ι}

def Pc.storing : Pc → Bool
  | .putPackage _ _ | .listStandards | .putStandard _ _ _ | .install => true
  | _ => false

def Pc.finishing : Pc → Bool
  | .removeShell _ | .listPypi _ | .removePackage _ _ _ => true
  | _ => false

/-- The thread has listed the offline PyPI to clear it. -/
def Pc.swept : Pc → Bool
  | .removePackage _ _ _ => true
  | .ended _ listed => listed
  | _ => false

/-- The steps, each with the thread that moves and the state it leaves. -/
inductive Moves (hasSmb : Bool) (conf : ι → Conf) (s : State ι) (t : ι) : Act ι → State ι → Prop
  | start : s.pc t = .idle → Moves hasSmb conf s t (.next t) (s.goto t (start hasSmb (conf t)))
  | unread : s.pc t = .idle → Moves hasSmb conf s t (.fail t took) (s.goto t .unread)
  | putPackage : s.pc t = .putPackage name left →
      Moves hasSmb conf s t (.next t)
        { s.goto t (nextPackage hasSmb (conf t) left) with pypi := insert name s.pypi }
  | listStandards : s.pc t = .listStandards → names.toFinset = s.standards →
      Moves hasSmb conf s t (.list t names)
        (s.goto t (nextStandard names (conf t).extraStandards))
  | standardsDenied : s.pc t = .listStandards →
      Moves hasSmb conf s t (.denied t) (s.goto t (nextStandard [] (conf t).extraStandards))
  | putStandard : s.pc t = .putStandard installed name left →
      Moves hasSmb conf s t (.next t)
        { s.goto t (nextStandard installed left) with standards := insert name s.standards }
  | installed : s.pc t = .install → Moves hasSmb conf s t (.next t) (s.goto t .prepared)
  | prepareRaises : (s.pc t).storing = true → s.pypi ⊆ pypi → s.standards ⊆ standards →
      (∀ name ∈ pypi, name ∈ s.pypi ∨ ∃ left, s.pc t = .putPackage name left) →
      Moves hasSmb conf s t (.fail t took) { s.goto t (.removeShell true) with pypi, standards }
  | finish : s.pc t = .prepared →
      Moves hasSmb conf s t (.finish t) (s.goto t (.removeShell false))
  | shellRemoved : s.pc t = .removeShell raised →
      Moves hasSmb conf s t (.next t) (s.goto t (afterRemoveShell hasSmb (conf t) raised))
  | listPypi : s.pc t = .listPypi raised → names.toFinset = s.pypi →
      Moves hasSmb conf s t (.list t names)
        (s.goto t (nextRemoval raised (names.filter (· ∉ excluded))))
  | pypiDenied : s.pc t = .listPypi raised →
      Moves hasSmb conf s t (.denied t) (s.goto t (.ended raised false))
  | removePackage : s.pc t = .removePackage raised name left →
      Moves hasSmb conf s t (.next t)
        { s.goto t (nextRemoval raised left) with pypi := s.pypi.erase name }
  | finishRaises : (s.pc t).finishing = true → pypi ⊆ s.pypi →
      (∀ name ∈ s.pypi, name ∈ pypi ∨ ∃ raised left, s.pc t = .removePackage raised name left) →
      Moves hasSmb conf s t (.fail t took) { s.goto t (.ended true (s.pc t).swept) with pypi }

theorem next_moves (h : next hasSmb conf s t = some s') : Moves hasSmb conf s t (.next t) s' := by
  unfold next at h
  split at h <;> cases h
  case h_1 hp => exact .start hp
  case h_2 hp => exact .putPackage hp
  case h_3 hp => exact .putStandard hp
  case h_4 hp => exact .installed hp
  case h_5 hp => exact .shellRemoved hp
  case h_6 hp => exact .removePackage hp

theorem fail_moves (h : fail s t took = some s') : Moves hasSmb conf s t (.fail t took) s' := by
  unfold fail at h
  split at h <;> cases h
  case h_1 hp => exact .unread hp
  case h_2 name left hp =>
    refine .prepareRaises (by rw [hp]; rfl) ?_ (by rfl) fun n hn => ?_
    · cases took <;> simp
    · rw [hp]
      cases took
      · exact .inl hn
      · exact (Finset.mem_insert.mp hn).elim (fun h => .inr ⟨left, by rw [h]⟩) .inl
  case h_3 hp => exact .prepareRaises (by rw [hp]; rfl) (by rfl) (by rfl) fun _ => .inl
  case h_4 hp => exact .prepareRaises (by rw [hp]; rfl) (by rfl) (by rfl) fun _ => .inl
  case h_5 hp =>
    refine .prepareRaises (by rw [hp]; rfl) (by rfl) ?_ fun _ => .inl
    cases took <;> simp
  case h_6 hp =>
    have hm : Moves hasSmb conf s t (.fail t took)
        { s.goto t (.ended true (s.pc t).swept) with pypi := s.pypi } :=
      .finishRaises (by rw [hp]; rfl) (by rfl) fun _ => .inl
    rwa [hp] at hm
  case h_7 hp =>
    have hm : Moves hasSmb conf s t (.fail t took)
        { s.goto t (.ended true (s.pc t).swept) with pypi := s.pypi } :=
      .finishRaises (by rw [hp]; rfl) (by rfl) fun _ => .inl
    rwa [hp] at hm
  case h_8 raised name left hp =>
    have hm : Moves hasSmb conf s t (.fail t took) { s.goto t (.ended true (s.pc t).swept) with
        pypi := if took then s.pypi.erase name else s.pypi } := by
      refine .finishRaises (by rw [hp]; rfl) ?_ fun n hn => ?_
      · cases took
        · exact subset_rfl
        · exact Finset.erase_subset _ _
      · by_cases hname : n = name
        · exact .inr ⟨raised, left, by rw [hp, hname]⟩
        · cases took
          · exact .inl hn
          · exact .inl (Finset.mem_erase.mpr ⟨hname, hn⟩)
    rwa [hp] at hm

theorem step_moves (h : step hasSmb conf s a = some s') : ∃ t, Moves hasSmb conf s t a s' := by
  cases a with
  | next t => exact ⟨t, next_moves h⟩
  | list t names =>
    simp only [step] at h
    split at h
    · split at h <;> cases h
      exact ⟨t, .listStandards (by assumption) (by assumption)⟩
    · split at h <;> cases h
      exact ⟨t, .listPypi (by assumption) (by assumption)⟩
    · cases h
  | denied t =>
    simp only [step] at h
    split at h <;> cases h
    · exact ⟨t, .standardsDenied (by assumption)⟩
    · exact ⟨t, .pypiDenied (by assumption)⟩
  | fail t took => exact ⟨t, fail_moves h⟩
  | finish t =>
    simp only [step] at h
    split at h <;> cases h
    exact ⟨t, .finish (by assumption)⟩

-- ---------------------------------------------------------------------------
-- What a shell finds when it is installed
-- ---------------------------------------------------------------------------

/-- Some shell with dependencies has begun to clear the offline PyPI. -/
def Swept (conf : ι → Conf) (s : State ι) : Prop :=
  ∃ u, (conf u).dependencies.isSome ∧ (s.pc u).swept = true

/-- `name` is in the offline PyPI as far as its clearing goes. -/
def Here (conf : ι → Conf) (s : State ι) (name : String) : Prop := name ∈ s.pypi ∨ Swept conf s

def PackagesIn (here : String → Prop) (hasSmb : Bool) (c : Conf) : Prop :=
  hasSmb = true → ∀ names, c.dependencies = some names → ∀ name ∈ names, here name

def Pc.Done (here : String → Prop) (standards : Finset String) (hasSmb : Bool) (c : Conf) :
    Pc → Prop
  | .putPackage name left =>
    ∃ pre, c.dependencies = some (pre ++ name :: left) ∧ ∀ n ∈ pre, here n
  | .listStandards => PackagesIn here hasSmb c
  | .putStandard installed name left =>
    PackagesIn here hasSmb c ∧ (∀ n ∈ installed, n ∈ standards) ∧
      ∀ n ∈ c.extraStandards, n ∈ standards ∨ n ∈ name :: left
  | .install | .prepared =>
    PackagesIn here hasSmb c ∧ (hasSmb = true → ∀ n ∈ c.extraStandards, n ∈ standards)
  | _ => True

section
variable {here here' : String → Prop} {standards standards' : Finset String} {c : Conf} {p : Pc}

theorem PackagesIn.mono (h : PackagesIn here hasSmb c) (hh : ∀ n, here n → here' n) :
    PackagesIn here' hasSmb c := fun hs names hn n hm => hh n (h hs names hn n hm)

theorem Pc.Done.mono (h : p.Done here standards hasSmb c) (hh : ∀ n, here n → here' n)
    (hs : standards ⊆ standards') : p.Done here' standards' hasSmb c := by
  cases p with
  | putPackage name left =>
    obtain ⟨pre, hpre, hn⟩ := h
    exact ⟨pre, hpre, fun n hm => hh n (hn n hm)⟩
  | listStandards => exact PackagesIn.mono h hh
  | putStandard installed name left =>
    exact ⟨h.1.mono hh, fun n hn => hs (h.2.1 n hn), fun n hn => (h.2.2 n hn).imp (@hs n) id⟩
  | install => exact ⟨h.1.mono hh, fun hsmb n hn => hs (h.2 hsmb n hn)⟩
  | prepared => exact ⟨h.1.mono hh, fun hsmb n hn => hs (h.2 hsmb n hn)⟩
  | _ => trivial

theorem done_afterPackages (h : PackagesIn here hasSmb c) :
    (afterPackages hasSmb c).Done here standards hasSmb c := by
  unfold afterPackages
  split
  · exact h
  · rename_i hno
    refine ⟨h, fun hsmb n hn => ?_⟩
    have hnil : c.extraStandards = [] := by
      by_contra hne
      exact hno ⟨hsmb, hne⟩
    simp [hnil] at hn

theorem done_nextPackage (pre : List String) (h : c.dependencies = some (pre ++ left))
    (hpre : ∀ n ∈ pre, here n) :
    (nextPackage hasSmb c left).Done here standards hasSmb c := by
  cases left with
  | nil =>
    refine done_afterPackages fun _ names hn n hm => hpre n ?_
    rw [h, List.append_nil] at hn
    obtain rfl := Option.some.inj hn
    exact hm
  | cons name left => exact ⟨pre, h, hpre⟩

theorem done_start : (start hasSmb c).Done here standards hasSmb c := by
  unfold start
  split
  · rename_i names hd
    split
    · exact done_nextPackage [] hd (by simp)
    · rename_i hsmb
      exact done_afterPackages fun hs => absurd hs hsmb
  · rename_i hd
    exact done_afterPackages fun _ names hn => by simp [hd] at hn

theorem done_nextStandard (hp : PackagesIn here hasSmb c) (hi : ∀ n ∈ installed, n ∈ standards)
    (h : ∀ n ∈ c.extraStandards, n ∈ standards ∨ n ∈ left) :
    (nextStandard installed left).Done here standards hasSmb c := by
  induction left with
  | nil => exact ⟨hp, fun _ n hn => (h n hn).resolve_right (by simp)⟩
  | cons name left ih =>
    unfold nextStandard
    split
    · rename_i hin
      refine ih fun n hn => ?_
      obtain hs | hm := h n hn
      · exact .inl hs
      · obtain rfl | hm := List.mem_cons.mp hm
        · exact .inl (hi _ hin)
        · exact .inr hm
    · exact ⟨hp, hi, h⟩

end

/-- What the configuration and the directories at the start say of a thread's next call. -/
def Pc.Fits (standards₀ : Finset String) (hasSmb : Bool) (c : Conf) : Pc → Prop
  | .putStandard installed name _ =>
    (installed = [] ∨ ∀ n ∈ standards₀, n ∈ installed) ∧ name ∉ installed
  | .listPypi _ => c.dependencies.isSome ∧ hasSmb = true
  | .removePackage _ name left =>
    (c.dependencies.isSome ∧ hasSmb = true) ∧ ∀ n ∈ name :: left, n ∉ excluded
  | _ => True

section
variable {standards₀ pypi₀ : Finset String} {c : Conf}

theorem afterPackages_cases (hasSmb : Bool) (c : Conf) :
    afterPackages hasSmb c = .listStandards ∨ afterPackages hasSmb c = .install := by
  unfold afterPackages
  split
  · exact .inl rfl
  · exact .inr rfl

theorem nextPackage_cases (hasSmb : Bool) (c : Conf) (left : List String) :
    (∃ name rest, nextPackage hasSmb c left = .putPackage name rest) ∨
      nextPackage hasSmb c left = .listStandards ∨ nextPackage hasSmb c left = .install := by
  cases left with
  | nil => exact .inr (afterPackages_cases hasSmb c)
  | cons name rest => exact .inl ⟨name, rest, rfl⟩

theorem start_cases (hasSmb : Bool) (c : Conf) :
    (∃ name rest, start hasSmb c = .putPackage name rest) ∨
      start hasSmb c = .listStandards ∨ start hasSmb c = .install := by
  unfold start
  split
  · split
    · exact nextPackage_cases hasSmb c _
    · exact .inr (afterPackages_cases hasSmb c)
  · exact .inr (afterPackages_cases hasSmb c)

theorem fits_nextStandard (hi : installed = [] ∨ ∀ n ∈ standards₀, n ∈ installed)
    (left : List String) :
    (nextStandard installed left).Fits standards₀ hasSmb c := by
  induction left with
  | nil => trivial
  | cons name left ih =>
    unfold nextStandard
    split
    · exact ih
    · exact ⟨hi, by assumption⟩

theorem fits_afterRemoveShell (raised : Bool) :
    (afterRemoveShell hasSmb c raised).Fits standards₀ hasSmb c := by
  unfold afterRemoveShell
  split
  · assumption
  · trivial

theorem fits_nextRemoval (hc : c.dependencies.isSome ∧ hasSmb = true)
    (hl : ∀ n ∈ left, n ∉ excluded) (raised : Bool) :
    (nextRemoval raised left).Fits standards₀ hasSmb c := by
  cases left with
  | nil => trivial
  | cons name left => exact ⟨hc, hl⟩

theorem moves_fits (h : Moves hasSmb conf s t a s') (h0 : standards₀ ⊆ s.standards)
    (hf : ∀ u, (s.pc u).Fits standards₀ hasSmb (conf u)) (u : ι) :
    (s'.pc u).Fits standards₀ hasSmb (conf u) := by
  by_cases hut : u = t
  · subst hut
    have hu := hf u
    cases h <;> simp only [State.goto, Function.update_self]
    case start =>
      obtain ⟨name, rest, h⟩ | h | h := start_cases hasSmb (conf u) <;> rw [h] <;> trivial
    case putPackage left hp =>
      obtain ⟨name, rest, h⟩ | h | h := nextPackage_cases hasSmb (conf u) left <;> rw [h] <;>
        trivial
    case listStandards names hp hn =>
      rw [← hn] at h0
      exact fits_nextStandard (.inr fun n hm => List.mem_toFinset.mp (h0 hm)) _
    case standardsDenied => exact fits_nextStandard (.inl rfl) _
    case putStandard hp =>
      rw [hp] at hu
      exact fits_nextStandard hu.1 _
    case shellRemoved => exact fits_afterRemoveShell _
    case listPypi hp hn =>
      rw [hp] at hu
      exact fits_nextRemoval hu (by simp) _
    case removePackage hp =>
      rw [hp] at hu
      exact fits_nextRemoval hu.1 (fun n hn => hu.2 n (List.mem_cons_of_mem _ hn)) _
    all_goals trivial
  · have hu : s'.pc u = s.pc u := by cases h <;> simp [State.goto, hut]
    rw [hu]
    exact hf u

theorem moves_swept (h : Moves hasSmb conf s t a s') (hs : Swept conf s) : Swept conf s' := by
  obtain ⟨u, hd, hu⟩ := hs
  by_cases hut : u = t
  · subst hut
    refine ⟨u, hd, ?_⟩
    cases h
    case removePackage raised name left hp =>
      cases left <;> simp [State.goto, nextRemoval, Pc.swept]
    case finishRaises =>
      simp only [State.goto, Function.update_self]
      exact hu
    all_goals simp_all [Pc.swept, Pc.storing]
    case prepareRaises hp _ _ _ =>
      revert hp hu
      cases s.pc u <;> simp
  · refine ⟨u, hd, ?_⟩
    cases h <;> simpa [State.goto, hut] using hu

theorem moves_here (h : Moves hasSmb conf s t a s') (hf : (s.pc t).Fits standards₀ hasSmb (conf t))
    (hn : Here conf s name) : Here conf s' name := by
  obtain hp | hs := hn
  · by_cases hin : name ∈ s'.pypi
    · exact .inl hin
    · have hrem : ∃ raised n left, s.pc t = .removePackage raised n left := by
        cases h
        case prepareRaises hsub _ _ => exact absurd (hsub hp) hin
        case removePackage => exact ⟨_, _, _, by assumption⟩
        case finishRaises hsub hor =>
          obtain h | ⟨raised, left, h⟩ := hor name hp
          · exact absurd h hin
          · exact ⟨_, _, _, h⟩
        all_goals simp_all [State.goto]
      obtain ⟨raised, n, left, hpc⟩ := hrem
      rw [hpc] at hf
      exact .inr (moves_swept h ⟨t, hf.1.1, by rw [hpc]; rfl⟩)
  · exact .inr (moves_swept h hs)

theorem moves_standards (h : Moves hasSmb conf s t a s') : s.standards ⊆ s'.standards := by
  cases h
  case putStandard => exact Finset.subset_insert _ _
  case prepareRaises hs _ => exact hs
  all_goals exact subset_rfl

theorem done_nextRemoval {here : String → Prop} {standards : Finset String} (raised : Bool)
    (left : List String) : (nextRemoval raised left).Done here standards hasSmb c := by
  cases left <;> trivial

theorem moves_done (h : Moves hasSmb conf s t a s')
    (hf : (s.pc t).Fits standards₀ hasSmb (conf t))
    (hd : ∀ u, (s.pc u).Done (Here conf s) s.standards hasSmb (conf u)) (u : ι) :
    (s'.pc u).Done (Here conf s') s'.standards hasSmb (conf u) := by
  have hh : ∀ n, Here conf s n → Here conf s' n := fun n => moves_here h hf
  have hu := (hd u).mono hh (moves_standards h)
  by_cases hut : u = t
  · subst hut
    cases h <;> simp only [State.goto, Function.update_self] at hh hu ⊢
    case start => exact done_start
    case putPackage name left hp =>
      rw [hp] at hu
      obtain ⟨pre, hc, hpre⟩ := hu
      refine done_nextPackage (pre ++ [name]) (by simpa using hc) fun n hn => ?_
      obtain hn | hn := List.mem_append.mp hn
      · exact hpre n hn
      · exact .inl (by simp_all)
    case listStandards names hp hn =>
      rw [hp] at hu
      refine done_nextStandard hu (fun n hm => ?_) fun n hm => .inr hm
      rw [← hn]
      exact List.mem_toFinset.mpr hm
    case standardsDenied hp =>
      rw [hp] at hu
      exact done_nextStandard hu (by simp) fun n hm => .inr hm
    case putStandard installed name left hp =>
      rw [hp] at hu
      refine done_nextStandard hu.1 hu.2.1 fun n hm => ?_
      obtain hs | hm := hu.2.2 n hm
      · exact .inl hs
      · obtain rfl | hm := List.mem_cons.mp hm
        · exact .inl (Finset.mem_insert_self _ _)
        · exact .inr hm
    case installed hp =>
      rw [hp] at hu
      exact hu
    case shellRemoved raised hp =>
      unfold afterRemoveShell
      split <;> trivial
    case listPypi => exact done_nextRemoval _ _
    case removePackage => exact done_nextRemoval _ _
    all_goals trivial
  · have hpc : s'.pc u = s.pc u := by cases h <;> simp [State.goto, hut]
    rw [hpc]
    exact hu

/-- The package is in the dependencies of a shell. -/
def Wanted (conf : ι → Conf) (name : String) : Prop :=
  ∃ t names, (conf t).dependencies = some names ∧ name ∈ names

theorem moves_wanted (h : Moves hasSmb conf s t a s')
    (hd : ∀ u, (s.pc u).Done (Here conf s) s.standards hasSmb (conf u))
    (hw : ∀ name ∈ s.pypi, name ∈ pypi₀ ∨ Wanted conf name) :
    ∀ name ∈ s'.pypi, name ∈ pypi₀ ∨ Wanted conf name := by
  have hput (name : String) (left : List String) (hp : s.pc t = .putPackage name left) :
      Wanted conf name := by
    have ht := hd t
    rw [hp] at ht
    obtain ⟨pre, hc, -⟩ := ht
    exact ⟨t, _, hc, by simp⟩
  intro name hn
  cases h
  case putPackage hp =>
    obtain rfl | hn := Finset.mem_insert.mp hn
    · exact .inr (hput _ _ hp)
    · exact hw name hn
  case prepareRaises hor =>
    obtain h | ⟨left, hp⟩ := hor name hn
    · exact hw name h
    · exact .inr (hput _ _ hp)
  case removePackage => exact hw name (Finset.mem_of_mem_erase hn)
  case finishRaises hsub _ => exact hw name (hsub hn)
  all_goals exact hw name hn

theorem moves_excluded (h : Moves hasSmb conf s t a s')
    (hf : (s.pc t).Fits standards₀ hasSmb (conf t)) (hn : name ∈ s.pypi) (he : name ∈ excluded) :
    name ∈ s'.pypi := by
  cases h
  case putPackage => exact Finset.mem_insert_of_mem hn
  case prepareRaises hsub _ _ => exact hsub hn
  case removePackage hp =>
    rw [hp] at hf
    refine Finset.mem_erase.mpr ⟨?_, hn⟩
    rintro rfl
    exact hf.2 name (by simp) he
  case finishRaises hor =>
    obtain h | ⟨raised, left, hp⟩ := hor name hn
    · exact h
    · rw [hp] at hf
      exact absurd he (hf.2 name (by simp))
  all_goals exact hn

structure Inv (pypi₀ standards₀ : Finset String) (hasSmb : Bool) (conf : ι → Conf)
    (s : State ι) : Prop where
  fits : ∀ t, (s.pc t).Fits standards₀ hasSmb (conf t)
  done : ∀ t, (s.pc t).Done (Here conf s) s.standards hasSmb (conf t)
  standards : standards₀ ⊆ s.standards
  kept : ∀ name ∈ pypi₀, Here conf s name
  excluded : ∀ name ∈ pypi₀, name ∈ excluded → name ∈ s.pypi
  wanted : ∀ name ∈ s.pypi, name ∈ pypi₀ ∨ Wanted conf name

omit [DecidableEq ι] in
theorem inv_init (h : init pypi₀ standards₀ s) : Inv pypi₀ standards₀ hasSmb conf s := by
  subst h
  exact ⟨fun _ => trivial, fun _ => trivial, subset_rfl, fun _ => .inl, fun _ hn _ => hn,
    fun _ => .inl⟩

theorem inv_moves (hi : Inv pypi₀ standards₀ hasSmb conf s) (h : Moves hasSmb conf s t a s') :
    Inv pypi₀ standards₀ hasSmb conf s' where
  fits := moves_fits h hi.standards hi.fits
  done := moves_done h (hi.fits t) hi.done
  standards := hi.standards.trans (moves_standards h)
  kept name hn := moves_here h (hi.fits t) (hi.kept name hn)
  excluded name hn he := moves_excluded h (hi.fits t) (hi.excluded name hn he) he
  wanted := moves_wanted h hi.done hi.wanted

theorem reach_inv {ok : State ι → Act ι → Prop}
    (h : Reach (step hasSmb conf) ok (init pypi₀ standards₀) s) :
    Inv pypi₀ standards₀ hasSmb conf s :=
  h.invariant (fun _ => inv_init) fun _ _ _ hi _ hs =>
    let ⟨_, hm⟩ := step_moves hs
    inv_moves hi hm

variable (conf) in
/-- A shell about to be installed: all its files are on the server, but for
packages where another shell has begun to clear the offline PyPI. -/
theorem installs_with_files (h : Reach (step hasSmb conf) free (init pypi₀ standards₀) s)
    (hsmb : hasSmb = true) (ht : s.pc t = .install) :
    (∀ names, (conf t).dependencies = some names → ∀ name ∈ names, name ∈ s.pypi ∨
      ∃ u ≠ t, (conf u).dependencies.isSome ∧ (s.pc u).swept = true) ∧
    ∀ name ∈ (conf t).extraStandards, name ∈ s.standards := by
  have hd := (reach_inv h).done t
  rw [ht] at hd
  refine ⟨fun names hn name hm => (hd.1 hsmb names hn name hm).imp id ?_, hd.2 hsmb⟩
  rintro ⟨u, hu, hs⟩
  refine ⟨u, ?_, hu, hs⟩
  rintro rfl
  simp [ht, Pc.swept] at hs

end

def twoShells : Nat → Conf
  | 0 => ⟨some ["a.whl", "b.whl"], ["s.yaml"]⟩
  | 1 => ⟨some ["a.whl"], []⟩
  | _ => {}

def onlyPlaceHolder : State Nat := ⟨{"PlaceHolder.txt"}, ∅, fun _ => .idle⟩

def secondGivesUp : List (Act Nat) :=
  [.next 0, .next 0, .next 1, .next 1, .fail 1 false, .next 1, .list 1 ["PlaceHolder.txt", "a.whl"],
    .next 1, .next 0, .list 0 [], .next 0]

theorem installs_with_files_gone :
    ∃ s : State Nat, (s.pc 0 = .install ∧ "a.whl" ∉ s.pypi) ∧
      ("b.whl" ∈ s.pypi ∨
        ∃ u ≠ 0, (twoShells u).dependencies.isSome ∧ (s.pc u).swept = true) ∧
      "s.yaml" ∈ s.standards := by
  have hrun : (run (step true twoShells) onlyPlaceHolder secondGivesUp).map
      (fun s => (s.pc 0, decide ("a.whl" ∈ s.pypi))) = some (.install, false) := by
    decide +kernel
  obtain ⟨s, hs, hp⟩ := Option.map_eq_some_iff.mp hrun
  obtain ⟨hpc, ha⟩ := Prod.mk.inj hp
  have h := installs_with_files twoShells (.of_free_run secondGivesUp rfl hs) rfl hpc
  exact ⟨s, ⟨hpc, of_decide_eq_false ha⟩, h.1 _ rfl _ (by simp), h.2 _ (by simp [twoShells])⟩

-- ---------------------------------------------------------------------------
-- What the shells leave behind
-- ---------------------------------------------------------------------------

/-- No call of a `finish` raises, and no listing of one is denied. -/
def Finishes (s : State ι) : Act ι → Prop
  | .fail t _ | .denied t => (s.pc t).finishing = false
  | _ => True

instance (s : State ι) (a : Act ι) : Decidable (Finishes s a) := by
  cases a <;> unfold Finishes <;> infer_instance

/-- The thread is not at its end, and has yet to list the offline PyPI or to
remove `name` from it. -/
def Pc.Owes (name : String) : Pc → Prop
  | .removePackage _ n left => name ∈ n :: left
  | .ended _ _ => False
  | _ => True

def Owed (conf : ι → Conf) (s : State ι) (name : String) : Prop :=
  ∃ t, (conf t).dependencies.isSome ∧ (s.pc t).Owes name

section
variable {pypi₀ standards₀ : Finset String}

/-- Every package that a clearing may remove is still to be removed by a shell. -/
def Covered (conf : ι → Conf) (s : State ι) : Prop :=
  ∀ name ∈ s.pypi, name ∈ excluded ∨ Owed conf s name

end

def bothFinish : List (Act Nat) :=
  secondGivesUp ++ [.next 0, .finish 0, .next 0, .list 0 ["b.whl", "PlaceHolder.txt"], .next 0]

section
variable {pypi₀ standards₀ : Finset String}

/-- What the shells make of the files that were there before the first of them. -/
structure Spares (pypi₀ standards₀ : Finset String) (conf : ι → Conf) (s : State ι) : Prop where
  packages : ∀ name ∈ pypi₀, name ∈ s.pypi ∨ name ∉ excluded ∧ Swept conf s
  added : ∀ name ∈ s.pypi, name ∈ pypi₀ ∨ Wanted conf name
  standards : standards₀ ⊆ s.standards
  overwrites : ∀ t installed name left, s.pc t = .putStandard installed name left →
    name ∈ standards₀ → installed = []

/-- In every run a standard stays and is written anew only after a listing that
was denied, and a package goes only where some shell has begun to clear. -/
theorem spares_files (h : Reach (step hasSmb conf) free (init pypi₀ standards₀) s) :
    Spares pypi₀ standards₀ conf s := by
  have hi := reach_inv h
  refine ⟨fun name hn => ?_, hi.wanted, hi.standards, fun t installed name left hp hn => ?_⟩
  · by_cases he : name ∈ excluded
    · exact .inl (hi.excluded name hn he)
    · exact (hi.kept name hn).imp id fun hs => ⟨he, hs⟩
  · have hf := hi.fits t
    rw [hp] at hf
    exact hf.1.resolve_right fun hall => hf.2 (hall name hn)

end

theorem spares_files_gone :
    ∃ s : State Nat, "s.yaml" ∈ s.standards ∧ Spares {"PlaceHolder.txt"} ∅ twoShells s := by
  have hrun : (run (step true twoShells) onlyPlaceHolder bothFinish).map
      (fun s => decide ("s.yaml" ∈ s.standards)) = some true := by
    decide +kernel
  obtain ⟨s, hs, hp⟩ := Option.map_eq_some_iff.mp hrun
  exact ⟨s, of_decide_eq_true hp, spares_files (.of_free_run bothFinish rfl hs)⟩

end ShellTests.ServerFiles
