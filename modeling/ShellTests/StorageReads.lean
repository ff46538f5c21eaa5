import Mathlib.Data.List.Perm.Basic
import ShellTests.StorageThreads

/-!
# The lists that the reads of a storage return

What the reads of one property do to each other is a small machine of its own,
the view of that property: its memo field, its lists, its reads and its
futures. A step of the storage is a step of one view, or changes none.
-/

namespace ShellTests.StorageThreads

open Machine

structure View where
  memo : Option Nat
  lists : Nat → List Entry
  reads : Nat → Option Pc
  -- the place of the conf that a future is for
  tasks : Nat → Option Nat

namespace View

variable (V : View)

def put (a : Nat) (pc : Pc) : View := { V with reads := Function.update V.reads a (some pc) }

def TasksOnce : Prop := ∀ k k' i, V.tasks k = some i → V.tasks k' = some i → k = k'

/-- `futures` are all futures there are, for the confs before place `i` in order. -/
def Mine (futures : List Nat) (i : Nat) : Prop :=
  futures.map V.tasks = (List.range i).map some ∧ ∀ k, V.tasks k ≠ none → k ∈ futures

end View

/-- Exactly one handler for each of `n` confs. -/
def OneEach (n : Nat) (handlers : List Entry) : Prop := (handlers.map (·.index)).Perm (List.range n)

def Pc.failed : Pc → Bool
  | .join .. | .collect _ (some _) | .finish (some _) _ | .raised _ => true
  | _ => false

def Pc.quiet : Pc → Bool
  | .check | .fetch | .returned _ => true
  | _ => false

/-- The steps of the reads of one property of `n` confs. -/
inductive ViewMoves (n : Nat) (V : View) : View → Prop
  | start : V.reads a = none → ViewMoves n V (V.put a .check)
  | checkNone : V.reads a = some .check → V.memo = none →
      (∀ b ≠ a, ∀ pc, V.reads b = some pc → pc.quiet) → ViewMoves n V (V.put a .publish)
  | checkSome : V.reads a = some .check → V.memo ≠ none →
      (∀ b ≠ a, ∀ pc, V.reads b = some pc → pc.quiet) → ViewMoves n V (V.put a .fetch)
  | publish : V.reads a = some .publish →
      ViewMoves n V ({ V with memo := some (V.memo.elim 0 (· + 1)) }.put a (.submit 0 []))
  | submit : V.reads a = some pc → pc = .submit i futures ∨ (∃ b, pc = .lookup i futures b) →
      i < n → V.tasks k = none →
      ViewMoves n V
        ({ V with tasks := Function.update V.tasks k (some i) }.put a
          (.submit (i + 1) (futures ++ [k])))
  | fork : V.reads a = some (.submit i futures) → ViewMoves n V (V.put a (.lookup i futures b))
  | submitted : V.reads a = some (.submit i futures) → ¬ i < n →
      ViewMoves n V (V.put a (.collect futures none))
  | collectOk : V.reads a = some (.collect futures exception) → entry.future ∈ futures →
      V.tasks entry.future = some entry.index → V.memo = some version →
      ViewMoves n V
        ({ V with lists := Function.update V.lists version (V.lists version ++ [entry]) }.put a
          (.collect (futures.erase entry.future) exception))
  | fail : V.reads a = some pc →
      pc.failed ∨ (∃ i futures b, pc = .lookup i futures b) ∨
        (∃ futures, pc = .collect futures none) →
      pc'.failed → pc'.futures ⊆ pc.futures → ViewMoves n V (V.put a pc')
  | collected : V.reads a = some (.collect [] none) → ViewMoves n V (V.put a .fetch)
  | fetch : V.reads a = some .fetch → V.memo = some version →
      ViewMoves n V (V.put a (.returned (V.lists version)))

-- ---------------------------------------------------------------------------
-- Reads that do not disturb each other
-- ---------------------------------------------------------------------------

def Building (n : Nat) (V : View) : Pc → Prop
  | .publish => V.memo = none ∧ (∀ version, V.lists version = []) ∧ ∀ k, V.tasks k = none
  | .submit i futures | .lookup i futures _ =>
    (∃ version, V.memo = some version ∧ V.lists version = []) ∧ i ≤ n ∧ V.Mine futures i
  | .collect futures none =>
    (∃ version, V.memo = some version ∧
      ((V.lists version).map (·.index) ++ futures.filterMap V.tasks).Perm (List.range n)) ∧
        V.TasksOnce
  | _ => False

/-- The list is not begun, or one read builds it, or that read failed, or it is
complete; and no other read got past its check in the meantime. -/
inductive ViewInv (n : Nat) (V : View) : Prop
  | fresh : V.memo = none → (∀ version, V.lists version = []) → (∀ k, V.tasks k = none) →
      (∀ b pc, V.reads b = some pc → pc = .check) → ViewInv n V
  | building : V.reads a = some pc → Building n V pc →
      (∀ b ≠ a, ∀ pc, V.reads b = some pc → pc = .check) → ViewInv n V
  | failed : V.reads a = some pc → pc.failed → V.TasksOnce →
      (∀ b ≠ a, ∀ pc, V.reads b = some pc → pc = .check) → ViewInv n V
  | complete : V.memo = some version → OneEach n (V.lists version) → V.TasksOnce →
      (∀ b pc, V.reads b = some pc →
        pc = .check ∨ pc = .fetch ∨ ∃ l, pc = .returned l ∧ OneEach n l) →
      ViewInv n V

variable {n : Nat} {V V' : View}

theorem mine_once (h : V.Mine futures i) : V.TasksOnce := by
  intro k k' j hk hk'
  have hplace (k : Nat) (hk : V.tasks k = some j) : futures[j]? = some k := by
    obtain ⟨p, hp, hpk⟩ := List.mem_iff_getElem.mp (h.2 k (by simp [hk]))
    have hmap := congrArg (·[p]?) h.1
    simp only [List.getElem?_map, List.getElem?_eq_getElem hp, hpk, Option.map_some, hk] at hmap
    have hlength : futures.length = i := by simpa using congrArg List.length h.1
    simp only [List.getElem?_range (hlength ▸ hp), Option.map_some, Option.some.injEq] at hmap
    subst hmap
    rw [List.getElem?_eq_getElem hp, hpk]
  exact Option.some.inj ((hplace k hk).symm.trans (hplace k' hk'))

theorem mine_filterMap (h : V.Mine futures i) : futures.filterMap V.tasks = List.range i := by
  have hid : futures.filterMap V.tasks = (futures.map V.tasks).filterMap id := by
    simp [List.filterMap_map]
  rw [hid, h.1, List.filterMap_map]
  simp

theorem mine_submit (h : V.Mine futures i) (hk : V.tasks k = none) :
    { V with tasks := Function.update V.tasks k (some i) }.Mine (futures ++ [k]) (i + 1) := by
  have hnot : k ∉ futures := by
    intro hmem
    have hnone : none ∈ futures.map V.tasks := List.mem_map.mpr ⟨k, hmem, hk⟩
    rw [h.1] at hnone
    simp at hnone
  constructor
  · have hsame : futures.map (Function.update V.tasks k (some i)) = futures.map V.tasks := by
      refine List.map_congr_left fun j hj => ?_
      rw [Function.update_of_ne]
      rintro rfl
      exact hnot hj
    simp [hsame, h.1, List.range_succ]
  · intro j hj
    by_cases hjk : j = k
    · simp [hjk]
    · have hold : V.tasks j ≠ none := by simpa [Function.update_of_ne hjk] using hj
      simp [h.2 j hold]

@[simp] theorem put_memo (a : Nat) (pc : Pc) : (V.put a pc).memo = V.memo := rfl
@[simp] theorem put_lists (a : Nat) (pc : Pc) : (V.put a pc).lists = V.lists := rfl
@[simp] theorem put_tasks (a : Nat) (pc : Pc) : (V.put a pc).tasks = V.tasks := rfl
@[simp] theorem put_reads (a : Nat) (pc : Pc) :
    (V.put a pc).reads = Function.update V.reads a (some pc) := rfl

theorem building_put (a : Nat) (pc' : Pc) (h : Building n V pc) : Building n (V.put a pc') pc := by
  cases pc with
  | collect futures exception => cases exception <;> exact h
  | _ => exact h

theorem building_busy (h : Building n V pc) : pc.quiet = false ∧ pc ≠ .check := by
  cases pc <;> simp_all [Building, Pc.quiet]

theorem failed_busy {pc : Pc} (h : pc.failed) : pc.quiet = false ∧ pc ≠ .check := by
  cases pc <;> simp_all [Pc.failed, Pc.quiet]

def Alone (V : View) (a : Nat) : Prop := ∀ b ≠ a, ∀ pc, V.reads b = some pc → pc = .check

theorem alone_eq (h : Alone V a) (hb : V.reads b = some pc) (hpc : pc ≠ .check) : b = a := by
  by_contra hne
  exact hpc (h b hne pc hb)

theorem alone_put (h : Alone V a) (pc : Pc) : Alone (V.put a pc) a := by
  intro b hb pc' hpc'
  rw [put_reads, Function.update_of_ne hb] at hpc'
  exact h b hb pc' hpc'

theorem alone_start (h : Alone V a) : Alone (V.put b .check) a := by
  intro c hc pc hpc
  rcases update_eq_some hpc with ⟨-, rfl⟩ | ⟨-, hpc⟩
  · rfl
  · exact h c hc pc hpc

theorem inv_start (h : ViewInv n V) (ha : V.reads a = none) : ViewInv n (V.put a .check) := by
  cases h with
  | fresh hmemo hlists htasks hreads =>
    refine .fresh hmemo hlists htasks fun b pc hb => ?_
    rcases update_eq_some hb with ⟨-, rfl⟩ | ⟨-, hb⟩
    · rfl
    · exact hreads b pc hb
  | @building a₀ pc hpc hbuild halone =>
    have hne : a₀ ≠ a := by
      rintro rfl
      simp [ha] at hpc
    exact .building (by rw [put_reads, Function.update_of_ne hne, hpc]) (building_put a _ hbuild)
      (alone_start halone)
  | @failed a₀ pc hpc hfail honce halone =>
    have hne : a₀ ≠ a := by
      rintro rfl
      simp [ha] at hpc
    exact .failed (by rw [put_reads, Function.update_of_ne hne, hpc]) hfail honce
      (alone_start halone)
  | complete hmemo hone honce hreads =>
    refine .complete hmemo hone honce fun b pc hb => ?_
    rcases update_eq_some hb with ⟨-, rfl⟩ | ⟨-, hb⟩
    · exact .inl rfl
    · exact hreads b pc hb

theorem inv_check (h : ViewInv n V) (ha : V.reads a = some .check)
    (hothers : ∀ b ≠ a, ∀ pc, V.reads b = some pc → pc.quiet) :
    (V.memo = none ∧ (∀ version, V.lists version = []) ∧ (∀ k, V.tasks k = none) ∧ Alone V a) ∨
      ∃ version, V.memo = some version ∧ OneEach n (V.lists version) ∧ V.TasksOnce ∧
        ∀ b pc, V.reads b = some pc →
          pc = .check ∨ pc = .fetch ∨ ∃ l, pc = .returned l ∧ OneEach n l := by
  have hidle (a₀ : Nat) (pc : Pc) (hpc : V.reads a₀ = some pc)
      (hbusy : pc.quiet = false ∧ pc ≠ .check) : False := by
    by_cases hne : a₀ = a
    · subst hne
      rw [ha, Option.some.injEq] at hpc
      exact hbusy.2 hpc.symm
    · simpa [hbusy.1] using hothers a₀ hne pc hpc
  cases h with
  | fresh hmemo hlists htasks hreads =>
      exact .inl ⟨hmemo, hlists, htasks, fun b _ pc => hreads b pc⟩
  | building hpc hbuild halone => exact (hidle _ _ hpc (building_busy hbuild)).elim
  | failed hpc hfail honce halone => exact (hidle _ _ hpc (failed_busy hfail)).elim
  | complete hmemo hone honce hreads => exact .inr ⟨_, hmemo, hone, honce, hreads⟩

theorem inv_busy (h : ViewInv n V) (ha : V.reads a = some pc) (hbusy : pc.quiet = false) :
    Alone V a ∧ (Building n V pc ∨ pc.failed ∧ V.TasksOnce) := by
  have hne : pc ≠ .check := by
    rintro rfl
    simp [Pc.quiet] at hbusy
  cases h with
  | fresh hmemo hlists htasks hreads => exact (hne (hreads a pc ha)).elim
  | @building a₀ pc₀ hpc hbuild halone =>
    obtain rfl := alone_eq halone ha hne
    rw [ha, Option.some.injEq] at hpc
    exact ⟨halone, .inl (hpc ▸ hbuild)⟩
  | @failed a₀ pc₀ hpc hfail honce halone =>
    obtain rfl := alone_eq halone ha hne
    rw [ha, Option.some.injEq] at hpc
    exact ⟨halone, .inr ⟨hpc ▸ hfail, honce⟩⟩
  | complete hmemo hone honce hreads =>
    rcases hreads a pc ha with rfl | rfl | ⟨l, rfl, -⟩ <;> simp [Pc.quiet] at hbusy

theorem building_now (halone : Alone V a) (h : Building n V pc) : ViewInv n (V.put a pc) :=
  .building (by simp) (building_put a pc h) (alone_put halone pc)

theorem failed_now {pc : Pc} (halone : Alone V a) (h : pc.failed) (honce : V.TasksOnce) :
    ViewInv n (V.put a pc) :=
  .failed (by simp) h honce (alone_put halone pc)

theorem building_once (h : Building n V pc) : V.TasksOnce := by
  cases pc with
  | publish =>
    intro k k' i hk
    simp [h.2.2 k] at hk
  | submit i futures => exact mine_once h.2.2
  | lookup i futures b => exact mine_once h.2.2
  | collect futures exception =>
    cases exception with
    | none => exact h.2
    | some e => exact h.elim
  | _ => exact h.elim

theorem inv_moves (h : ViewInv n V) (hm : ViewMoves n V V') : ViewInv n V' := by
  cases hm with
  | start ha => exact inv_start h ha
  | checkNone ha hmemo hothers =>
    rcases inv_check h ha hothers with ⟨-, hlists, htasks, halone⟩ | ⟨version, hsome, -⟩
    · exact building_now halone ⟨hmemo, hlists, htasks⟩
    · simp [hmemo] at hsome
  | @checkSome a ha hmemo hothers =>
    rcases inv_check h ha hothers with ⟨hnone, -⟩ | ⟨version, hsome, hone, honce, hreads⟩
    · exact (hmemo hnone).elim
    · refine .complete hsome hone honce fun b pc hb => ?_
      rcases update_eq_some hb with ⟨-, rfl⟩ | ⟨-, hb⟩
      · exact .inr (.inl rfl)
      · exact hreads b pc hb
  | publish ha =>
    obtain ⟨halone, ⟨hmemo, hlists, htasks⟩ | ⟨hfail, -⟩⟩ := inv_busy h ha rfl
    · refine building_now (V := { V with memo := _ }) halone
        ⟨⟨0, by simp [hmemo], hlists 0⟩, by simp, ?_⟩
      exact ⟨rfl, fun k hk => (hk (htasks k)).elim⟩
    · simp [Pc.failed] at hfail
  | @submit a pc i futures k ha hpc hi hk =>
    have hbusy : pc.quiet = false := by
      rcases hpc with rfl | ⟨b, rfl⟩ <;> rfl
    obtain ⟨halone, hbuild | ⟨hfail, -⟩⟩ := inv_busy h ha hbusy
    · have hbuild : (∃ version, V.memo = some version ∧ V.lists version = []) ∧ i ≤ n ∧
          V.Mine futures i := by
        rcases hpc with rfl | ⟨b, rfl⟩ <;> exact hbuild
      obtain ⟨hlist, -, hmine⟩ := hbuild
      exact building_now (V := { V with tasks := _ }) halone ⟨hlist, hi, mine_submit hmine hk⟩
    · rcases hpc with rfl | ⟨b, rfl⟩ <;> simp [Pc.failed] at hfail
  | fork ha =>
    obtain ⟨halone, hbuild | ⟨hfail, -⟩⟩ := inv_busy h ha rfl
    · exact building_now halone hbuild
    · simp [Pc.failed] at hfail
  | submitted ha hi =>
    obtain ⟨halone, ⟨⟨version, hmemo, hnil⟩, hle, hmine⟩ | ⟨hfail, -⟩⟩ := inv_busy h ha rfl
    · refine building_now halone ⟨⟨version, hmemo, ?_⟩, mine_once hmine⟩
      rw [hnil, mine_filterMap hmine, Nat.le_antisymm hle (Nat.le_of_not_lt hi)]
      simp
    · simp [Pc.failed] at hfail
  | @collectOk a futures exception version entry ha hmem htask hmemo =>
    obtain ⟨halone, hstate⟩ := inv_busy h ha (by cases exception <;> rfl)
    cases exception with
    | none =>
      obtain ⟨⟨version', hmemo', hperm⟩, honce⟩ | ⟨hfail, -⟩ := hstate
      · obtain rfl : version = version' := Option.some.inj (hmemo.symm.trans hmemo')
        refine building_now (V := { V with lists := _ }) halone ⟨⟨version, hmemo, ?_⟩, honce⟩
        have hfutures := (List.perm_cons_erase hmem).filterMap V.tasks
        rw [List.filterMap_cons_some htask] at hfutures
        refine .trans ?_ hperm
        simpa using (List.Perm.append_left _ hfutures.symm)
      · simp [Pc.failed] at hfail
    | some e =>
      obtain hbuild | ⟨-, honce⟩ := hstate
      · exact hbuild.elim
      · exact failed_now (V := { V with lists := _ }) halone rfl honce
  | @fail a pc pc' ha hpc hfail _ =>
    have hbusy : pc.quiet = false := by
      rcases hpc with hpc | ⟨i, futures, b, rfl⟩ | ⟨futures, rfl⟩
      · exact (failed_busy hpc).1
      · rfl
      · rfl
    obtain ⟨halone, hstate⟩ := inv_busy h ha hbusy
    have honce : V.TasksOnce := hstate.elim building_once (·.2)
    exact failed_now halone hfail honce
  | @collected a ha =>
    obtain ⟨halone, ⟨⟨version, hmemo, hperm⟩, honce⟩ | ⟨hfail, -⟩⟩ := inv_busy h ha rfl
    · refine .complete hmemo (by simpa [OneEach] using hperm) honce fun b pc hb => ?_
      rcases update_eq_some hb with ⟨-, rfl⟩ | ⟨hba, hb⟩
      · exact .inr (.inl rfl)
      · exact .inl (halone b hba pc hb)
    · simp [Pc.failed] at hfail
  | @fetch a version ha hmemo =>
    cases h with
    | fresh hnone => simp [hnone] at hmemo
    | building hpc hbuild halone =>
      obtain rfl := alone_eq halone ha (by simp)
      obtain rfl : Pc.fetch = _ := Option.some.inj (ha.symm.trans hpc)
      exact hbuild.elim
    | failed hpc hfail honce halone =>
      obtain rfl := alone_eq halone ha (by simp)
      obtain rfl : Pc.fetch = _ := Option.some.inj (ha.symm.trans hpc)
      simp [Pc.failed] at hfail
    | complete hmemo' hone honce hreads =>
      obtain rfl : version = _ := Option.some.inj (hmemo.symm.trans hmemo')
      refine .complete hmemo hone honce fun b pc hb => ?_
      rcases update_eq_some hb with ⟨-, rfl⟩ | ⟨-, hb⟩
      · exact .inr (.inr ⟨_, rfl, hone⟩)
      · exact hreads b pc hb

def OwnsTasks (V : View) : Prop := ∀ a pc, V.reads a = some pc → ∀ k ∈ pc.futures, V.tasks k ≠ none

theorem owns_put (h : OwnsTasks V) (hpc : ∀ k ∈ pc.futures, V.tasks k ≠ none) :
    OwnsTasks (V.put a pc) := by
  intro b pc' hb k hk
  rcases update_eq_some hb with ⟨-, rfl⟩ | ⟨-, hb⟩
  · exact hpc k hk
  · exact h b pc' hb k hk

theorem owns_moves (h : OwnsTasks V) (hm : ViewMoves n V V') : OwnsTasks V' := by
  cases hm with
  | start ha => exact owns_put h (by simp [Pc.futures])
  | checkNone ha => exact owns_put h (by simp [Pc.futures])
  | checkSome ha => exact owns_put h (by simp [Pc.futures])
  | publish ha => exact owns_put (V := { V with memo := _ }) h (by simp [Pc.futures])
  | @submit a pc i futures k ha hpc hi hk =>
    have hkept (j : Nat) (hj : V.tasks j ≠ none) : Function.update V.tasks k (some i) j ≠ none := by
      by_cases hjk : j = k
      · simp [hjk]
      · rwa [Function.update_of_ne hjk]
    refine owns_put (V := { V with tasks := _ }) (fun b pc hb j hj => hkept j (h b pc hb j hj)) ?_
    intro j hj
    rcases List.mem_append.mp hj with hj | hj
    · refine hkept j (h a pc ha j ?_)
      rcases hpc with rfl | ⟨b, rfl⟩ <;> exact hj
    · simp [List.mem_singleton.mp hj]
  | fork ha => exact owns_put h fun k hk => h _ _ ha k hk
  | submitted ha => exact owns_put h fun k hk => h _ _ ha k hk
  | collectOk ha hmem =>
    exact owns_put (V := { V with lists := _ }) h fun k hk => h _ _ ha k (List.mem_of_mem_erase hk)
  | fail ha hpc hfail hsub => exact owns_put h fun k hk => h _ _ ha k (hsub hk)
  | collected ha => exact owns_put h (by simp [Pc.futures])
  | fetch ha => exact owns_put h (by simp [Pc.futures])

-- ---------------------------------------------------------------------------
-- The storage, seen from one property
-- ---------------------------------------------------------------------------

variable {conf : MainConfig} {s s' : State} {act : Act} {sec : Sec}

def State.view (s : State) (sec : Sec) : View where
  memo := s.memo sec
  lists version := s.lists (sec, version)
  reads a := (s.activity a).bind fun act => if act.sec = some sec then some act.pc else none
  tasks k := (s.futures k).bind fun future =>
    if future.job.sec = sec then some future.index else none

theorem view_reads (h : s.activity a = some ⟨some sec, pc⟩) : (s.view sec).reads a = some pc := by
  simp [State.view, h]

theorem activity_of_view (h : (s.view sec).reads a = some pc) :
    s.activity a = some ⟨some sec, pc⟩ := by
  obtain ⟨⟨sec?, pc'⟩, hact, hsec⟩ := Option.bind_eq_some_iff.mp h
  simp only [Option.ite_none_right_eq_some, Option.some.injEq] at hsec
  obtain ⟨rfl, rfl⟩ := hsec
  exact hact

theorem tasks_of_future (h : s.futures k = some future) :
    (s.view sec).tasks k = if future.job.sec = sec then some future.index else none := by
  simp [State.view, h]

@[simp] theorem put_activity (s : State) (a : Nat) (sec? : Option Sec) (pc : Pc) :
    (s.put a sec? pc).activity = Function.update s.activity a (some ⟨sec?, pc⟩) := rfl

theorem view_put_self (a : Nat) (pc : Pc) :
    (s.put a (some sec) pc).view sec = (s.view sec).put a pc := by
  simp only [State.view, State.put, View.put, View.mk.injEq, true_and, and_true]
  funext b
  by_cases hba : b = a
  · simp [hba]
  · simp [Function.update_of_ne hba]

theorem view_put_other (hother : sec? ≠ some sec)
    (hold : ∀ old, s.activity a = some old → old.sec ≠ some sec) :
    (s.put a sec? pc).view sec = s.view sec := by
  simp only [State.view, State.put, View.mk.injEq, true_and, and_true]
  funext b
  by_cases hba : b = a
  · subst hba
    rcases hact : s.activity b with _ | old
    · simp [hother]
    · simp [hother, hold old hact]
  · simp [Function.update_of_ne hba]

theorem view_submit_self (h : job.sec = sec) :
    (s.submit k job i).view sec =
      { s.view sec with tasks := Function.update (s.view sec).tasks k (some i) } := by
  simp only [State.view, State.submit, View.mk.injEq, true_and]
  funext j
  by_cases hjk : j = k
  · simp [hjk, h]
  · simp [Function.update_of_ne hjk]

theorem view_submit_other (h : job.sec ≠ sec) (hk : s.futures k = none) :
    (s.submit k job i).view sec = s.view sec := by
  simp only [State.view, State.submit, View.mk.injEq, true_and]
  funext j
  by_cases hjk : j = k
  · simp [hjk, h, hk]
  · simp [Function.update_of_ne hjk]

theorem view_publish_self :
    (s.publish sec).view sec = { s.view sec with memo := some ((s.memo sec).elim 0 (· + 1)) } := by
  simp [State.view, State.publish]

theorem view_publish_other (h : sec ≠ sec') : (s.publish sec').view sec = s.view sec := by
  simp [State.view, State.publish, Function.update_of_ne h]

theorem view_append_self :
    (s.append sec version entry).view sec =
      { s.view sec with
        lists :=
          Function.update (s.view sec).lists version (s.lists (sec, version) ++ [entry]) } := by
  simp only [State.view, State.append, View.mk.injEq, true_and, and_true]
  funext v
  by_cases hv : v = version
  · simp [hv]
  · rw [Function.update_of_ne hv, Function.update_of_ne (by simpa using hv)]

theorem view_append_other (h : sec ≠ sec') :
    (s.append sec' version entry).view sec = s.view sec := by
  simp only [State.view, State.append, View.mk.injEq, true_and, and_true]
  funext v
  rw [Function.update_of_ne (by simp [h])]

theorem view_record (k : Option Nat) (evs : List Event) :
    (s.record k evs).view sec = s.view sec := rfl

theorem view_outcome (h : s.futures k = some ⟨job, i, none⟩) (r : Except Exn Held) :
    State.view { s with futures := Function.update s.futures k (some ⟨job, i, some r⟩) } sec =
      s.view sec := by
  simp only [State.view, View.mk.injEq, true_and]
  funext j
  by_cases hjk : j = k
  · simp [hjk, h]
  · simp [Function.update_of_ne hjk]

-- ---------------------------------------------------------------------------
-- A step of the storage is a step of a view
-- ---------------------------------------------------------------------------

/-- Only reads of the resources look shells up, and the `finish` inside a read
is there to raise. -/
def Activity.Shaped : Activity → Prop
  | ⟨some sec, .lookup ..⟩ => sec = .resources
  | ⟨some _, .finish none _⟩ => False
  | _ => True

def Shaped (s : State) : Prop := ∀ a act, s.activity a = some act → act.Shaped

theorem shaped_put (h : Shaped s) (hpc : Activity.Shaped ⟨sec?, pc⟩) :
    Shaped (s.put a sec? pc) := by
  intro b act hact
  rcases update_eq_some hact with ⟨-, rfl⟩ | ⟨-, hact⟩
  · exact hpc
  · exact h b act hact

theorem shaped_finish (h : Activity.Shaped ⟨sec?, .finish e loop⟩) (loop' : Loop) :
    Activity.Shaped ⟨sec?, .finish e loop'⟩ := by
  cases sec? <;> cases e <;> trivial

theorem shaped_finished (sec? : Option Sec) (e : Option Exn) :
    Activity.Shaped ⟨sec?, .finished e⟩ := by
  cases sec? <;> cases e <;> trivial

theorem shaped_raised (sec? : Option Sec) (e : Exn) : Activity.Shaped ⟨sec?, .raised e⟩ := by
  cases sec? <;> trivial

theorem shaped_moves (h : Shaped s) (hm : Moves conf s act s') : Shaped s' := by
  cases hm with
  | fork => exact shaped_put (shaped_put h trivial) rfl
  | enter ha => exact shaped_put h (shaped_finish (h _ _ ha) _)
  | skip ha => exact shaped_put h (shaped_finish (h _ _ ha) _)
  | leave ha => exact shaped_put h (shaped_finish (h _ _ ha) _)
  | finished ha => exact shaped_put h (shaped_finished _ _)
  | @release a sec? e sec version pos entry evs pc api ha hentry hevs hpc =>
    refine shaped_put (s := s.record entry.future evs) h ?_
    rcases hpc with rfl | ⟨e', rfl⟩
    · exact shaped_finish (h _ _ ha) _
    · exact shaped_raised sec? e'
  | @disconnect a sec? e pc r api ha hpc =>
    refine shaped_put (s := s.record none _) h ?_
    rcases hpc with rfl | ⟨e', rfl⟩
    · exact shaped_finished sec? e
    · exact shaped_raised sec? e'
  | complete => exact h
  | _ => exact shaped_put h trivial

/-- A read looks at its memo field only while no other read of the property is
building the list or has failed to. -/
def Undisturbed (s : State) : Act → Prop
  | .next a _ => ∀ sec, s.activity a = some ⟨some sec, .check⟩ →
      ∀ b ≠ a, ∀ pc, s.activity b = some ⟨some sec, pc⟩ → pc.quiet
  | _ => True

def Seen (conf : MainConfig) (s s' : State) : Prop :=
  ∀ sec, s'.view sec = s.view sec ∨ ViewMoves (size conf sec) (s.view sec) (s'.view sec)

theorem seen_of (ha : s.activity a = some ⟨some sec₀, pc₀⟩) (hact : s₁.activity = s.activity)
    (hother : ∀ sec ≠ sec₀, State.view s₁ sec = s.view sec)
    (hself : ViewMoves (size conf sec₀) (s.view sec₀) ((State.view s₁ sec₀).put a pc)) :
    Seen conf s (s₁.put a (some sec₀) pc) := by
  intro sec
  by_cases hsec : sec = sec₀
  · subst hsec
    rw [view_put_self]
    exact .inr hself
  · left
    rw [view_put_other (by simpa using Ne.symm hsec), hother sec hsec]
    intro old hold
    rw [hact, ha, Option.some.injEq] at hold
    simpa [← hold] using Ne.symm hsec

theorem seen_put (ha : s.activity a = some ⟨some sec₀, pc₀⟩)
    (hself : ViewMoves (size conf sec₀) (s.view sec₀) ((s.view sec₀).put a pc)) :
    Seen conf s (s.put a (some sec₀) pc) := seen_of ha rfl (fun _ _ => rfl) hself

theorem seen_finish {s₁ : State} (hshape : Activity.Shaped ⟨sec?, .finish e loop⟩)
    (ha : s.activity a = some ⟨sec?, .finish e loop⟩) (hact : s₁.activity = s.activity)
    (hview : ∀ sec, s₁.view sec = s.view sec)
    (hfailed : ∀ e', e = some e' → pc.failed ∧ pc.futures = []) :
    Seen conf s (s₁.put a sec? pc) := by
  cases sec? with
  | none =>
    intro sec
    left
    rw [view_put_other (by simp), hview]
    intro old hold
    rw [hact, ha, Option.some.injEq] at hold
    simp [← hold]
  | some sec₀ =>
    cases e with
    | none => exact hshape.elim
    | some e =>
      refine seen_of ha hact (fun sec _ => hview sec) ?_
      rw [hview]
      exact .fail (view_reads ha) (.inl rfl) (hfailed e rfl).1 (by simp [(hfailed e rfl).2])

theorem failed_finished (h : e = some e') :
    (Pc.finished e).failed ∧ (Pc.finished e).futures = [] := by
  subst h
  exact ⟨rfl, rfl⟩

theorem reads_of_none (h : s.activity a = none) : (s.view sec).reads a = none := by
  simp [State.view, h]

theorem tasks_of_none (h : s.futures k = none) : (s.view sec).tasks k = none := by
  simp [State.view, h]

theorem seen_start (ha : s.activity a = none) (sec₀ : Sec) :
    Seen conf s (s.put a (some sec₀) .check) := by
  intro sec
  by_cases hsec : sec₀ = sec
  · subst hsec
    rw [view_put_self]
    exact .inr (.start (reads_of_none ha))
  · left
    rw [view_put_other (by simpa using hsec)]
    simp [ha]

theorem moves_seen (hshape : Shaped s) (howns : ∀ sec, OwnsTasks (s.view sec))
    (hm : Moves conf s act s') (hg : Undisturbed s act) : Seen conf s s' := by
  have hothers {a k : Nat} {sec : Sec} (ha : s.activity a = some ⟨some sec, .check⟩)
      (hg : Undisturbed s (.next a k)) (b : Nat) (hb : b ≠ a) (pc : Pc)
      (hpc : (s.view sec).reads b = some pc) : pc.quiet :=
    hg sec ha b hb pc (activity_of_view hpc)
  cases hm with
  | read ha => exact seen_start ha _
  | finish ha =>
    intro sec
    left
    rw [view_put_other (by simp)]
    simp [ha]
  | checkNone ha hmemo => exact seen_put ha (.checkNone (view_reads ha) hmemo (hothers ha hg))
  | checkSome ha hmemo => exact seen_put ha (.checkSome (view_reads ha) hmemo (hothers ha hg))
  | publish ha =>
    refine seen_of ha rfl (fun sec hsec => view_publish_other hsec) ?_
    rw [view_publish_self]
    exact .publish (view_reads ha)
  | submit ha hjob hk =>
    obtain ⟨hi, hsec⟩ := jobAt_some hjob
    refine seen_of ha rfl (fun sec hne => view_submit_other (by rw [hsec]; exact hne.symm) hk) ?_
    rw [view_submit_self hsec]
    exact .submit (view_reads ha) (.inl rfl) hi (tasks_of_none hk)
  | @fork a i futures b ha hi hb =>
    have hne : a ≠ b := by
      rintro rfl
      simp [hb] at ha
    have ha' : (s.put b (some .shells) .check).activity a =
        some ⟨some .resources, .submit i futures⟩ := by
      simpa [State.put, Function.update_of_ne hne] using ha
    intro sec
    cases sec with
    | shells =>
      rw [view_put_other (by simp) (by simp [ha'])]
      exact seen_start hb .shells .shells
    | resources =>
      rw [view_put_self, view_put_other (by simp) (by simp [hb])]
      exact .inr (.fork (view_reads ha))
    | sandboxes =>
      rw [view_put_other (by simp) (by simp [ha']), view_put_other (by simp) (by simp [hb])]
      exact .inl rfl
  | submitted ha hi => exact seen_put ha (.submitted (view_reads ha) hi)
  | @found a sec i futures b sec? handlers c shell k ha hb hc hshell hk =>
    obtain rfl : sec = .resources := hshape _ _ ha
    refine seen_of ha rfl
      (fun sec hne => view_submit_other (by simpa [Job.sec] using hne.symm) hk) ?_
    rw [view_submit_self (by rfl)]
    exact .submit (view_reads ha) (.inr ⟨b, rfl⟩) (List.getElem?_eq_some_iff.mp hc).1
      (tasks_of_none hk)
  | abort ha =>
      exact seen_put ha (.fail (view_reads ha) (.inr (.inl ⟨_, _, _, rfl⟩)) rfl fun _ h => h)
  | joined ha => exact seen_put ha (.fail (view_reads ha) (.inl rfl) rfl (by simp [Pc.futures]))
  | @collectOk a sec futures exception k job index handler version ha hmem hk hmemo =>
    have htask : (s.view sec).tasks k = some index := by
      have hsome := howns sec _ _ (view_reads ha) k hmem
      rw [tasks_of_future hk] at hsome ⊢
      split
      · rfl
      · rename_i hsec
        exact (hsome (if_neg hsec)).elim
    refine seen_of ha rfl (fun sec hsec => view_append_other hsec) ?_
    rw [view_append_self]
    let entry : Entry := ⟨k, index, handler⟩
    have hentry : (s.view sec).tasks entry.future = some entry.index := htask
    exact .collectOk (view_reads ha) hmem hentry hmemo
  | @collectError a sec futures exception k job index e ha hmem hk =>
    refine seen_put ha (.fail (view_reads ha) ?_ rfl List.erase_subset)
    cases exception with
    | none => exact .inr (.inr ⟨_, rfl⟩)
    | some e => exact .inl rfl
  | collected ha => exact seen_put ha (.collected (view_reads ha))
  | failed ha => exact seen_put ha (.fail (view_reads ha) (.inl rfl) rfl (by simp [Pc.futures]))
  | fetch ha hmemo => exact seen_put ha (.fetch (view_reads ha) hmemo)
  | enter ha =>
      exact seen_finish (hshape _ _ ha) ha rfl (fun _ => rfl) (by rintro e' rfl; exact ⟨rfl, rfl⟩)
  | skip ha =>
      exact seen_finish (hshape _ _ ha) ha rfl (fun _ => rfl) (by rintro e' rfl; exact ⟨rfl, rfl⟩)
  | leave ha =>
      exact seen_finish (hshape _ _ ha) ha rfl (fun _ => rfl) (by rintro e' rfl; exact ⟨rfl, rfl⟩)
  | finished ha =>
    exact seen_finish (hshape _ _ ha) ha rfl (fun _ => rfl) fun e' he => failed_finished he
  | @release a sec? e sec version pos entry evs pc api ha hentry hevs hpc =>
    refine seen_finish (hshape _ _ ha) ha rfl (fun _ => rfl) ?_
    rintro e' rfl
    rcases hpc with rfl | ⟨e', rfl⟩ <;> exact ⟨rfl, rfl⟩
  | @disconnect a sec? e pc r api ha hpc =>
    refine seen_finish (hshape _ _ ha) ha rfl (fun _ => rfl) ?_
    rintro e' rfl
    rcases hpc with rfl | ⟨e', rfl⟩ <;> exact ⟨rfl, rfl⟩
  | complete hk hrun =>
    intro sec
    left
    rw [view_record, view_outcome hk]

-- ---------------------------------------------------------------------------
-- What a list holds
-- ---------------------------------------------------------------------------

def JobFor (conf : MainConfig) (i : Nat) : Job → Prop
  | .sandbox c => conf.sandboxesConf[i]? = some c
  | .resource c _ => conf.resourcesConf[i]? = some c
  | .shell c => conf.shellsConf[i]? = some c

def HandlerFor (conf : MainConfig) (i : Nat) : Sec → Held → Prop
  | .sandboxes, .sandbox h => conf.sandboxesConf[i]? = some h.conf
  | .resources, .resource h => conf.resourcesConf[i]? = some h.conf
  | .shells, .shell h => conf.shellsConf[i]? = some h.conf
  | _, _ => False

theorem run_handlerFor {job : Job} (hjob : JobFor conf i job)
    (hrun : job.run hasSmb api = (.ok handler, evs)) : HandlerFor conf i job.sec handler := by
  cases job with
  | sandbox c =>
    obtain ⟨r, u, evs', hm, hspec, -⟩ := SandboxHandler.create_releases api c 120 () []
    simp only [Job.run, outcomeOf, hm, Prod.mk.injEq] at hrun
    cases r with
    | error e => simp [Except.map] at hrun
    | ok h =>
      obtain ⟨⟨⟩, -⟩ := hrun
      simpa [HandlerFor, Job.sec, JobFor, (hspec h rfl).1] using hjob
  | resource c shellHandler =>
    obtain ⟨r, u, evs', hm, hspec⟩ := ResourceHandler.create_conf api c shellHandler () []
    simp only [Job.run, outcomeOf, hm, Prod.mk.injEq] at hrun
    cases r with
    | error e => simp [Except.map] at hrun
    | ok h =>
      obtain ⟨⟨⟩, -⟩ := hrun
      simpa [HandlerFor, Job.sec, JobFor, hspec h rfl] using hjob
  | shell c =>
    obtain ⟨r, u, evs', hm, hspec, -⟩ := ShellHandler.create_releases api hasSmb c () []
    simp only [Job.run, outcomeOf, hm, Prod.mk.injEq] at hrun
    cases r with
    | error e => simp [Except.map] at hrun
    | ok h =>
      obtain ⟨⟨⟩, -⟩ := hrun
      simpa [HandlerFor, Job.sec, JobFor, (hspec h rfl).1] using hjob

/-- Every future, every list and every list returned holds handlers of the
confs that they are filed under. -/
structure Made (conf : MainConfig) (s : State) : Prop where
  jobs : ∀ k future, s.futures k = some future → JobFor conf future.index future.job ∧
    ∀ h, future.outcome = some (.ok h) → HandlerFor conf future.index future.job.sec h
  lists : ∀ sec version, ∀ e ∈ s.lists (sec, version), HandlerFor conf e.index sec e.handler
  returned : ∀ a sec handlers, s.activity a = some ⟨some sec, .returned handlers⟩ →
    ∀ e ∈ handlers, HandlerFor conf e.index sec e.handler

theorem made_put (h : Made conf s)
    (hpc : ∀ sec handlers, sec? = some sec → pc = .returned handlers →
    ∀ e ∈ handlers, HandlerFor conf e.index sec e.handler) : Made conf (s.put a sec? pc) where
  jobs := h.jobs
  lists := h.lists
  returned := by
    intro b sec handlers hb
    rcases update_eq_some hb with ⟨-, ⟨⟩⟩ | ⟨-, hb⟩
    · exact hpc sec handlers rfl rfl
    · exact h.returned b sec handlers hb

theorem made_submit (h : Made conf s) (hjob : JobFor conf i job) :
    Made conf (s.submit k job i) where
  jobs := by
    intro j future hfuture
    rcases update_eq_some hfuture with ⟨-, rfl⟩ | ⟨-, hfuture⟩
    · exact ⟨hjob, by simp⟩
    · exact h.jobs j future hfuture
  lists := h.lists
  returned := h.returned

theorem jobAt_jobFor (h : jobAt conf i sec = some job) : JobFor conf i job := by
  cases sec <;> simp only [jobAt, Option.map_eq_some_iff, reduceCtorEq] at h
  all_goals
    obtain ⟨c, hc, rfl⟩ := h
    exact hc

theorem made_moves (h : Made conf s) (howns : ∀ sec, OwnsTasks (s.view sec))
    (hm : Moves conf s act s') : Made conf s' := by
  cases hm with
  | publish => exact made_put (s := s.publish _) ⟨h.jobs, h.lists, h.returned⟩ (by simp)
  | submit ha hjob hk => exact made_put (made_submit h (jobAt_jobFor hjob)) (by simp)
  | fork => exact made_put (made_put h (by simp)) (by simp)
  | found ha hb hc hshell hk => exact made_put (made_submit h hc) (by simp)
  | @collectOk a sec futures exception k job index handler version ha hmem hk hmemo =>
    have hsec : job.sec = sec := by
      by_contra hne
      have hsome := howns sec _ _ (view_reads ha) k hmem
      rw [tasks_of_future hk, if_neg hne] at hsome
      exact hsome rfl
    refine made_put (s := s.append _ _ _) ⟨h.jobs, ?_, h.returned⟩ (by simp)
    intro sec' version' e he
    rcases mem_append_lists he with ⟨⟨⟩, rfl⟩ | he
    · exact hsec ▸ (h.jobs k _ hk).2 handler rfl
    · exact h.lists _ _ e he
  | @fetch a sec version k ha hmemo =>
    refine made_put h ?_
    rintro _ _ ⟨⟩ ⟨⟩
    exact h.lists _ _
  | @finished a sec? e k ha =>
    refine made_put h ?_
    rintro sec handlers rfl hpc
    cases e with
    | none => cases hpc; simp
    | some e => cases hpc
  | @release a sec? e sec version pos entry evs pc api ha hentry hevs hpc =>
    refine made_put (s := s.record _ _) ⟨h.jobs, h.lists, h.returned⟩ ?_
    rintro sec handlers - rfl
    rcases hpc with hpc | ⟨e', hpc⟩ <;> cases hpc
  | @disconnect a sec? e pc r api ha hpc =>
    refine made_put (s := s.record _ _) ⟨h.jobs, h.lists, h.returned⟩ ?_
    rintro sec handlers - rfl
    rcases hpc with hpc | ⟨e', hpc⟩
    · cases e with
      | none => cases hpc; simp
      | some e => cases hpc
    · cases hpc
  | @complete k job index api r evs hk hrun =>
    refine ⟨?_, h.lists, h.returned⟩
    intro j future hfuture
    rcases update_eq_some hfuture with ⟨rfl, rfl⟩ | ⟨-, hfuture⟩
    · refine ⟨(h.jobs j _ hk).1, ?_⟩
      rintro handler ⟨⟩
      exact run_handlerFor (h.jobs j _ hk).1 hrun
    · exact h.jobs j future hfuture
  | _ => exact made_put h (by simp)

/-- The invariant of the storage under undisturbed reads. -/
structure Inv (conf : MainConfig) (s : State) : Prop where
  shaped : Shaped s
  owns : ∀ sec, OwnsTasks (s.view sec)
  views : ∀ sec, ViewInv (size conf sec) (s.view sec)
  made : Made conf s

theorem inv_init (h : init s) : Inv conf s := by
  obtain ⟨hasVcenter, rfl⟩ := h
  refine ⟨by simp [Shaped], ?_, ?_, ⟨by simp, by simp, by simp⟩⟩
  · intro sec a pc ha
    simp [State.view] at ha
  · intro sec
    exact .fresh rfl (fun _ => rfl) (fun _ => rfl) (by simp [State.view])

theorem inv_step (h : Inv conf s) (hg : Undisturbed s act) (hs : step conf s act = some s') :
    Inv conf s' := by
  have hm := step_moves hs
  have hseen := moves_seen h.shaped h.owns hm hg
  refine ⟨shaped_moves h.shaped hm, fun sec => ?_, fun sec => ?_, made_moves h.made h.owns hm⟩
  · rcases hseen sec with heq | hview
    · rw [heq]
      exact h.owns sec
    · exact owns_moves (h.owns sec) hview
  · rcases hseen sec with heq | hview
    · rw [heq]
      exact h.views sec
    · exact inv_moves (h.views sec) hview

theorem inv_once (h : ViewInv n V) : V.TasksOnce := by
  cases h with
  | fresh hmemo hlists htasks hreads =>
    intro k k' i hk
    simp [htasks k] at hk
  | building hpc hbuild halone => exact building_once hbuild
  | failed hpc hfail honce halone => exact honce
  | complete hmemo hone honce hreads => exact honce

theorem inv_returned (h : ViewInv n V) (ha : V.reads a = some (.returned handlers)) :
    OneEach n handlers := by
  cases h with
  | fresh hmemo hlists htasks hreads => exact absurd (hreads a _ ha) (by simp)
  | building hpc hbuild halone =>
    obtain rfl := alone_eq halone ha (by simp)
    obtain rfl : Pc.returned handlers = _ := Option.some.inj (ha.symm.trans hpc)
    exact hbuild.elim
  | failed hpc hfail honce halone =>
    obtain rfl := alone_eq halone ha (by simp)
    obtain rfl : Pc.returned handlers = _ := Option.some.inj (ha.symm.trans hpc)
    simp [Pc.failed] at hfail
  | complete hmemo hone honce hreads =>
    rcases hreads a _ ha with hpc | hpc | ⟨l, hpc, hl⟩
    · cases hpc
    · cases hpc
    · cases hpc
      exact hl

/-- While no read looks at a memo field that another one is filling or has
failed to fill, a read that returns has exactly one handler for every conf, and
no conf's creation is submitted twice. -/
theorem reads_complete (conf : MainConfig) (h : Reach (step conf) Undisturbed init s) :
    (∀ a sec handlers, s.activity a = some ⟨some sec, .returned handlers⟩ →
      OneEach (size conf sec) handlers ∧ ∀ e ∈ handlers, HandlerFor conf e.index sec e.handler) ∧
    ∀ k k' future future', s.futures k = some future → s.futures k' = some future' →
      future.job.sec = future'.job.sec → future.index = future'.index → k = k' := by
  have hi : Inv conf s := h.invariant (fun _ => inv_init) fun _ _ _ hi hg hs => inv_step hi hg hs
  constructor
  · intro a sec handlers ha
    exact ⟨inv_returned (hi.views sec) (view_reads ha), hi.made.returned a sec handlers ha⟩
  · intro k k' future future' hk hk' hsec hindex
    refine inv_once (hi.views future.job.sec) k k' future.index ?_ ?_
    · simp [tasks_of_future hk]
    · simp [tasks_of_future hk', hsec, hindex]

def oneSandbox : MainConfig :=
  { shellsConf := [], resourcesConf := [], sandboxesConf := [{ name := "sandbox" }] }

theorem undisturbed_of_idle (h : ∀ sec, s.activity a ≠ some ⟨some sec, .check⟩) :
    Undisturbed s (.next a k) := by
  intro sec ha
  exact (h sec ha).elim

theorem undisturbed_of_quiet
    (h : ∀ b ≠ a, ∀ sec pc, s.activity b = some ⟨some sec, pc⟩ → pc.quiet) :
    Undisturbed s (.next a k) := by
  intro sec _ b hb pc hpc
  exact h b hb sec pc hpc

theorem reads_complete_twice : ∃ (s : State) (handlers : List Entry),
    s.activity 1 = some ⟨some .sandboxes, .returned handlers⟩ ∧ OneEach 1 handlers := by
  let acts : List Act := [.read 0 .sandboxes, .next 0 0, .next 0 0, .next 0 0,
    .complete 0 .obliging, .next 0 0, .collect 0 0, .next 0 0, .next 0 0,
    .read 1 .sandboxes, .next 1 0, .next 1 0]
  let s := (run (step oneSandbox) {} acts).getD {}
  have hrun : run (step oneSandbox) {} acts = some s := rfl
  have hguard : Guarded (step oneSandbox) Undisturbed {} acts := by
    simp only [acts, Guarded]
    refine ⟨trivial, ?_, ?_, ?_, trivial, ?_, trivial, ?_, ?_, trivial, ?_, ?_, trivial⟩
    · refine undisturbed_of_quiet fun b hb sec pc => ?_
      simp [State.put, Function.update_of_ne hb]
    · exact undisturbed_of_idle (by rintro ⟨⟩ h <;> cases h)
    · exact undisturbed_of_idle (by rintro ⟨⟩ h <;> cases h)
    · exact undisturbed_of_idle (by rintro ⟨⟩ h <;> cases h)
    · exact undisturbed_of_idle (by rintro ⟨⟩ h <;> cases h)
    · exact undisturbed_of_idle (by rintro ⟨⟩ h <;> cases h)
    · refine undisturbed_of_quiet fun b hb sec pc => ?_
      match b with
      | 0 => rintro ⟨⟩; rfl
      | 1 => exact (hb rfl).elim
      | n + 2 => rintro ⟨⟩
    · exact undisturbed_of_idle (by rintro ⟨⟩ h <;> cases h)
  have hone : s.activity 1 = some ⟨some .sandboxes, .returned
      [⟨0, 0, .sandbox ⟨{ name := "sandbox" }, "sandbox"⟩⟩]⟩ := rfl
  exact ⟨s, _, hone,
    ((reads_complete oneSandbox (.of_run acts ⟨false, rfl⟩ hrun hguard)).1 1 _ _ hone).1⟩

/-- A read returns an empty list while another one builds it, and also after
another one failed to; two reads that check together submit each conf twice. -/
theorem reads_disturbed :
    (∃ s : State, Reach (step oneSandbox) free init s ∧
      s.activity 0 = some ⟨some .sandboxes, .submit 0 []⟩ ∧
      s.activity 1 = some ⟨some .sandboxes, .returned []⟩ ∧
        ¬ OneEach (size oneSandbox .sandboxes) []) ∧
    (∃ (s : State) (e : Exn), Reach (step oneSandbox) free init s ∧
      s.activity 0 = some ⟨some .sandboxes, .raised e⟩ ∧
      s.activity 1 = some ⟨some .sandboxes, .returned []⟩) ∧
    ∃ s : State, Reach (step oneSandbox) free init s ∧
      s.futures 0 = some ⟨.sandbox { name := "sandbox" }, 0, none⟩ ∧
      s.futures 1 = some ⟨.sandbox { name := "sandbox" }, 0, none⟩ := by
  refine ⟨?_, ?_, ?_⟩
  · exact ⟨_, .of_free_run [.read 0 .sandboxes, .next 0 0, .next 0 0, .read 1 .sandboxes, .next 1 0,
      .next 1 0] ⟨false, rfl⟩ rfl, rfl, rfl, by simp [OneEach, size, oneSandbox]⟩
  · let refusing : Api := { Api.obliging with
      createImmediateReservation := fun _ _ _ => .error (.cloudShellApi "100" "") }
    exact ⟨_, .cloudShellApi "100" "", .of_free_run [.read 0 .sandboxes, .next 0 0, .next 0 0,
      .next 0 0, .complete 0 refusing, .next 0 0, .collect 0 0, .next 0 0, .next 0 0, .next 0 0,
      .next 0 0, .next 0 0, .next 0 0, .read 1 .sandboxes, .next 1 0, .next 1 0]
      ⟨false, rfl⟩ rfl, rfl, rfl⟩
  · exact ⟨_, .of_free_run [.read 0 .sandboxes, .read 1 .sandboxes, .next 0 0, .next 1 0, .next 0 0,
      .next 1 0, .next 0 0, .next 1 1] ⟨false, rfl⟩ rfl, rfl, rfl⟩

end ShellTests.StorageThreads
