import Mathlib.Data.List.Perm.Subperm
import ShellTests.HandlerStorage

/-!
# What finish releases

`HandlerStorage.finish` walks the sandboxes, the resources and the shells in
one line of turns, and a turn that raises ends it. So every handler is
released just when none before the last one raises.
-/

namespace ShellTests

open Prog

inductive Held
  | sandbox (h : SandboxHandler)
  | resource (h : ResourceHandler)
  | shell (h : ShellHandler)
  deriving DecidableEq, Repr

namespace Held

def finish (api : Api) (hasSmb : Bool) : Held → Cs σ Unit
  | .sandbox h => SandboxHandler.finish api h
  | .resource h => ResourceHandler.finish api h
  | .shell h => ShellHandler.finish api hasSmb h

def release : Held → Release
  | .sandbox h => .endReservation h.reservationId
  | .resource h => .deleteResource h.name
  | .shell h => .deleteShell h.csShellName

theorem finish_releases (api : Api) (hasSmb : Bool) (h : Held) (st : σ) :
    Triple (h.finish api hasSmb) st fun _ st' evs => st' = st ∧ releases evs = [h.release] := by
  cases h with
  | sandbox h => exact endReservation_releases api h.reservationId true st
  | resource h => exact h.finish_releases api st
  | shell h => exact h.finish_releases api hasSmb st

theorem finish_emits (api : Api) (hasSmb : Bool) (h : Held) :
    Emits (fun e => e.created? = none) (h.finish api hasSmb : Cs σ Unit) := by
  cases h with
  | sandbox h => exact endReservation_emits api h.reservationId true (fun _ => rfl) fun _ => rfl
  | resource h => exact .call' fun _ => rfl
  | shell h => exact (h.finish_emits api hasSmb).mono created_of_shell

theorem finish_spec (api : Api) (hasSmb : Bool) (h : Held) (st : σ) :
    Triple (h.finish api hasSmb) st fun _ st' evs =>
      st' = st ∧ releases evs = [h.release] ∧ created evs = [] := by
  refine ((h.finish_releases api hasSmb st).and ((h.finish_emits api hasSmb).events st)).mono ?_
  rintro r st' evs ⟨⟨hst, hevs⟩, hnone⟩
  exact ⟨hst, hevs, List.filterMap_eq_nil_iff.mpr hnone⟩

end Held

namespace HandlerStorage

def held (st : HandlerStorage) : List Held :=
  (st.sandboxMemo.getD []).map .sandbox ++ (st.resourceMemo.getD []).map .resource ++
    (st.shellMemo.getD []).map .shell

def finishVcenter (api : Api) (st : HandlerStorage) : Cs HandlerStorage Unit :=
  if st.hasVcenter then Prog.call api.disconnectVcenter .disconnectVcenter else pure ()

theorem eachHeld_map (wrap : α → Held) (f : Held → Cs σ Unit) (memo : Option (List α)) (s : σ)
    (log : List Event) :
    eachHeld (fun h => f (wrap h)) memo s log = each f ((memo.getD []).map wrap) s log := by
  cases memo with
  | none => rfl
  | some handlers => exact (each_map wrap handlers s log).symm

/-- The three loops of `finish` are one loop over all that is held. -/
theorem finish_eq (api : Api) (st : HandlerStorage) (log : List Event) :
    finish api st log =
      (do each (Held.finish api st.conf.hasCsSmb) st.held
          finishVcenter api st : Cs HandlerStorage Unit) st log := by
  have hsandboxes := eachHeld_map .sandbox (Held.finish (σ := HandlerStorage) api st.conf.hasCsSmb)
    st.sandboxMemo
  have hresources := eachHeld_map .resource (Held.finish (σ := HandlerStorage) api st.conf.hasCsSmb)
    st.resourceMemo
  have hshells := eachHeld_map .shell (Held.finish (σ := HandlerStorage) api st.conf.hasCsSmb)
    st.shellMemo
  simp only [Held.finish] at hsandboxes hresources hshells
  simp only [finish, run_bind, run_get, held, each_append]
  rw [hsandboxes]
  rcases each _ _ st log with ⟨r, st₁, log₁⟩
  cases r with
  | error e => rfl
  | ok _ =>
    simp only [hresources]
    rcases each _ _ st₁ log₁ with ⟨r, st₂, log₂⟩
    cases r with
    | error e => rfl
    | ok _ =>
      simp only [hshells]
      rfl

theorem finishVcenter_spec (api : Api) (st : HandlerStorage) (s : HandlerStorage) :
    Triple (finishVcenter api st) s fun _ s' evs =>
      s' = s ∧ releases evs = [] ∧ created evs = [] := by
  unfold finishVcenter
  split
  · exact .call' fun _ => ⟨rfl, rfl, rfl⟩
  · exact .pure' ⟨rfl, rfl, rfl⟩

/-- How far a `finish` comes: it releases all that is held, or stops after a
release that raises. -/
theorem finish_reaches (api : Api) (st : HandlerStorage) (log : List Event) :
    ∃ pre post, st.held = pre ++ post ∧
      releases (newEvents (finish api) st log) = pre.map Held.release ∧
      ((∃ s' log', each (Held.finish api st.conf.hasCsSmb) st.held st log = (.ok (), s', log')) ∧
          post = [] ∨
        ∃ front h, pre = front ++ [h] ∧
          Raises (h.finish api st.conf.hasCsSmb)
            (sweep (Held.finish api st.conf.hasCsSmb) front st log).2.1
            (sweep (Held.finish api st.conf.hasCsSmb) front st log).2.2 ∧
          ∃ s' log',
            each (Held.finish api st.conf.hasCsSmb) front st log = (.ok (), s', log')) := by
  obtain ⟨pre, post, r, s', evs, hsplit, hrun, hmarks, hend⟩ :=
    each_marks releases rfl releases_append Held.release
      (fun h s => (h.finish_releases api st.conf.hasCsSmb s).mono fun _ _ _ hq => hq.2)
      st.held st log
  refine ⟨pre, post, hsplit, ?_, ?_⟩
  · cases r with
    | ok _ =>
      obtain ⟨r, s'', evs', hv, -, hvr, -⟩ := finishVcenter_spec api st s' (log ++ evs)
      have hfinish : finish api st log = (r, s'', log ++ (evs ++ evs')) := by
        rw [finish_eq, run_bind_ok hrun, hv, List.append_assoc]
      rw [newEvents_of_run hfinish, releases_append, hvr, hmarks, List.append_nil]
    | error e =>
      have hfinish : finish api st log = (.error e, s', log ++ evs) := by
        rw [finish_eq, run_bind_error hrun]
      rw [newEvents_of_run hfinish, hmarks]
  · rcases hend with ⟨rfl, hpost⟩ | ⟨front, h, hpre, hfront, hraise⟩
    · exact .inl ⟨⟨s', _, hrun⟩, hpost⟩
    · exact .inr ⟨front, h, hpre, hraise, hfront⟩

/-- No release raises except the last one, each tried after those before it. -/
def OnlyLastRaises (api : Api) (st : HandlerStorage) (log : List Event) : Prop :=
  ∀ pre h post, st.held = pre ++ h :: post → post ≠ [] →
    ¬ Raises (h.finish api st.conf.hasCsSmb)
      (sweep (Held.finish api st.conf.hasCsSmb) pre st log).2.1
      (sweep (Held.finish api st.conf.hasCsSmb) pre st log).2.2

/-- `finish` tries the release of everything held exactly when no release
before the last one raises. -/
theorem finish_attempts_all (api : Api) (st : HandlerStorage) (log : List Event) :
    (st.held.map Held.release).Subperm (releases (newEvents (finish api) st log)) ↔
      OnlyLastRaises api st log := by
  obtain ⟨pre, post, hsplit, hreleases, hend⟩ := finish_reaches api st log
  rw [hreleases]
  constructor
  · intro hsub front h rest hfront hrest
    have hlength := hsub.length_le
    have hpost : post = [] := by
      rw [hsplit] at hlength
      simp only [List.length_map, List.length_append] at hlength
      exact List.eq_nil_of_length_eq_zero (by omega)
    subst hpost
    rcases hend with ⟨⟨s', log', hrun⟩, -⟩ | ⟨front', h', hpre, -, s', log', hrun⟩
    · rw [hfront] at hrun
      exact not_raises_of_each hrun
    · -- `h` stands before the handler whose release raised
      have hheld : front' ++ [h'] = front ++ h :: rest := by
        rw [← hpre, ← hfront, hsplit, List.append_nil]
      obtain ⟨last, x, rfl⟩ := List.eq_nil_or_concat rest |>.resolve_left hrest
      have hfront' : front' = front ++ h :: last := by
        have hassoc : front' ++ [h'] = (front ++ h :: last) ++ [x] := by simpa using hheld
        exact (List.append_inj' hassoc rfl).1
      rw [hfront'] at hrun
      exact not_raises_of_each hrun
  · intro honly
    rcases hend with ⟨-, rfl⟩ | ⟨front, h, rfl, hraise, -⟩
    · rw [hsplit, List.append_nil]
    · have hpost : post = [] := by
        by_contra hpost
        exact honly front h post (by simpa using hsplit) hpost hraise
      rw [hsplit, hpost, List.append_nil]

/-- Two sandboxes are held and the `EndReservation` of the first one fails: the
second reservation is not ended. -/
theorem finish_leaves_reservation :
    let api : Api := { Api.obliging with
      endReservation := fun _ rid =>
        if rid = "r1" then .error (.cloudShellApi "100" "") else .ok () }
    let st : HandlerStorage := {
      conf := { shellsConf := [], resourcesConf := [] }
      sandboxMemo := some [⟨{ name := "first" }, "r1"⟩, ⟨{ name := "second" }, "r2"⟩] }
    ¬ (st.held.map Held.release).Subperm (releases (newEvents (finish api) st [])) := by
  intro api st hsub
  exact absurd hsub.length_le (by decide)

end HandlerStorage

end ShellTests
