import ShellTests.DoHandler

/-!
# The addresses of the networking apps

`DoHandler._prepare` takes the apps in the order in which they were created
and gives the address of each to the first resource conf that names it.
-/

namespace ShellTests.NetworkingApps

open Prog

variable {api : Api} {address : String → String} {apps : List DeploymentResourceHandler}
  {confs : List ResourceConfig}

/-- The loop over the futures of the apps, which come in this order. -/
def collectApps (api : Api) (order : List DeploymentResourceHandler) :
    Cs (List ResourceConfig) Unit :=
  each (updateResourceConf api) order

/-- The confs after the loop, which may have raised. -/
def finalConfs (api : Api) (confs : List ResourceConfig) (log : List Event)
    (order : List DeploymentResourceHandler) : List ResourceConfig :=
  (collectApps api order confs log).2.1

/-- The apps were created, with these addresses. -/
def Created (api : Api) (address : String → String) (apps : List DeploymentResourceHandler) :
    Prop :=
  ∀ app ∈ apps, ∀ log, ∃ attributes,
    api.getResourceDetails log app.name = .ok ⟨address app.name, attributes⟩

def Uses (conf : ResourceConfig) (app : DeploymentResourceHandler) : Prop :=
  conf.networkingAppName = some app.conf.name

instance (conf : ResourceConfig) (app : DeploymentResourceHandler) : Decidable (Uses conf app) :=
  inferInstanceAs (Decidable (_ = _))

def Assigned (ip : String) (conf : ResourceConfig) : Prop :=
  conf.deviceIp = some ip ∧ (lookupLast "User" conf.attributes).getD "" ≠ ""

instance (ip : String) (conf : ResourceConfig) : Decidable (Assigned ip conf) :=
  inferInstanceAs (Decidable (_ ∧ _))

/-- What the confs are meant to be in the end. -/
structure Covers (address : String → String) (apps : List DeploymentResourceHandler)
    (confs final : List ResourceConfig) : Prop where
  length : final.length = confs.length
  used : ∀ (i : Nat) conf, confs[i]? = some conf → ∀ app ∈ apps, Uses conf app →
    ∃ conf', final[i]? = some conf' ∧ Assigned (address app.name) conf'
  others : ∀ (i : Nat) conf, confs[i]? = some conf → (∀ app ∈ apps, ¬ Uses conf app) →
    final[i]? = some conf

/-- Every order leaves the same confs, and they are as they are meant to be. -/
structure Prepares (api : Api) (address : String → String) (apps : List DeploymentResourceHandler)
    (confs : List ResourceConfig) (log : List Event) : Prop where
  same : ∀ order order', order.Perm apps → order'.Perm apps →
    finalConfs api confs log order = finalConfs api confs log order'
  covers : ∀ order, order.Perm apps → Covers address apps confs (finalConfs api confs log order)

def AllUsed (apps : List DeploymentResourceHandler) (confs : List ResourceConfig) : Prop :=
  ∀ app ∈ apps, ∃ conf ∈ confs, Uses conf app

/-- Apps of one name have one address, and of the confs that name an app all
but the first have its address and a user already. -/
structure OneConfEach (address : String → String) (apps : List DeploymentResourceHandler)
    (confs : List ResourceConfig) : Prop where
  addresses : ∀ a ∈ apps, ∀ b ∈ apps, a.conf.name = b.conf.name → address a.name = address b.name
  later : confs.Pairwise fun first conf =>
    ∀ app ∈ apps, Uses first app → Uses conf app → Assigned (address app.name) conf

def AllAssigned (address : String → String) (apps : List DeploymentResourceHandler)
    (confs : List ResourceConfig) : Prop :=
  ∀ conf ∈ confs, ∀ app ∈ apps, Uses conf app → Assigned (address app.name) conf

theorem lookupLast_append (key : String) (d : List (String × String)) (p : String × String) :
    lookupLast key (d ++ [p]) = if p.1 = key then some p.2 else lookupLast key d := by
  unfold lookupLast
  rw [List.reverse_append, List.reverse_singleton, List.singleton_append, List.find?_cons]
  by_cases h : p.1 = key
  · simp [h]
  · simp [beq_eq_false_iff_ne.mpr h, h]

theorem lookupLast_dictSet (d : List (String × String)) (key value : String) :
    lookupLast key (dictSet d key value) = some value := by
  unfold dictSet
  split
  · rename_i hany
    induction d using List.reverseRecOn with
    | nil => simp at hany
    | append_singleton d p ih =>
      rw [List.map_append, List.map_singleton, lookupLast_append]
      by_cases hp : p.1 = key
      · simp [hp]
      · have hany : (d.any fun x => x.1 == key) = true := by simpa [hp] using hany
        simpa [hp] using ih hany
  · simp [lookupLast_append]

theorem lookupLast_dictSet_ne (d : List (String × String)) {key key' : String} (value : String)
    (h : key' ≠ key) : lookupLast key' (dictSet d key value) = lookupLast key' d := by
  unfold dictSet
  split
  · rename_i hany
    clear hany
    induction d using List.reverseRecOn with
    | nil => rfl
    | append_singleton d p ih =>
      rw [List.map_append, List.map_singleton, lookupLast_append, lookupLast_append, ih]
      by_cases hp : p.1 = key
      · simp [hp, h.symm]
      · simp [hp]
  · rw [lookupLast_append, if_neg h.symm]

theorem defaultUsers_user (attributes : List (String × String)) :
    (lookupLast "User" (defaultUsers attributes)).getD "" ≠ "" := by
  unfold defaultUsers
  split
  · rw [lookupLast_dictSet_ne _ _ (by decide), lookupLast_dictSet_ne _ _ (by decide),
      lookupLast_dictSet]
    decide
  · assumption

def withAddress (ip : String) (conf : ResourceConfig) : ResourceConfig :=
  { conf with deviceIp := some ip, attributes := defaultUsers conf.attributes }

@[simp] theorem withAddress_networkingAppName (ip : String) (conf : ResourceConfig) :
    (withAddress ip conf).networkingAppName = conf.networkingAppName := rfl

theorem withAddress_assigned (ip : String) (conf : ResourceConfig) :
    Assigned ip (withAddress ip conf) := ⟨rfl, defaultUsers_user _⟩

theorem withAddress_of_assigned {ip : String} {conf : ResourceConfig} (h : Assigned ip conf) :
    withAddress ip conf = conf := by
  unfold withAddress defaultUsers
  rw [if_neg h.2, ← h.1]

theorem withAddress_withAddress (ip : String) (conf : ResourceConfig) :
    withAddress ip (withAddress ip conf) = withAddress ip conf :=
  withAddress_of_assigned (withAddress_assigned ip conf)

def place (confs : List ResourceConfig) (app : DeploymentResourceHandler) : Option Nat :=
  confs.findIdx? (·.networkingAppName == some app.conf.name)

theorem place_eq_some {app : DeploymentResourceHandler} {i : Nat} (h : place confs app = some i) :
    ∃ conf, confs[i]? = some conf ∧ Uses conf app := by
  obtain ⟨hi, huses, -⟩ := List.findIdx?_eq_some_iff_getElem.mp h
  exact ⟨confs[i], List.getElem?_eq_getElem hi, by simpa [Uses] using huses⟩

theorem uses_of_place {app : DeploymentResourceHandler} {i : Nat} {conf : ResourceConfig}
    (hconf : confs[i]? = some conf) (h : place confs app = some i) : Uses conf app := by
  obtain ⟨conf', hconf', huses⟩ := place_eq_some h
  obtain rfl : conf' = conf := Option.some.inj (hconf'.symm.trans hconf)
  exact huses

theorem place_eq_none {app : DeploymentResourceHandler} (h : place confs app = none) :
    ∀ conf ∈ confs, ¬ Uses conf app := by
  intro conf hconf
  simpa [Uses] using List.findIdx?_eq_none_iff.mp h conf hconf

theorem exists_place {app : DeploymentResourceHandler} {j : Nat} {conf : ResourceConfig}
    (hconf : confs[j]? = some conf) (huses : Uses conf app) :
    ∃ i ≤ j, place confs app = some i := by
  cases hplace : place confs app with
  | none => exact absurd huses (place_eq_none hplace conf (List.mem_of_getElem? hconf))
  | some i =>
    refine ⟨i, ?_, rfl⟩
    by_contra hij
    obtain ⟨hj, rfl⟩ := List.getElem?_eq_some_iff.mp hconf
    have hfirst := (List.findIdx?_eq_some_iff_getElem.mp hplace).2.2 j (by omega)
    exact hfirst (by simpa [Uses] using huses)

theorem Uses.name_eq {conf : ResourceConfig} {a b : DeploymentResourceHandler} (ha : Uses conf a)
    (hb : Uses conf b) : a.conf.name = b.conf.name :=
  Option.some.inj (ha.symm.trans hb)

theorem Uses.place_eq {conf : ResourceConfig} {a b : DeploymentResourceHandler} (ha : Uses conf a)
    (hb : Uses conf b) : place confs a = place confs b := by
  unfold place
  rw [ha.name_eq hb]

theorem place_ne_later {app : DeploymentResourceHandler} {j k : Nat} {conf : ResourceConfig}
    (hconf : confs[j]? = some conf) (huses : Uses conf app) (hplace : place confs app = some k)
    (hlt : k < j) (b : DeploymentResourceHandler) : place confs b ≠ some j := by
  intro hbplace
  rw [(uses_of_place hconf hbplace).place_eq huses, hplace] at hbplace
  exact absurd (Option.some.inj hbplace) (by omega)

theorem place_modify (app : DeploymentResourceHandler) (i : Nat) (ip : String) :
    place (confs.modify i (withAddress ip)) app = place confs app := by
  have hnames : (confs.modify i (withAddress ip)).map (·.networkingAppName) =
      confs.map (·.networkingAppName) := by
    refine List.ext_getElem? fun j => ?_
    rw [List.getElem?_map, List.getElem?_map, List.getElem?_modify]
    cases confs[j]? with
    | none => rfl
    | some conf =>
      by_cases hij : i = j <;> simp [hij]
  have hmap (l : List ResourceConfig) :
      place l app = (l.map (·.networkingAppName)).findIdx? (· == some app.conf.name) := by
    rw [List.findIdx?_map]
    rfl
  rw [hmap, hmap, hnames]

-- ---------------------------------------------------------------------------
-- The loop without its calls
-- ---------------------------------------------------------------------------

/-- The confs after these apps; the first app that no conf names ends the loop. -/
def settle (address : String → String) :
    List DeploymentResourceHandler → List ResourceConfig → List ResourceConfig
  | [], confs => confs
  | app :: order, confs =>
    match place confs app with
    | none => confs
    | some i => settle address order (confs.modify i (withAddress (address app.name)))

theorem finalConfs_eq_settle (hcreated : Created api address apps) (log : List Event)
    {order : List DeploymentResourceHandler} (hsub : order ⊆ apps) :
    finalConfs api confs log order = settle address order confs := by
  induction order generalizing confs log with
  | nil => rfl
  | cons app order ih =>
    obtain ⟨happ, hsub⟩ := List.cons_subset.mp hsub
    obtain ⟨attributes, hdetails⟩ := hcreated app happ log
    rw [settle]
    cases hplace : place confs app with
    | none =>
      have hrun : updateResourceConf api app confs log = (.error (.baseAutomation
          s!"Resource {app.conf.name} is not present in resources config"), confs, log) := by
        unfold place at hplace
        simp [updateResourceConf, run_bind, hplace]
      have hloop := run_bind_error (f := fun _ => each (updateResourceConf api) order) hrun
      exact congrArg (·.2.1) hloop
    | some i =>
      have hrun : updateResourceConf api app confs log =
          (.ok (), confs.modify i (withAddress (address app.name)),
            log ++ [.getResourceDetails app.name (.ok ⟨address app.name, attributes⟩)]) := by
        unfold place at hplace
        simp [updateResourceConf, run_bind, hplace, DeploymentResourceHandler.getDetails,
          CloudShellHandler.getResourceDetails, hdetails]
        rfl
      have hloop := run_bind_ok (f := fun _ => each (updateResourceConf api) order) hrun
      exact (congrArg (·.2.1) hloop).trans (ih _ hsub)

@[simp] theorem length_settle (order : List DeploymentResourceHandler) :
    (settle address order confs).length = confs.length := by
  induction order generalizing confs with
  | nil => rfl
  | cons app order ih =>
    rw [settle]
    split
    · rfl
    · rw [ih, List.length_modify]

theorem settle_elsewhere {i : Nat} {order : List DeploymentResourceHandler}
    (h : ∀ app ∈ order, place confs app ≠ some i) :
    (settle address order confs)[i]? = confs[i]? := by
  induction order generalizing confs with
  | nil => rfl
  | cons app order ih =>
    rw [settle]
    split
    · rfl
    · rename_i k hplace
      have hk : k ≠ i := by
        rintro rfl
        exact h app (by simp) hplace
      rw [ih, List.getElem?_modify_ne _ _ hk]
      intro b hb
      rw [place_modify]
      exact h b (by simp [hb])

theorem settle_at {i : Nat} {ip : String} {order : List DeploymentResourceHandler}
    (hplaced : ∀ app ∈ order, place confs app ≠ none)
    (hip : ∀ app ∈ order, place confs app = some i → address app.name = ip)
    (happ : ∃ app ∈ order, place confs app = some i) :
    (settle address order confs)[i]? = confs[i]?.map (withAddress ip) := by
  induction order generalizing confs with
  | nil => simp at happ
  | cons app order ih =>
    rw [settle]
    cases hplace : place confs app with
    | none => exact absurd hplace (hplaced app (by simp))
    | some k =>
      simp only
      by_cases hrest : ∃ b ∈ order, place confs b = some i
      · rw [ih]
        · rw [List.getElem?_modify]
          by_cases hk : k = i
          · subst hk
            rw [hip app (by simp) hplace]
            cases confs[k]? <;> simp [withAddress_withAddress]
          · simp [hk]
        · intro b hb
          rw [place_modify]
          exact hplaced b (by simp [hb])
        · intro b hb
          rw [place_modify]
          exact hip b (by simp [hb])
        · simpa only [place_modify] using hrest
      · have hk : place confs app = some i := by
          obtain ⟨b, hb, hbplace⟩ := happ
          rcases List.mem_cons.mp hb with rfl | hb
          · exact hbplace
          · exact absurd ⟨b, hb, hbplace⟩ hrest
        obtain rfl : k = i := Option.some.inj (hplace.symm.trans hk)
        rw [settle_elsewhere, List.getElem?_modify_eq, hip app (by simp) hplace]
        · rfl
        · intro b hb hbplace
          rw [place_modify] at hbplace
          exact hrest ⟨b, hb, hbplace⟩

theorem settle_assigned {order : List DeploymentResourceHandler}
    (h : AllAssigned address order confs) : settle address order confs = confs := by
  induction order with
  | nil => rfl
  | cons app order ih =>
    rw [settle]
    cases hplace : place confs app with
    | none => rfl
    | some i =>
      obtain ⟨conf, hconf, huses⟩ := place_eq_some hplace
      have hassigned : Assigned (address app.name) conf :=
        h conf (List.mem_of_getElem? hconf) app (by simp) huses
      have hsame : confs.modify i (withAddress (address app.name)) = confs := by
        refine List.ext_getElem? fun j => ?_
        rw [List.getElem?_modify]
        by_cases hij : i = j
        · subst hij
          simp [hconf, withAddress_of_assigned hassigned]
        · simp [hij]
      simp only
      rw [hsame]
      exact ih fun c hc b hb => h c hc b (by simp [hb])

-- ---------------------------------------------------------------------------
-- When the loop does what it is meant to do
-- ---------------------------------------------------------------------------

theorem settle_placed (hused : AllUsed apps confs) (hone : OneConfEach address apps confs)
    {order : List DeploymentResourceHandler} (hperm : order.Perm apps)
    {app : DeploymentResourceHandler} (happ : app ∈ apps) {i : Nat}
    (hplace : place confs app = some i) :
    (settle address order confs)[i]? = confs[i]?.map (withAddress (address app.name)) := by
  refine settle_at ?_ ?_ ⟨app, hperm.mem_iff.mpr happ, hplace⟩
  · intro b hb hnone
    obtain ⟨conf, hconf, huses⟩ := hused b (hperm.mem_iff.mp hb)
    exact place_eq_none hnone conf hconf huses
  · intro b hb hbplace
    obtain ⟨conf, hconf, huses⟩ := place_eq_some hplace
    have hname : b.conf.name = app.conf.name := (uses_of_place hconf hbplace).name_eq huses
    exact hone.addresses b (hperm.mem_iff.mp hb) app happ hname

theorem settle_perm (hused : AllUsed apps confs) (hone : OneConfEach address apps confs)
    {order order' : List DeploymentResourceHandler} (hperm : order.Perm apps)
    (hperm' : order'.Perm apps) : settle address order confs = settle address order' confs := by
  refine List.ext_getElem? fun i => ?_
  by_cases hplaced : ∃ app ∈ apps, place confs app = some i
  · obtain ⟨app, happ, hplace⟩ := hplaced
    rw [settle_placed hused hone hperm happ hplace, settle_placed hused hone hperm' happ hplace]
  · have hfree {l : List DeploymentResourceHandler} (hl : l.Perm apps) :
        ∀ app ∈ l, place confs app ≠ some i :=
      fun app happ hplace => hplaced ⟨app, hl.mem_iff.mp happ, hplace⟩
    rw [settle_elsewhere (hfree hperm), settle_elsewhere (hfree hperm')]

theorem settle_covers (hused : AllUsed apps confs) (hone : OneConfEach address apps confs)
    {order : List DeploymentResourceHandler} (hperm : order.Perm apps) :
    Covers address apps confs (settle address order confs) where
  length := length_settle order
  used := by
    intro i conf hconf app happ huses
    obtain ⟨k, hki, hplace⟩ := exists_place hconf huses
    rcases Nat.eq_or_lt_of_le hki with rfl | hlt
    · exact ⟨withAddress (address app.name) conf,
        by rw [settle_placed hused hone hperm happ hplace, hconf]; rfl, withAddress_assigned _ _⟩
    · obtain ⟨first, hfirst, hfirstUses⟩ := place_eq_some hplace
      obtain ⟨hk, rfl⟩ := List.getElem?_eq_some_iff.mp hfirst
      obtain ⟨hi, rfl⟩ := List.getElem?_eq_some_iff.mp hconf
      refine ⟨confs[i], ?_, List.pairwise_iff_getElem.mp hone.later k i hk hi hlt app happ
        hfirstUses huses⟩
      rw [settle_elsewhere, hconf]
      exact fun b _ => place_ne_later hconf huses hplace hlt b
  others := by
    intro i conf hconf hnone
    rw [settle_elsewhere, hconf]
    intro app happ hplace
    exact hnone app (hperm.mem_iff.mp happ) (uses_of_place hconf hplace)

theorem oneConfEach_of_covers (hused : AllUsed apps confs)
    (hcovers : Covers address apps confs (settle address apps confs)) :
    OneConfEach address apps confs where
  addresses := by
    intro a ha b hb hname
    obtain ⟨conf, hmem, huses⟩ := hused a ha
    obtain ⟨i, hconf⟩ := List.mem_iff_getElem?.mp hmem
    have huses' : Uses conf b := huses.trans (congrArg some hname)
    obtain ⟨final, hfinal, hip, -⟩ := hcovers.used i conf hconf a ha huses
    obtain ⟨final', hfinal', hip', -⟩ := hcovers.used i conf hconf b hb huses'
    obtain rfl : final = final' := Option.some.inj (hfinal.symm.trans hfinal')
    exact Option.some.inj (hip.symm.trans hip')
  later := by
    refine List.pairwise_iff_getElem.mpr ?_
    intro i j hi hj hij app happ hfirst huses
    have hconf : confs[j]? = some confs[j] := List.getElem?_eq_getElem hj
    obtain ⟨final, hfinal, hassigned⟩ := hcovers.used j confs[j] hconf app happ huses
    obtain ⟨k, hki, hplace⟩ := exists_place (List.getElem?_eq_getElem hi) hfirst
    rw [settle_elsewhere, hconf] at hfinal
    · exact Option.some.inj hfinal ▸ hassigned
    · exact fun b _ => place_ne_later hconf huses hplace (by omega) b

theorem exists_settle_unchanged (address : String → String) (h : ¬ AllUsed apps confs) :
    ∃ order : List DeploymentResourceHandler,
      order.Perm apps ∧ settle address order confs = confs := by
  simp only [AllUsed, not_forall, not_exists, not_and] at h
  obtain ⟨app, happ, hnone⟩ := h
  refine ⟨app :: apps.erase app, (List.perm_cons_erase happ).symm, ?_⟩
  rw [settle]
  cases hplace : place confs app with
  | none => rfl
  | some i =>
    obtain ⟨conf, hconf, huses⟩ := place_eq_some hplace
    exact absurd huses (hnone conf (List.mem_of_getElem? hconf))

/-- Of several confs that name one app, only the first gets its address. -/
theorem collectApps_prepares_iff (hcreated : Created api address apps) (log : List Event) :
    Prepares api address apps confs log ↔
      AllUsed apps confs ∧ OneConfEach address apps confs ∨ AllAssigned address apps confs := by
  have hfinal {order : List DeploymentResourceHandler} (hperm : order.Perm apps) :
      finalConfs api confs log order = settle address order confs :=
    finalConfs_eq_settle hcreated log hperm.subset
  constructor
  · intro h
    by_cases hused : AllUsed apps confs
    · refine .inl ⟨hused, oneConfEach_of_covers hused ?_⟩
      rw [← hfinal (.refl apps)]
      exact h.covers apps (.refl apps)
    · obtain ⟨order, hperm, hsame⟩ := exists_settle_unchanged address hused
      have hcovers := h.covers order hperm
      rw [hfinal hperm, hsame] at hcovers
      refine .inr fun conf hconf app happ huses => ?_
      obtain ⟨i, hi⟩ := List.mem_iff_getElem?.mp hconf
      obtain ⟨conf', hconf', hassigned⟩ := hcovers.used i conf hi app happ huses
      exact Option.some.inj (hi.symm.trans hconf') ▸ hassigned
  · rintro (⟨hused, hone⟩ | hassigned)
    · refine ⟨fun order order' hperm hperm' => ?_, fun order hperm => ?_⟩
      · rw [hfinal hperm, hfinal hperm']
        exact settle_perm hused hone hperm hperm'
      · rw [hfinal hperm]
        exact settle_covers hused hone hperm
    · have hsame {order : List DeploymentResourceHandler} (hperm : order.Perm apps) :
          finalConfs api confs log order = confs := by
        rw [hfinal hperm]
        exact settle_assigned fun conf hconf app happ =>
          hassigned conf hconf app (hperm.mem_iff.mp happ)
      refine ⟨fun order order' hperm hperm' => by rw [hsame hperm, hsame hperm'], ?_⟩
      intro order hperm
      rw [hsame hperm]
      exact ⟨rfl, fun i conf hconf app happ huses =>
        ⟨conf, hconf, hassigned conf (List.mem_of_getElem? hconf) app happ huses⟩,
        fun i conf hconf _ => hconf⟩

def addressing (address : String → String) : Api :=
  { Api.obliging with getResourceDetails := fun _ name => .ok ⟨address name, []⟩ }

theorem addressing_created : Created (addressing address) address apps :=
  fun _ _ _ => ⟨[], rfl⟩

def router : DeploymentResourceHandler := ⟨⟨"Router", "vRouter"⟩, "vRouter-1"⟩

def switch : DeploymentResourceHandler := ⟨⟨"Switch", "vSwitch"⟩, "vSwitch-1"⟩

def onApp (name app : String) : ResourceConfig :=
  { name := name, shellName := "Shell", networkingAppName := some app }

theorem collectApps_prepares_two :
    Prepares (addressing fun name => name ++ ".local") (fun name => name ++ ".local")
      [router, switch] [onApp "A" "Switch", onApp "B" "Router",
        { name := "C", shellName := "Shell" }] [] :=
  (collectApps_prepares_iff addressing_created []).mpr (.inl ⟨by unfold AllUsed; decide,
    ⟨by decide, by decide⟩⟩)

/-- Two resources on one app: the second gets no address. -/
theorem collectApps_misses_second :
    Created (addressing fun name => name ++ ".local") (fun name => name ++ ".local") [router] ∧
      ¬ Prepares (addressing fun name => name ++ ".local") (fun name => name ++ ".local")
        [router] [onApp "A" "Router", onApp "B" "Router"] [] := by
  refine ⟨addressing_created, fun h => ?_⟩
  obtain ⟨conf, hconf, hip, -⟩ := (h.covers [router] (.refl _)).used 1 (onApp "B" "Router") rfl
    router (by simp) rfl
  obtain rfl : onApp "B" "Router" = conf := Option.some.inj hconf
  exact absurd hip (by decide)

end ShellTests.NetworkingApps
