import ShellTests.DoHandler
import ShellTests.RemoteFiles

/-!
# Hosts that have to be alive

Before a run `check_all_resources_is_alive` pings the hosts of the config. It
gathers them in a dictionary first, under the names of the resources and under
names of its own.
-/

namespace ShellTests.AliveHosts

structure DoHostConfig extends DoConfig where
  host : String
  deriving DecidableEq, Repr

/-- A `MainConfig` as the validators let it through, with what is read of it. -/
structure MainConfig where
  resourcesConf : List ResourceConfig := []
  doConf : Option DoHostConfig := none
  csConf : Option CloudShellConfig := none
  ftpConf : Option HostWithUserConfig := none
  scpConf : Option HostWithUserConfig := none
  tftpConf : Option HostConfig := none
  -- `_check_cs_conf_or_do`
  csConfOrDo : (doConf.bind (·.csOnDoConf)).isSome ∨ csConf.isSome

namespace MainConfig

variable (conf : MainConfig)

def createsCs : Bool := (conf.doConf.bind (·.csOnDoConf)).isSome

theorem csConf_isSome (h : conf.createsCs = false) : conf.csConf.isSome := by
  refine conf.csConfOrDo.resolve_left fun hdo => ?_
  rw [createsCs, hdo] at h
  cases h

theorem createsCs_of_none (h : conf.doConf = none) : conf.createsCs = false := by
  rw [createsCs, h]
  rfl

/-- The items of `{resource.name: resource.device_ip ...}`. -/
def deviceIps : List (String × String) :=
  conf.resourcesConf.filterMap fun resource => match resource.deviceIp with
    | none | some "" => none
    | some ip => some (resource.name, ip)

end MainConfig

def dictOf (items : List (String × String)) : List (String × String) :=
  items.foldl (fun d item => dictSet d item.1 item.2) []

def setHost (key : String) (host : Option String) (d : List (String × String)) :
    List (String × String) :=
  match host with
  | some host => dictSet d key host
  | none => d

def resourcesToCheck (conf : MainConfig) : List (String × String) :=
  let d := dictOf conf.deviceIps
  let d := setHost "FTP" (conf.ftpConf.map (·.netloc)) d
  let d := setHost "SCP" (conf.scpConf.map (·.netloc)) d
  let d := setHost "TFTP" (conf.tftpConf.map (·.netloc)) d
  match h : conf.doConf with
  | some doConf => dictSet d "Do" doConf.host
  | none =>
    let csConf := conf.csConf.get (conf.csConf_isSome (conf.createsCs_of_none h))
    dictSet d "CloudShell" csConf.host

variable (isHostAlive : String → Bool)

/-- The loop over the dictionary, with the text of the `ResourceIsNotAliveError`. -/
def checkHosts : List (String × String) → Except String Unit
  | [] => .ok ()
  | (name, host) :: rest =>
    if isHostAlive host then checkHosts rest
    else .error s!"{name} ({host}) is not alive, check it"

def checkAllResourcesIsAlive (conf : MainConfig) : Except String Unit :=
  checkHosts isHostAlive (resourcesToCheck conf)

theorem checkHosts_ok_iff (d : List (String × String)) :
    checkHosts isHostAlive d = .ok () ↔ ∀ item ∈ d, isHostAlive item.2 := by
  induction d with
  | nil => simp [checkHosts]
  | cons item d ih =>
    rw [checkHosts, List.forall_mem_cons, ← ih]
    split
    next halive => simp [halive]
    next hdead => simp [hdead]

theorem mem_dictSet {d : List (String × String)} {key value : String} {item : String × String} :
    item ∈ dictSet d key value ↔ item = (key, value) ∨ item.1 ≠ key ∧ item ∈ d := by
  unfold dictSet
  split
  next hany =>
    obtain ⟨old, hold, hkey⟩ := List.any_eq_true.mp hany
    rw [List.mem_map]
    constructor
    · rintro ⟨p, hp, rfl⟩
      by_cases hp' : p.1 = key
      · simp [hp']
      · exact .inr (by simp [hp', hp])
    · rintro (rfl | ⟨hne, hmem⟩)
      · exact ⟨old, hold, if_pos hkey⟩
      · exact ⟨item, hmem, if_neg (by simpa using hne)⟩
  next hnone =>
    have hkeys : ∀ p ∈ d, p.1 ≠ key := fun p hp heq =>
      hnone (List.any_eq_true.mpr ⟨p, hp, by simpa using heq⟩)
    rw [List.mem_append, List.mem_singleton, or_comm]
    exact or_congr_right ⟨fun hmem => ⟨hkeys item hmem, hmem⟩, And.right⟩

def LastUnder (items : List (String × String)) (item : String × String) : Prop :=
  ∃ pre post, items = pre ++ item :: post ∧ ∀ later ∈ post, later.1 ≠ item.1

theorem lastUnder_concat {items : List (String × String)} {last item : String × String} :
    LastUnder (items ++ [last]) item ↔
      item = last ∨ item.1 ≠ last.1 ∧ LastUnder items item := by
  constructor
  · rintro ⟨pre, post, heq, hpost⟩
    rcases List.eq_nil_or_concat' post with rfl | ⟨post, later, rfl⟩
    · exact .inl (List.append_singleton_inj.mp heq).2.symm
    · rw [← List.cons_append, ← List.append_assoc, List.append_singleton_inj] at heq
      obtain ⟨rfl, rfl⟩ := heq
      refine .inr ⟨(hpost last (by simp)).symm, pre, post, rfl, fun later hlater => ?_⟩
      exact hpost later (List.mem_append_left _ hlater)
  · rintro (rfl | ⟨hne, pre, post, rfl, hpost⟩)
    · exact ⟨items, [], rfl, nofun⟩
    · refine ⟨pre, post ++ [last], by simp, fun later hlater => ?_⟩
      rcases List.mem_append.mp hlater with hlater | hlater
      · exact hpost later hlater
      · rw [List.mem_singleton.mp hlater]
        exact hne.symm

theorem mem_dictOf {items : List (String × String)} {item : String × String} :
    item ∈ dictOf items ↔ LastUnder items item := by
  induction items using List.reverseRecOn with
  | nil => simp [dictOf, LastUnder]
  | append_singleton items last ih =>
    have hconcat : dictOf (items ++ [last]) = dictSet (dictOf items) last.1 last.2 := by
      simp [dictOf]
    rw [hconcat, mem_dictSet, lastUnder_concat, ih]

-- ---------------------------------------------------------------------------
-- What is asked for, and when it is checked
-- ---------------------------------------------------------------------------

namespace MainConfig

variable (conf : MainConfig)

def serverHosts : List (String × String) :=
  (conf.ftpConf.map fun ftp => ("FTP", ftp.netloc)).toList ++
    (conf.scpConf.map fun scp => ("SCP", scp.netloc)).toList ++
    (conf.tftpConf.map fun tftp => ("TFTP", tftp.netloc)).toList

def lastHost : List (String × String) :=
  match conf.doConf with
  | some doConf => [("Do", doConf.host)]
  | none => (conf.csConf.map fun cs => ("CloudShell", cs.host)).toList

def items : List (String × String) := conf.deviceIps ++ conf.serverHosts ++ conf.lastHost

/-- The hosts that a run of this config needs: those of the resources, the
servers and Do, and the CloudShell's when none is to be created on Do. -/
def requiredHosts : List String :=
  conf.deviceIps.map (·.2) ++ conf.serverHosts.map (·.2) ++
    (conf.doConf.map (·.host)).toList ++
    if conf.createsCs then [] else (conf.csConf.map (·.host)).toList

end MainConfig

theorem setHost_dictOf (items : List (String × String)) (key : String) (host : Option String) :
    setHost key host (dictOf items) =
      dictOf (items ++ (host.map fun host => (key, host)).toList) := by
  cases host with
  | none => simp [setHost]
  | some host => simp [setHost, dictOf]

theorem resourcesToCheck_eq (conf : MainConfig) : resourcesToCheck conf = dictOf conf.items := by
  have hservers : setHost "TFTP" (conf.tftpConf.map (·.netloc))
      (setHost "SCP" (conf.scpConf.map (·.netloc))
        (setHost "FTP" (conf.ftpConf.map (·.netloc)) (dictOf conf.deviceIps))) =
      dictOf (conf.deviceIps ++ conf.serverHosts) := by
    simp only [setHost_dictOf, MainConfig.serverHosts, Option.map_map, Function.comp_def,
      List.append_assoc]
  have hset (key host : String) (items : List (String × String)) :
      dictSet (dictOf items) key host = dictOf (items ++ [(key, host)]) := by
    simp [dictOf]
  unfold resourcesToCheck MainConfig.items MainConfig.lastHost
  simp only [hservers]
  split
  next doConf h => simp only [h, hset]
  next h =>
    have hcs := conf.csConf_isSome (conf.createsCs_of_none h)
    obtain ⟨cs, hcs⟩ := Option.isSome_iff_exists.mp hcs
    simp [h, hcs, hset]

/-- No host that a run needs is left out: a name that is used again, for the
host that it had or for one that is there in another place, and the CloudShell
beside a Do is one of the other hosts. -/
structure NothingLost (conf : MainConfig) : Prop where
  named : ∀ item ∈ conf.items, ∃ kept, LastUnder conf.items kept ∧ kept.2 = item.2
  cloudShell : conf.doConf.isSome → conf.createsCs = false →
    ∀ cs ∈ conf.csConf, ∃ item ∈ conf.items, item.2 = cs.host

theorem mem_of_lastUnder {items : List (String × String)} {item : String × String}
    (h : LastUnder items item) : item ∈ items := by
  obtain ⟨pre, post, rfl, -⟩ := h
  simp

theorem mem_requiredHosts {conf : MainConfig} {host : String} :
    host ∈ conf.requiredHosts ↔ (∃ item ∈ conf.items, item.2 = host) ∨
      conf.doConf.isSome ∧ conf.createsCs = false ∧ ∃ cs ∈ conf.csConf, cs.host = host := by
  have hitems : (∃ item ∈ conf.items, item.2 = host) ↔
      host ∈ conf.deviceIps.map (·.2) ++ conf.serverHosts.map (·.2) ++
        conf.lastHost.map (·.2) := by
    rw [← List.map_append, ← List.map_append, List.mem_map]
    rfl
  rw [hitems, MainConfig.requiredHosts]
  cases hdo : conf.doConf with
  | none =>
    have hcreates := conf.createsCs_of_none hdo
    cases hcs : conf.csConf <;> simp [MainConfig.lastHost, hdo, hcs, hcreates]
  | some doConf =>
    cases hcreates : conf.createsCs with
    | true => simp [MainConfig.lastHost, hdo]
    | false => cases hcs : conf.csConf <;> simp [MainConfig.lastHost, hdo, or_assoc, eq_comm]

theorem required_iff (conf : MainConfig) :
    (∀ host ∈ conf.requiredHosts, ∃ item ∈ resourcesToCheck conf, item.2 = host) ↔
      NothingLost conf := by
  simp only [resourcesToCheck_eq, mem_dictOf]
  constructor
  · intro h
    refine ⟨fun item hitem => ?_, fun hdo hcreates cs hcs => ?_⟩
    · exact h item.2 (mem_requiredHosts.mpr (.inl ⟨item, hitem, rfl⟩))
    · obtain ⟨item, hlast, heq⟩ :=
        h cs.host (mem_requiredHosts.mpr (.inr ⟨hdo, hcreates, cs, hcs, rfl⟩))
      exact ⟨item, mem_of_lastUnder hlast, heq⟩
  · rintro ⟨hnamed, hcloudShell⟩ host hhost
    rcases mem_requiredHosts.mp hhost with ⟨item, hitem, rfl⟩ | ⟨hdo, hcreates, cs, hcs, rfl⟩
    · exact hnamed item hitem
    · obtain ⟨item, hitem, heq⟩ := hcloudShell hdo hcreates cs hcs
      rw [← heq]
      exact hnamed item hitem

/-- The check says whether all the hosts that a run needs are alive, for all
that may be alive, exactly when none of these hosts is lost. -/
theorem checkAllResourcesIsAlive_iff (conf : MainConfig) :
    (∀ isHostAlive : String → Bool, checkAllResourcesIsAlive isHostAlive conf = .ok () ↔
        ∀ host ∈ conf.requiredHosts, isHostAlive host) ↔
      NothingLost conf := by
  rw [← required_iff]
  have hchecked (isHostAlive : String → Bool) :=
    checkHosts_ok_iff isHostAlive (resourcesToCheck conf)
  constructor
  · intro h host hhost
    by_contra hlost
    have hok := (hchecked fun other => other ≠ host).mpr fun item hitem => by
      simpa using fun heq => hlost ⟨item, hitem, heq⟩
    have hdead := (h fun other => other ≠ host).mp hok host hhost
    simp at hdead
  · intro h isHostAlive
    rw [checkAllResourcesIsAlive, hchecked]
    constructor
    · intro halive host hhost
      obtain ⟨item, hitem, rfl⟩ := h host hhost
      exact halive item hitem
    · intro halive item hitem
      rw [resourcesToCheck_eq, mem_dictOf] at hitem
      exact halive _ (mem_requiredHosts.mpr (.inl ⟨item, mem_of_lastUnder hitem, rfl⟩))

def namedFtp : MainConfig where
  resourcesConf := [{ name := "FTP", shellName := "shell", deviceIp := some "10.0.0.1" }]
  ftpConf := some { host := "10.0.0.2" }
  csConf := some { host := "10.0.0.3", user := "admin", password := "admin" }
  csConfOrDo := .inr rfl

def besideDo : MainConfig where
  doConf := some { host := "10.0.0.4" }
  csConf := some { host := "10.0.0.3", user := "admin", password := "admin" }
  csConfOrDo := .inr rfl

/-- Neither the resource's host nor the CloudShell's is pinged. -/
theorem checkAllResourcesIsAlive_loses :
    checkAllResourcesIsAlive (· ≠ "10.0.0.1") namedFtp = .ok () ∧
      "10.0.0.1" ∈ namedFtp.requiredHosts ∧
      checkAllResourcesIsAlive (· ≠ "10.0.0.3") besideDo = .ok () ∧
      "10.0.0.3" ∈ besideDo.requiredHosts := by
  decide +kernel

end ShellTests.AliveHosts
