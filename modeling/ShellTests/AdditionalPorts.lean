import Mathlib.Data.List.Infix
import ShellTests.CloudShell

/-!
# Ports that a configuration adds to a resource

`_add_additional_ports` creates ports on a chassis of the resource, and the
chassis before them where the resource has none. CloudShell keeps its
resources in trees, in which a full path is the names from the root on.
-/

namespace ShellTests.AdditionalPorts

open Prog

-- ---------------------------------------------------------------------------
-- The inventory of CloudShell
-- ---------------------------------------------------------------------------

inductive Resource where
  | mk : (name family model address : String) → (children : List Resource) → Resource

namespace Resource

def name : Resource → String
  | .mk name _ _ _ _ => name

def family : Resource → String
  | .mk _ family _ _ _ => family

def model : Resource → String
  | .mk _ _ model _ _ => model

def children : Resource → List Resource
  | .mk _ _ _ _ children => children

def withChildren (children : List Resource) : Resource → Resource
  | .mk name family model address _ => .mk name family model address children

def childNames (r : Resource) : List String := r.children.map name

def pathUnder (path : String) (r : Resource) : String := path ++ "/" ++ r.name

mutual
/-- The full paths of a resource that has the full path `path`, and of all below it. -/
def paths (path : String) : Resource → List String
  | .mk _ _ _ _ children => path :: pathsIn path children
def pathsIn (path : String) : List Resource → List String
  | [] => []
  | r :: rest => paths (pathUnder path r) r ++ pathsIn path rest
end

mutual
/-- The resource with the full path `target`. -/
def find (target path : String) : Resource → Option Resource
  | .mk name family model address children =>
    if path = target then some (.mk name family model address children)
    else findIn target path children
def findIn (target path : String) : List Resource → Option Resource
  | [] => none
  | r :: rest => (find target (pathUnder path r) r).or (findIn target path rest)
end

mutual
def create (target : String) (path : String) : Resource → (child : Resource) → Resource
  | .mk name family model address children, child =>
    .mk name family model address
      (createIn target path children child ++ if path = target then [child] else [])
def createIn (target : String) (path : String) : List Resource → (child : Resource) → List Resource
  | [], _ => []
  | r :: rest, child =>
    create target (pathUnder path r) r child :: createIn target path rest child
end

def step (root : Resource) : Event → Resource
  | .createResource family model name address parent (.ok ()) =>
    root.create parent root.name (.mk name family model address [])
  | _ => root

def after (root : Resource) (log : List Event) : Resource := log.foldl step root

end Resource

structure ChildInfo where
  name : String
  resourceFamilyName : String
  deriving DecidableEq, Repr

structure Info where
  name : String
  resourceModelName : String
  childResources : List ChildInfo
  deriving DecidableEq, Repr

/-- The details of a root: the names are full paths. -/
def Resource.info (root : Resource) : Info where
  name := root.name
  resourceModelName := root.model
  childResources := root.children.map fun r => ⟨r.pathUnder root.name, r.family⟩

structure AdditionalPort where
  name : String
  deriving DecidableEq, Repr

section
variable (api : Api) (getResourceDetails : List Event → String → Except Exn Info)

/-- `get_details`, which changes nothing. -/
def getDetails (name : String) : Cs σ Info := fun s log => (getResourceDetails log name, s, log)

def addPort (model chassisName : String) (portConf : AdditionalPort) (i : Nat) : Cs σ Unit := do
  let _ ← CloudShellHandler.createResource api portConf.name s!"{model}.GenericPort" s!"P{i}"
    "CS_Port" chassisName

def addAdditionalPorts (name : String) (additionalPortConfigs : List AdditionalPort) :
    Cs σ Unit := do
  let info ← getDetails getResourceDetails name
  let chassis := info.childResources.find? fun childRes =>
    childRes.resourceFamilyName = "CS_Chassis"
  let chassisName ← match chassis with
    | some childRes => pure childRes.name
    | none => do
      let name ← CloudShellHandler.createResource api "Chassis 1"
        s!"{info.resourceModelName}.GenericChassis" "CH1" "CS_Chassis" info.name
      pure s!"{info.name}/{name}"
  each (fun (portConf, i) => addPort api info.resourceModelName chassisName portConf i)
    (additionalPortConfigs.zipIdx 1)

/-- A CloudShell that has the tree of a root: it refuses a name that the parent
already has for a child, and creates any other. -/
structure Serves (root : Resource) : Prop where
  details : ∀ log, getResourceDetails log root.name = .ok (root.after log).info
  taken : ∀ log family model name address parent r,
    (root.after log).find parent root.name = some r → name ∈ r.childNames →
    ∃ msg, api.createResource log family model name address parent =
      .error (.cloudShellApi "114" msg)
  creates : ∀ log family model name address parent r,
    (root.after log).find parent root.name = some r → name ∉ r.childNames →
    api.createResource log family model name address parent = .ok ()

end

-- ---------------------------------------------------------------------------
-- Full paths
-- ---------------------------------------------------------------------------

namespace Resource

def GoesOn (path q : String) : Prop :=
  ∃ rest, q.toList = path.toList ++ rest ∧ (rest = [] ∨ rest.head? = some '/')

theorem pathUnder_toList (path : String) (r : Resource) :
    (r.pathUnder path).toList = path.toList ++ '/' :: r.name.toList := by
  simp [pathUnder]

theorem GoesOn.of_child {r : Resource} (h : GoesOn (r.pathUnder path) q) : GoesOn path q := by
  obtain ⟨rest, hq, -⟩ := h
  rw [pathUnder_toList, List.append_assoc, List.cons_append] at hq
  exact ⟨_, hq, .inr rfl⟩

mutual
theorem goesOn_of_mem : (r : Resource) → (path : String) → q ∈ paths path r → GoesOn path q
  | .mk _ _ _ _ children, path, h => by
    rcases List.mem_cons.mp h with rfl | h
    · exact ⟨[], by simp, .inl rfl⟩
    · obtain ⟨r, -, hr⟩ := goesOn_of_mem_in children path h
      exact hr.of_child
theorem goesOn_of_mem_in : (rs : List Resource) → (path : String) → q ∈ pathsIn path rs →
    ∃ r ∈ rs, GoesOn (r.pathUnder path) q
  | r :: rest, path, h => by
    rcases List.mem_append.mp h with h | h
    · exact ⟨r, List.mem_cons_self, goesOn_of_mem r _ h⟩
    · obtain ⟨r', hr', hgoes⟩ := goesOn_of_mem_in rest path h
      exact ⟨r', List.mem_cons_of_mem _ hr', hgoes⟩
end

theorem pathUnder_ne (path : String) (r : Resource) : path ≠ r.pathUnder path := by
  intro h
  have hlength := congrArg (·.toList.length) h
  simp [pathUnder_toList] at hlength

theorem self_not_mem_in (path : String) (rs : List Resource) : path ∉ pathsIn path rs := by
  intro h
  obtain ⟨r, -, rest, hrest, -⟩ := goesOn_of_mem_in rs path h
  have hlength := congrArg List.length hrest
  simp [pathUnder_toList] at hlength

/-- A name without a `/` has a full path of its own among its siblings' and all below them. -/
theorem sibling_not_mem {r sibling : Resource} (hslash : '/' ∉ r.name.toList)
    (hne : sibling.name ≠ r.name) (path : String) :
    r.pathUnder path ∉ paths (sibling.pathUnder path) sibling := by
  intro h
  obtain ⟨rest, hq, hrest⟩ := goesOn_of_mem _ _ h
  rw [pathUnder_toList, pathUnder_toList, List.append_assoc, List.append_cancel_left_eq,
    List.cons_append, List.cons.injEq] at hq
  rcases hrest with rfl | hrest
  · rw [List.append_nil] at hq
    exact hne (String.toList_inj.mp hq.2.symm)
  · refine hslash ?_
    rw [hq.2]
    exact List.mem_append_right _ (List.mem_of_mem_head? hrest)

mutual
theorem find_of_not_mem : (r : Resource) → (path : String) → target ∉ paths path r →
    find target path r = none
  | .mk _ _ _ _ children, path, h => by
    rw [paths, List.mem_cons, not_or] at h
    obtain ⟨hself, hbelow⟩ := h
    rw [find, if_neg (Ne.symm hself)]
    exact findIn_of_not_mem children path hbelow
theorem findIn_of_not_mem : (rs : List Resource) → (path : String) → target ∉ pathsIn path rs →
    findIn target path rs = none
  | [], _, _ => rfl
  | r :: rest, path, h => by
    rw [pathsIn, List.mem_append, not_or] at h
    obtain ⟨hr, hrest⟩ := h
    rw [findIn, find_of_not_mem r _ hr, findIn_of_not_mem rest path hrest]
    rfl
end

mutual
theorem create_of_not_mem : (r : Resource) → (path : String) → target ∉ paths path r →
    (child : Resource) → create target path r child = r
  | .mk _ _ _ _ children, path, h, child => by
    rw [paths, List.mem_cons, not_or] at h
    obtain ⟨hself, hbelow⟩ := h
    rw [create, if_neg (Ne.symm hself), createIn_of_not_mem children path hbelow, List.append_nil]
theorem createIn_of_not_mem : (rs : List Resource) → (path : String) → target ∉ pathsIn path rs →
    (child : Resource) → createIn target path rs child = rs
  | [], _, _, _ => rfl
  | r :: rest, path, h, child => by
    rw [pathsIn, List.mem_append, not_or] at h
    obtain ⟨hr, hrest⟩ := h
    rw [createIn, create_of_not_mem r _ hr, createIn_of_not_mem rest path hrest]
end

theorem find_self (r : Resource) : find path path r = some r := by
  cases r
  simp [find]

theorem create_self (r : Resource) (child : Resource) :
    create path path r child = r.withChildren (r.children ++ [child]) := by
  obtain ⟨name, family, model, address, children⟩ := r
  rw [create, if_pos rfl, createIn_of_not_mem _ _ (self_not_mem_in path children)]
  rfl

theorem findIn_child {c : Resource} (hslash : '/' ∉ c.name.toList)
    (hpre : ∀ r ∈ pre, r.name ≠ c.name) (path : String) (post : List Resource) :
    findIn (c.pathUnder path) path (pre ++ c :: post) = some c := by
  induction pre with
  | nil => simp [findIn, find_self]
  | cons r pre ih =>
    obtain ⟨hr, hpre⟩ := List.forall_mem_cons.mp hpre
    rw [List.cons_append, findIn, find_of_not_mem r _ (sibling_not_mem hslash hr path), ih hpre]
    rfl

theorem createIn_child {c : Resource} (hslash : '/' ∉ c.name.toList)
    (hpre : ∀ r ∈ pre, r.name ≠ c.name) (hpost : ∀ r ∈ post, r.name ≠ c.name) (path : String)
    (child : Resource) :
    createIn (c.pathUnder path) path (pre ++ c :: post) child =
      pre ++ c.withChildren (c.children ++ [child]) :: post := by
  have hothers (rs : List Resource) (hrs : ∀ r ∈ rs, r.name ≠ c.name) :
      c.pathUnder path ∉ pathsIn path rs := by
    induction rs with
    | nil => simp [pathsIn]
    | cons r rs ih =>
      obtain ⟨hr, hrs⟩ := List.forall_mem_cons.mp hrs
      rw [pathsIn, List.mem_append, not_or]
      exact ⟨sibling_not_mem hslash hr path, ih hrs⟩
  induction pre with
  | nil =>
    rw [List.nil_append, createIn, create_self, createIn_of_not_mem post path (hothers post hpost)]
    rfl
  | cons r pre ih =>
    obtain ⟨hr, hpre⟩ := List.forall_mem_cons.mp hpre
    rw [List.cons_append, createIn, create_of_not_mem r _ (sibling_not_mem hslash hr path),
      ih hpre]
    rfl

@[simp] theorem withChildren_children (r : Resource) (children : List Resource) :
    (r.withChildren children).children = children := by
  cases r
  rfl

@[simp] theorem withChildren_name (r : Resource) (children : List Resource) :
    (r.withChildren children).name = r.name := by
  cases r
  rfl

@[simp] theorem withChildren_model (r : Resource) (children : List Resource) :
    (r.withChildren children).model = r.model := by
  cases r
  rfl

@[simp] theorem withChildren_family (r : Resource) (children : List Resource) :
    (r.withChildren children).family = r.family := by
  cases r
  rfl

@[simp] theorem withChildren_withChildren (r : Resource) (children children' : List Resource) :
    (r.withChildren children').withChildren children = r.withChildren children := by
  cases r
  rfl

theorem withChildren_self (r : Resource) : r.withChildren r.children = r := by
  cases r
  rfl

end Resource

/-- A child of a tree, whose name no other child has. -/
structure Focus (tree : Resource) (pre : List Resource) (c : Resource) (post : List Resource) :
    Prop where
  children : tree.children = pre ++ c :: post
  pre_ne : ∀ r ∈ pre, r.name ≠ c.name
  post_ne : ∀ r ∈ post, r.name ≠ c.name
  plain : '/' ∉ c.name.toList

section
variable {tree c : Resource} {pre post : List Resource}

theorem Focus.find (h : Focus tree pre c post) :
    tree.find (c.pathUnder tree.name) tree.name = some c := by
  obtain ⟨name, family, model, address, children⟩ := tree
  obtain rfl : children = _ := h.children
  rw [Resource.find, if_neg (Resource.pathUnder_ne _ c)]
  exact Resource.findIn_child h.plain h.pre_ne name post

theorem Focus.create (h : Focus tree pre c post) (child : Resource) :
    tree.create (c.pathUnder tree.name) tree.name child =
      tree.withChildren (pre ++ c.withChildren (c.children ++ [child]) :: post) := by
  obtain ⟨name, family, model, address, children⟩ := tree
  obtain rfl : children = _ := h.children
  rw [Resource.create, if_neg (Resource.pathUnder_ne _ c), List.append_nil]
  exact congrArg _ (Resource.createIn_child h.plain h.pre_ne h.post_ne name child)

theorem Focus.withChildren (h : Focus tree pre c post) (children : List Resource) :
    Focus (tree.withChildren (pre ++ c.withChildren children :: post)) pre
      (c.withChildren children) post where
  children := by simp
  pre_ne := by simpa using h.pre_ne
  post_ne := by simpa using h.post_ne
  plain := by simpa using h.plain

end

-- ---------------------------------------------------------------------------
-- What a run makes of the tree
-- ---------------------------------------------------------------------------

def port (model : String) (portConf : AdditionalPort) (i : Nat) : Resource :=
  .mk portConf.name "CS_Port" s!"{model}.GenericPort" s!"P{i}" []

/-- The chassis with one more port, unless it has a child of that name. -/
def Resource.withPort (model : String) (c : Resource) (portConf : AdditionalPort × Nat) :
    Resource :=
  if portConf.1.name ∈ c.childNames then c
  else c.withChildren (c.children ++ [port model portConf.1 portConf.2])

def Resource.withPorts (model : String) (portConfs : List (AdditionalPort × Nat)) (c : Resource) :
    Resource :=
  portConfs.foldl (withPort model) c

/-- The chassis for the ports: the first one, between the other children, or a
new one after all of them. -/
inductive Chassis (tree : Resource) : List Resource → Resource → List Resource → Prop
  | first (children : tree.children = pre ++ c :: post) (family : c.family = "CS_Chassis")
      (pre_family : ∀ r ∈ pre, r.family ≠ "CS_Chassis") : Chassis tree pre c post
  | created (no_family : ∀ r ∈ tree.children, r.family ≠ "CS_Chassis") :
      Chassis tree tree.children
        (.mk "Chassis 1" "CS_Chassis" s!"{tree.model}.GenericChassis" "CH1" []) []

/-- What is asked of a tree: siblings below the root have names of their own,
"Chassis 1" is for a chassis, and no chassis has a name with a `/`. -/
structure Suitable (tree : Resource) : Prop where
  nodup : tree.childNames.Nodup
  chassis_one : ∀ r ∈ tree.children, r.name = "Chassis 1" → r.family = "CS_Chassis"
  plain : ∀ r ∈ tree.children, r.family = "CS_Chassis" → '/' ∉ r.name.toList

section
variable {api : Api} {getResourceDetails : List Event → String → Except Exn Info}
  {root : Resource} {s : σ} {log : List Event} {pre post : List Resource} {c : Resource}

theorem after_append (root : Resource) (log evs : List Event) :
    root.after (log ++ evs) = evs.foldl Resource.step (root.after log) := by
  simp [Resource.after]

theorem step_name (root : Resource) (ev : Event) : (root.step ev).name = root.name := by
  unfold Resource.step
  split
  · cases root
    rfl
  · rfl

theorem after_name (root : Resource) (log : List Event) : (root.after log).name = root.name := by
  induction log using List.reverseRecOn with
  | nil => rfl
  | append_singleton log ev ih => rw [after_append, ← ih]; exact step_name _ _

theorem createResource_run (hserves : Serves api getResourceDetails root)
    (hparent : (root.after log).find parent root.name = some r) (name model address family : String)
    (s : σ) :
    ∃ evs, CloudShellHandler.createResource api name model address family parent s log =
        (.ok name, s, log ++ evs) ∧
      root.after (log ++ evs) =
        if name ∈ r.childNames then root.after log
        else (root.after log).create parent root.name (.mk name family model address []) := by
  by_cases htaken : name ∈ r.childNames
  · obtain ⟨msg, hreply⟩ := hserves.taken log family model name address parent r hparent htaken
    refine ⟨[.createResource family model name address parent (.error (.cloudShellApi "114" msg))],
      ?_, ?_⟩
    · simp [CloudShellHandler.createResource, run_tryCatch, run_bind, hreply]
    · rw [after_append, if_pos htaken]
      rfl
  · have hreply := hserves.creates log family model name address parent r hparent htaken
    refine ⟨[.createResource family model name address parent (.ok ())], ?_, ?_⟩
    · simp [CloudShellHandler.createResource, run_tryCatch, run_bind, hreply]
    · rw [after_append, if_neg htaken, ← after_name root log]
      rfl

theorem addPort_run (hserves : Serves api getResourceDetails root)
    (h : Focus (root.after log) pre c post) (model : String) (portConf : AdditionalPort × Nat)
    (s : σ) :
    ∃ evs, addPort api model (c.pathUnder root.name) portConf.1 portConf.2 s log =
        (.ok (), s, log ++ evs) ∧
      root.after (log ++ evs) =
        (root.after log).withChildren (pre ++ c.withPort model portConf :: post) := by
  have hfind := h.find
  have hcreate := h.create (port model portConf.1 portConf.2)
  rw [after_name] at hfind hcreate
  obtain ⟨evs, hrun, hafter⟩ := createResource_run hserves hfind portConf.1.name
    s!"{model}.GenericPort" s!"P{portConf.2}" "CS_Port" s
  refine ⟨evs, run_bind_ok hrun, hafter.trans ?_⟩
  unfold Resource.withPort
  split
  · rw [← h.children, Resource.withChildren_self]
  · exact hcreate

theorem Focus.withPort (h : Focus tree pre c post) (model : String)
    (portConf : AdditionalPort × Nat) :
    Focus (tree.withChildren (pre ++ c.withPort model portConf :: post)) pre
      (c.withPort model portConf) post := by
  unfold Resource.withPort
  split
  · rwa [← h.children, Resource.withChildren_self]
  · exact h.withChildren _

theorem addPorts_run (hserves : Serves api getResourceDetails root)
    (h : Focus (root.after log) pre c post) (model : String)
    (portConfs : List (AdditionalPort × Nat)) (s : σ) :
    ∃ evs, each (fun (portConf, i) => addPort api model (c.pathUnder root.name) portConf i)
        portConfs s log = (.ok (), s, log ++ evs) ∧
      root.after (log ++ evs) =
        (root.after log).withChildren (pre ++ c.withPorts model portConfs :: post) := by
  induction portConfs generalizing log c with
  | nil =>
    refine ⟨[], by simp [each], ?_⟩
    rw [List.append_nil, Resource.withPorts, List.foldl_nil, ← h.children,
      Resource.withChildren_self]
  | cons portConf portConfs ih =>
    obtain ⟨evs, hrun, hafter⟩ := addPort_run hserves h model portConf s
    have hfocus := h.withPort model portConf
    rw [← hafter] at hfocus
    obtain ⟨evs', hrun', hafter'⟩ := ih hfocus
    have hpath : (c.withPort model portConf).pathUnder root.name = c.pathUnder root.name := by
      unfold Resource.withPort
      split
      · rfl
      · simp [Resource.pathUnder]
    rw [hpath] at hrun'
    refine ⟨evs ++ evs', ?_, ?_⟩
    · rw [each, run_bind_ok hrun, hrun', List.append_assoc]
    · rw [← List.append_assoc, hafter', hafter, Resource.withChildren_withChildren]
      rfl

theorem exists_chassis (tree : Resource) : ∃ pre c post, Chassis tree pre c post := by
  cases hfind : tree.children.find? (·.family = "CS_Chassis") with
  | none => exact ⟨_, _, _, .created (by simpa using hfind)⟩
  | some c =>
    obtain ⟨hfamily, pre, post, hchildren, hpre⟩ := List.find?_eq_some_iff_append.mp hfind
    exact ⟨pre, c, post, .first hchildren (by simpa using hfamily) (by simpa using hpre)⟩

theorem getDetails_run (hserves : Serves api getResourceDetails root) (s : σ) (log : List Event) :
    getDetails getResourceDetails root.name s log = (.ok (root.after log).info, s, log) := by
  rw [getDetails, hserves.details]

theorem addAdditionalPorts_first (hserves : Serves api getResourceDetails root)
    (hfocus : Focus (root.after log) pre c post) (hfamily : c.family = "CS_Chassis")
    (hpre : ∀ r ∈ pre, r.family ≠ "CS_Chassis") (portConfs : List AdditionalPort) (s : σ) :
    ∃ evs, addAdditionalPorts api getResourceDetails root.name portConfs s log =
        (.ok (), s, log ++ evs) ∧
      root.after (log ++ evs) = (root.after log).withChildren
        (pre ++ c.withPorts (root.after log).model (portConfs.zipIdx 1) :: post) := by
  have hfind : (root.after log).info.childResources.find?
      (fun childRes => childRes.resourceFamilyName = "CS_Chassis") =
      some ⟨c.pathUnder root.name, c.family⟩ := by
    have hnone : pre.find? (fun r => r.family = "CS_Chassis") = none := by
      simpa using hpre
    simp only [Resource.info, List.find?_map, hfocus.children, List.find?_append,
      Function.comp_def]
    simp [hnone, hfamily, after_name]
  obtain ⟨evs, hrun, hafter⟩ :=
    addPorts_run hserves hfocus (root.after log).model (portConfs.zipIdx 1) s
  refine ⟨evs, ?_, hafter⟩
  rw [addAdditionalPorts, run_bind_ok (getDetails_run hserves s log)]
  simp only [hfind]
  exact hrun

theorem addAdditionalPorts_created (hserves : Serves api getResourceDetails root)
    (hsuitable : Suitable (root.after log))
    (hnone : ∀ r ∈ (root.after log).children, r.family ≠ "CS_Chassis")
    (portConfs : List AdditionalPort) (s : σ) :
    ∃ evs, addAdditionalPorts api getResourceDetails root.name portConfs s log =
        (.ok (), s, log ++ evs) ∧
      root.after (log ++ evs) = (root.after log).withChildren ((root.after log).children ++
        [Resource.withPorts (root.after log).model (portConfs.zipIdx 1) (.mk "Chassis 1"
          "CS_Chassis" s!"{(root.after log).model}.GenericChassis" "CH1" [])]) := by
  have hfind : (root.after log).info.childResources.find?
      (fun childRes => childRes.resourceFamilyName = "CS_Chassis") = none := by
    simpa [Resource.info] using hnone
  have hname : ∀ r ∈ (root.after log).children, r.name ≠ "Chassis 1" := fun r hr heq =>
    hnone r hr (hsuitable.chassis_one r hr heq)
  have hnew : "Chassis 1" ∉ (root.after log).childNames := fun hmem => by
    obtain ⟨r, hr, heq⟩ := List.mem_map.mp hmem
    exact hname r hr heq
  have hparent : (root.after log).find root.name root.name = some (root.after log) :=
    Resource.find_self _
  obtain ⟨evs, hrun, hafter⟩ := createResource_run hserves hparent "Chassis 1"
    s!"{(root.after log).model}.GenericChassis" "CH1" "CS_Chassis" s
  rw [if_neg hnew, Resource.create_self] at hafter
  have hfocus : Focus (root.after (log ++ evs)) (root.after log).children
      (.mk "Chassis 1" "CS_Chassis" s!"{(root.after log).model}.GenericChassis" "CH1" []) [] :=
    { children := by rw [hafter, Resource.withChildren_children]
      pre_ne := hname
      post_ne := nofun
      plain := by
        change '/' ∉ "Chassis 1".toList
        decide }
  obtain ⟨evs', hrun', hafter'⟩ :=
    addPorts_run hserves hfocus (root.after log).model (portConfs.zipIdx 1) s
  refine ⟨evs ++ evs', ?_, ?_⟩
  · rw [addAdditionalPorts, run_bind_ok (getDetails_run hserves s log)]
    have hinfo : (root.after log).info.name = root.name := after_name root log
    have hmodel : (root.after log).info.resourceModelName = (root.after log).model := rfl
    simp only [hfind, hinfo, hmodel]
    rw [run_bind_ok hrun, ← List.append_assoc]
    exact hrun'
  · rw [← List.append_assoc, hafter', hafter, Resource.withChildren_withChildren]

-- ---------------------------------------------------------------------------
-- The ports on the chassis
-- ---------------------------------------------------------------------------

end

namespace Resource

/-- The chassis afterwards: the names that it had no child of are there, once each. -/
theorem withPorts_eq (model : String) (portConfs : List (AdditionalPort × Nat)) (c : Resource) :
    ∃ ports, c.withPorts model portConfs = c.withChildren (c.children ++ ports) ∧
      (∀ portConf ∈ portConfs, ∃ r ∈ c.children ++ ports, r.name = portConf.1.name) ∧
      (∀ r ∈ ports, r.name ∉ c.childNames ∧
        ∃ portConf ∈ portConfs, r = port model portConf.1 portConf.2) ∧
      (ports.map name).Nodup := by
  induction portConfs generalizing c with
  | nil => exact ⟨[], by simp [withPorts, withChildren_self], by simp, by simp, by simp⟩
  | cons portConf portConfs ih =>
    have hcons : c.withPorts model (portConf :: portConfs) =
        (c.withPort model portConf).withPorts model portConfs := rfl
    rw [hcons]
    by_cases htaken : portConf.1.name ∈ c.childNames
    · rw [withPort, if_pos htaken]
      obtain ⟨ports, heq, hall, hports, hnodup⟩ := ih c
      refine ⟨ports, heq, List.forall_mem_cons.mpr ⟨?_, hall⟩, fun r hr => ?_, hnodup⟩
      · obtain ⟨r, hr, hname⟩ := List.mem_map.mp htaken
        exact ⟨r, List.mem_append_left _ hr, hname⟩
      · obtain ⟨hnew, pc, hpc, rfl⟩ := hports r hr
        exact ⟨hnew, pc, List.mem_cons_of_mem _ hpc, rfl⟩
    · rw [withPort, if_neg htaken]
      obtain ⟨ports, heq, hall, hports, hnodup⟩ :=
        ih (c.withChildren (c.children ++ [port model portConf.1 portConf.2]))
      rw [withChildren_withChildren, withChildren_children, List.append_assoc] at heq
      rw [withChildren_children, List.append_assoc] at hall
      have hnames : (c.withChildren (c.children ++ [port model portConf.1 portConf.2])).childNames =
          c.childNames ++ [portConf.1.name] := by
        simp [childNames, port, name]
      rw [hnames] at hports
      refine ⟨port model portConf.1 portConf.2 :: ports, heq,
        List.forall_mem_cons.mpr ⟨⟨port model portConf.1 portConf.2, by simp, rfl⟩, hall⟩,
        List.forall_mem_cons.mpr ⟨⟨htaken, _, List.mem_cons_self, rfl⟩, fun r hr => ?_⟩,
        List.nodup_cons.mpr ⟨fun hmem => ?_, hnodup⟩⟩
      · obtain ⟨hnew, pc, hpc, rfl⟩ := hports r hr
        exact ⟨fun h => hnew (List.mem_append_left _ h), pc, List.mem_cons_of_mem _ hpc, rfl⟩
      · obtain ⟨r, hr, hname⟩ := List.mem_map.mp hmem
        exact (hports r hr).1 (List.mem_append_right _ (List.mem_singleton.mpr hname))

theorem withPorts_of_mem {model : String} {portConfs : List (AdditionalPort × Nat)}
    {c : Resource} (h : ∀ portConf ∈ portConfs, portConf.1.name ∈ c.childNames) :
    c.withPorts model portConfs = c := by
  induction portConfs with
  | nil => rfl
  | cons portConf portConfs ih =>
    obtain ⟨hfirst, hrest⟩ := List.forall_mem_cons.mp h
    have hcons : c.withPorts model (portConf :: portConfs) =
        (c.withPort model portConf).withPorts model portConfs := rfl
    rw [hcons, withPort, if_pos hfirst, ih hrest]

end Resource

section
variable {api : Api} {getResourceDetails : List Event → String → Except Exn Info}
  {root tree : Resource} {log : List Event} {pre post : List Resource} {c : Resource}

theorem Chassis.focus (h : Chassis tree pre c post) (hsuitable : Suitable tree) :
    Focus (tree.withChildren (pre ++ c :: post)) pre c post ∧ c.family = "CS_Chassis" ∧
      ∀ r ∈ pre, r.family ≠ "CS_Chassis" := by
  cases h with
  | first children family pre_family =>
    have hnodup := hsuitable.nodup
    rw [Resource.childNames, children, List.map_append, List.map_cons,
      List.nodup_append] at hnodup
    obtain ⟨-, hpost, hdisjoint⟩ := hnodup
    refine ⟨⟨by simp, fun r hr => ?_, fun r hr heq => ?_, ?_⟩, family, pre_family⟩
    · exact hdisjoint _ (List.mem_map_of_mem hr) _ List.mem_cons_self
    · exact (List.nodup_cons.mp hpost).1 (List.mem_map.mpr ⟨r, hr, heq⟩)
    · exact hsuitable.plain c (by simp [children]) family
  | created no_family =>
    refine ⟨⟨by simp, fun r hr heq => ?_, nofun, ?_⟩, rfl, no_family⟩
    · exact no_family r hr (hsuitable.chassis_one r hr heq)
    · change '/' ∉ "Chassis 1".toList
      decide

theorem addAdditionalPorts_run (hserves : Serves api getResourceDetails root)
    (hsuitable : Suitable (root.after log)) (h : Chassis (root.after log) pre c post)
    (portConfs : List AdditionalPort) (s : σ) :
    ∃ evs, addAdditionalPorts api getResourceDetails root.name portConfs s log =
        (.ok (), s, log ++ evs) ∧
      root.after (log ++ evs) = (root.after log).withChildren
        (pre ++ c.withPorts (root.after log).model (portConfs.zipIdx 1) :: post) := by
  obtain ⟨hfocus, hfamily, hpre⟩ := h.focus hsuitable
  cases h with
  | first children =>
    rw [← children, Resource.withChildren_self] at hfocus
    exact addAdditionalPorts_first hserves hfocus hfamily hpre portConfs s
  | created no_family => exact addAdditionalPorts_created hserves hsuitable no_family portConfs s

end

/-- Two runs. The first brings the ports that the chassis does not have to it,
and leaves the rest of the tree as it was; the second one leaves all of it. -/
theorem addAdditionalPorts_twice {api : Api}
    {getResourceDetails : List Event → String → Except Exn Info} {root : Resource}
    (hserves : Serves api getResourceDetails root) (log : List Event)
    (hsuitable : Suitable (root.after log)) (portConfs : List AdditionalPort) (s : σ) :
    ∃ pre c post ports evs evs', Chassis (root.after log) pre c post ∧
      (∀ portConf ∈ portConfs, ∃ r ∈ c.children ++ ports, r.name = portConf.name) ∧
      (∀ r ∈ ports, r.name ∉ c.childNames ∧ ∃ portConf ∈ portConfs.zipIdx 1,
        r = port (root.after log).model portConf.1 portConf.2) ∧
      (ports.map Resource.name).Nodup ∧
      addAdditionalPorts api getResourceDetails root.name portConfs s log =
        (.ok (), s, log ++ evs) ∧
      root.after (log ++ evs) = (root.after log).withChildren
        (pre ++ c.withChildren (c.children ++ ports) :: post) ∧
      addAdditionalPorts api getResourceDetails root.name portConfs s (log ++ evs) =
        (.ok (), s, log ++ evs ++ evs') ∧
      root.after (log ++ evs ++ evs') = root.after (log ++ evs) := by
  obtain ⟨pre, c, post, hchassis⟩ := exists_chassis (root.after log)
  obtain ⟨evs, hrun, hafter⟩ := addAdditionalPorts_run hserves hsuitable hchassis portConfs s
  obtain ⟨ports, hports, hall, hnew, hnodup⟩ :=
    c.withPorts_eq (root.after log).model (portConfs.zipIdx 1)
  rw [hports] at hafter
  obtain ⟨hfocus, hfamily, hpre⟩ := hchassis.focus hsuitable
  have hfocus' := hfocus.withChildren (c.children ++ ports)
  rw [Resource.withChildren_withChildren, ← hafter] at hfocus'
  obtain ⟨evs', hrun', hafter'⟩ :=
    addAdditionalPorts_first hserves hfocus' (by simpa using hfamily) hpre portConfs s
  refine ⟨pre, c, post, ports, evs, evs', hchassis, fun portConf hmem => ?_, hnew, hnodup, hrun,
    hafter, hrun', ?_⟩
  · obtain ⟨i, hi⟩ := List.mem_iff_getElem?.mp hmem
    exact hall (portConf, 1 + i) (List.mk_add_mem_zipIdx_iff_getElem?.mpr hi)
  · rw [hafter', Resource.withPorts_of_mem fun portConf hmem => ?_, ← hfocus'.children,
      Resource.withChildren_self]
    obtain ⟨r, hr, hname⟩ := hall portConf hmem
    rw [Resource.childNames, Resource.withChildren_children, ← hname]
    exact List.mem_map_of_mem hr

def Api.ofTree (root : Resource) : Api :=
  { Api.obliging with
    createResource := fun log _ _ name _ parent =>
      match (root.after log).find parent root.name with
      | some r => if name ∈ r.childNames then .error (.cloudShellApi "114" name) else .ok ()
      | none => .error (.cloudShellApi "102" parent) }

theorem serves_ofTree (root : Resource) :
    Serves (Api.ofTree root) (fun log _ => .ok (root.after log).info) root where
  details _ := rfl
  taken log _ _ name _ parent r hfind hmem := ⟨name, by simp [Api.ofTree, hfind, hmem]⟩
  creates log _ _ name _ parent r hfind hnew := by simp [Api.ofTree, hfind, hnew]

/-- A router that autoload gave a port, and no chassis. -/
def router : Resource := .mk "R" "CS_Router" "M" "127.0.0.1" [.mk "P" "CS_Port" "M.Port" "1" []]

/-- One name twice, and the name of a child of the router. -/
theorem addAdditionalPorts_twice_router :
    ∃ evs evs',
      addAdditionalPorts (Api.ofTree router) (fun log _ => .ok (router.after log).info) "R"
        [⟨"P1"⟩, ⟨"P1"⟩, ⟨"P"⟩] () [] = (.ok (), (), evs) ∧
      addAdditionalPorts (Api.ofTree router) (fun log _ => .ok (router.after log).info) "R"
        [⟨"P1"⟩, ⟨"P1"⟩, ⟨"P"⟩] () evs = (.ok (), (), evs ++ evs') ∧
      router.after (evs ++ evs') = router.after evs := by
  have hsuitable : Suitable (router.after []) :=
    ⟨by decide, by simp [router, Resource.after, Resource.children, Resource.name],
      by simp [router, Resource.after, Resource.children, Resource.family]⟩
  obtain ⟨_, _, _, _, evs, evs', -, -, -, -, hrun, -, hrun', hsame⟩ :=
    addAdditionalPorts_twice (serves_ofTree router) [] hsuitable [⟨"P1"⟩, ⟨"P1"⟩, ⟨"P"⟩] ()
  exact ⟨evs, evs', hrun, hrun', hsame⟩

example : router.after (addAdditionalPorts (Api.ofTree router)
      (fun log _ => .ok (router.after log).info) "R" [⟨"P1"⟩, ⟨"P1"⟩, ⟨"P"⟩] () []).2.2 =
    .mk "R" "CS_Router" "M" "127.0.0.1" [.mk "P" "CS_Port" "M.Port" "1" [],
      .mk "Chassis 1" "CS_Chassis" "M.GenericChassis" "CH1"
        [.mk "P1" "CS_Port" "M.GenericPort" "P1" [], .mk "P" "CS_Port" "M.GenericPort" "P3" []]] :=
  rfl

end ShellTests.AdditionalPorts
