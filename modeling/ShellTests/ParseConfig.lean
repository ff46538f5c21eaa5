import Mathlib.Data.List.AList
import ShellTests.Config

/-!
# Parsing the main config

`MainConfig.parse_obj` on documents whose sections are valid each on its own:
the fields in their order, the validators that look across sections, and
pydantic's rule about which exceptions of a validator it collects. The
`tests_conf` objects are cells of a heap, since the merge changes them in
place. Sections that no cross-section validator reads are left out.
-/

namespace ShellTests.ParseConfig

/-- A `dict[str, str]`; the order of its entries is of no use here. -/
abbrev Dict := AList fun _ : String => String

/-- A section `Tests`, with what it declares. -/
structure TestsDoc where
  expectedFailures : Dict := ∅
  runTests : Option Bool := none

structure TestsConfig where
  expectedFailures : Dict := ∅
  runTests : Bool := true
  originalRunTests : Option Bool := none

/-- The section, or a copy of the default `TestsConfig()` where there is none. -/
def TestsConfig.ofDoc : Option TestsDoc → TestsConfig
  | some doc =>
    { expectedFailures := doc.expectedFailures
      runTests := doc.runTests.getD true
      originalRunTests := doc.runTests }
  | none => {}

/-- `__iadd__` -/
def TestsConfig.iadd (self other : TestsConfig) : TestsConfig :=
  -- {**other.expected_failures, **self.expected_failures}
  let self := { self with expectedFailures := self.expectedFailures ∪ other.expectedFailures }
  match self.originalRunTests, other.originalRunTests with
  | some runTests, _ => { self with runTests }
  | none, some runTests => { self with runTests }
  | none, none => self

/-- The `TestsConfig` objects, in the order in which they were made. -/
abbrev Heap := List TestsConfig
abbrev Ref := Nat

def Heap.get (heap : Heap) (r : Ref) : TestsConfig := heap[r]?.getD {}

structure ShellDoc where
  name : String
  tests : Option TestsDoc := none

structure ResourceDoc where
  name : String
  shellName : String
  tests : Option TestsDoc := none

structure DeploymentResourceDoc where
  name : String
  blueprintName : String
  tests : Option TestsDoc := none

structure ServiceDoc where
  name : String
  shellName : Option String := none
  tests : Option TestsDoc := none

/-- A document; a section that it does not have is `none`. -/
structure Document where
  version : Option String
  doConf : Option DoConfig := none
  csConf : Option CloudShellConfig := none
  shells : Option (List ShellDoc)
  resources : Option (List ResourceDoc)
  deploymentResources : Option (List DeploymentResourceDoc) := none
  services : Option (List ServiceDoc) := none

structure ShellConf where
  name : String
  testsConf : Ref

structure ResourceConf where
  name : String
  shellName : String
  testsConf : Ref

structure DeploymentResourceConf where
  name : String
  blueprintName : String
  testsConf : Ref

structure ServiceConf where
  name : String
  shellName : Option String
  testsConf : Ref

/-- A `MainConfig`, with the objects that it refers to. -/
structure Parsed where
  version : String
  doConf : Option DoConfig
  csConf : Option CloudShellConfig
  shellsConf : List ShellConf
  resourcesConf : List ResourceConf
  deploymentResourcesConf : List DeploymentResourceConf
  servicesConf : List ServiceConf
  heap : Heap

inductive Exn
  | value (msg : String)
  | attribute (msg : String)
  deriving DecidableEq, Repr

/-- What comes out of `parse_obj`: the collected errors with their fields, or
an exception that pydantic does not collect. -/
inductive Raised
  | validationError (errors : List (String × String))
  | escaped (e : Exn)
  deriving DecidableEq, Repr

-- ---------------------------------------------------------------------------
-- The validators
-- ---------------------------------------------------------------------------

-- `int` on a text, which raises a `ValueError` with a message where it is no number
variable (int : String → Except String Int)

def strVersionToTuple (version : String) : Except Exn (List Int) :=
  (version.toList.splitOn '.').mapM fun part => (int (String.ofList part)).mapError .value

def minCompatibleConfVer : String := "0.13"
def maxCompatibleConfVer : String := "0.16"

/-- `_is_compatible_version` -/
def isCompatibleVersion (v : String) : Except Exn String := do
  if (← strVersionToTuple int v) < (← strVersionToTuple int minCompatibleConfVer) then
    throw (.value s!"Minimum compatible config version is {minCompatibleConfVer}")
  else if (← strVersionToTuple int maxCompatibleConfVer) < (← strVersionToTuple int v) then
    throw (.value (s!"This version of Auto tests do not supported {v} version of config." ++
      "Update Auto tests"))
  else pure v

/-- `_check_cs_conf_or_do` -/
def checkCsConfOrDo (doConf : Option DoConfig) (csConf : Option CloudShellConfig) :
    Except Exn (Option CloudShellConfig) :=
  let csOnDoConf := doConf.bind (·.csOnDoConf)
  if csOnDoConf.isNone && csConf.isNone then
    .error (.value "either CS on Do config or CloudShell config is required")
  else .ok csConf

inductive Item
  | resource (conf : ResourceConf)
  | deploymentResource (conf : DeploymentResourceConf)
  | service (conf : ServiceConf)

def noShellName : Exn :=
  .attribute "'DeploymentResourceConfig' object has no attribute 'shell_name'"

/-- `conf.shell_name` -/
def Item.shellName : Item → Except Exn (Option String)
  | .resource conf => .ok (some conf.shellName)
  | .deploymentResource _ => .error noShellName
  | .service conf => .ok conf.shellName

def Item.testsConf : Item → Ref
  | .resource conf => conf.testsConf
  | .deploymentResource conf => conf.testsConf
  | .service conf => conf.testsConf

/-- `_merge_tests_config`, with what is left of `values.get("shells_conf", [])` -/
def mergeTestsConfig (conf : Item) : List ShellConf → Heap → Except Exn Heap
  | [], heap => .ok heap
  | shell :: shells, heap => do
    let shellName ← conf.shellName
    if some shell.name = shellName then
      pure (heap.set conf.testsConf
        ((heap.get conf.testsConf).iadd (heap.get shell.testsConf)))
    else mergeTestsConfig conf shells heap

/-- The items of one list: each is made, then merged, before the next. -/
def validateItems (tests : δ → Option TestsDoc) (make : δ → Ref → κ) (item : κ → Item)
    (shells : List ShellConf) : List δ → Heap → Except Exn (List κ × Heap)
  | [], heap => .ok ([], heap)
  | doc :: docs, heap => do
    let conf := make doc heap.length
    let heap ← mergeTestsConfig (item conf) shells (heap ++ [.ofDoc (tests doc)])
    let (confs, heap) ← validateItems tests make item shells docs heap
    pure (conf :: confs, heap)

def ShellDoc.conf (doc : ShellDoc) (r : Ref) : ShellConf := ⟨doc.name, r⟩
def ResourceDoc.conf (doc : ResourceDoc) (r : Ref) : ResourceConf := ⟨doc.name, doc.shellName, r⟩
def DeploymentResourceDoc.conf (doc : DeploymentResourceDoc) (r : Ref) : DeploymentResourceConf :=
  ⟨doc.name, doc.blueprintName, r⟩
def ServiceDoc.conf (doc : ServiceDoc) (r : Ref) : ServiceConf := ⟨doc.name, doc.shellName, r⟩

def validateResources := validateItems (·.tests) ResourceDoc.conf .resource
def validateDeploymentResources :=
  validateItems (·.tests) DeploymentResourceDoc.conf .deploymentResource
def validateServices := validateItems (·.tests) ServiceDoc.conf .service

def validateShells : List ShellDoc → Heap → List ShellConf × Heap
  | [], heap => ([], heap)
  | doc :: docs, heap =>
    let (confs, heap') := validateShells docs (heap ++ [.ofDoc doc.tests])
    (doc.conf heap.length :: confs, heap')

@[simp] theorem shellDoc_conf_testsConf (doc : ShellDoc) (r : Ref) :
    (doc.conf r).testsConf = r := rfl
@[simp] theorem resourceDoc_conf_testsConf (doc : ResourceDoc) (r : Ref) :
    (doc.conf r).testsConf = r := rfl
@[simp] theorem serviceDoc_conf_testsConf (doc : ServiceDoc) (r : Ref) :
    (doc.conf r).testsConf = r := rfl

abbrev Errors := List (String × String)

/-- A field's value, if it has one, and the errors collected for it: pydantic
collects a `ValueError`, not an `AttributeError`. -/
def collect (field : String) : Except Exn α → Except Raised (Option α × Errors)
  | .ok a => .ok (some a, [])
  | .error (.value msg) => .ok (none, [(field, msg)])
  | .error e => .error (.escaped e)

def required : Option α → Except Exn α
  | some a => .ok a
  | none => .error (.value "field required")

def validateVersion (version : Option String) : Except Exn String := do
  isCompatibleVersion int (← required version)

/-- The lists whose items are merged, in the order of the fields. -/
structure Lists where
  resourcesConf : List ResourceConf
  deploymentResourcesConf : List DeploymentResourceConf
  servicesConf : List ServiceConf
  heap : Heap

def validateLists (doc : Document) (shells : List ShellConf) (heap : Heap) :
    Except Raised (Lists × Errors) := do
  let (r, e₁) ← collect "Resources" (validateResources shells (doc.resources.getD []) heap)
  let (resourcesConf, heap) := r.getD ([], heap)
  let (d, e₂) ← collect "Deployment Resources"
    (validateDeploymentResources shells (doc.deploymentResources.getD []) heap)
  let (deploymentResourcesConf, heap) := d.getD ([], heap)
  let (s, e₃) ← collect "Services" (validateServices shells (doc.services.getD []) heap)
  let (servicesConf, heap) := s.getD ([], heap)
  pure ({ resourcesConf, deploymentResourcesConf, servicesConf, heap }, e₁ ++ e₂ ++ e₃)

def parseObj (doc : Document) : Except Raised Parsed := do
  let (version, versionErrors) ← collect "Version" (validateVersion int doc.version)
  let (csConf, csErrors) ← collect "CloudShell" (checkCsConfOrDo doc.doConf doc.csConf)
  let (_, shellsErrors) ← collect "Shells" (required doc.shells)
  let (_, resourcesErrors) ← collect "Resources" (required doc.resources)
  let (shellsConf, heap) := validateShells (doc.shells.getD []) []
  let (lists, listsErrors) ← validateLists doc shellsConf heap
  match version, csConf,
      versionErrors ++ csErrors ++ shellsErrors ++ resourcesErrors ++ listsErrors with
  | some version, some csConf, [] =>
    pure { version, doConf := doc.doConf, csConf, shellsConf
           resourcesConf := lists.resourcesConf
           deploymentResourcesConf := lists.deploymentResourcesConf
           servicesConf := lists.servicesConf
           heap := lists.heap }
  | _, _, errors => throw (.validationError errors)

-- ---------------------------------------------------------------------------
-- Which exceptions come out
-- ---------------------------------------------------------------------------

variable {int : String → Except String Int}

def Collected (r : Except Exn α) : Prop := ∀ msg, r ≠ .error (.attribute msg)

theorem collected_ok (a : α) : Collected (.ok a : Except Exn α) := by simp [Collected]

theorem collected_value (msg : String) : Collected (.error (.value msg) : Except Exn α) := by
  simp [Collected]

theorem Collected.bind {r : Except Exn α} {f : α → Except Exn β} (hr : Collected r)
    (hf : ∀ a, Collected (f a)) : Collected (r >>= f) := by
  cases r with
  | ok a => exact hf a
  | error e => exact fun msg h => hr msg (congrArg Except.error (Except.error.inj h))

theorem Collected.collect {r : Except Exn α} (hr : Collected r) (field : String) :
    ∃ p, collect field r = .ok p := by
  match r with
  | .ok a => exact ⟨_, rfl⟩
  | .error (.value msg) => exact ⟨_, rfl⟩
  | .error (.attribute msg) => exact absurd rfl (hr msg)

theorem required_collected (a : Option α) : Collected (required a) := by
  cases a with
  | none => exact collected_value _
  | some a => exact collected_ok a

theorem strVersionToTuple_collected (version : String) :
    Collected (strVersionToTuple int version) := by
  unfold strVersionToTuple
  induction version.toList.splitOn '.' with
  | nil => exact collected_ok []
  | cons part parts ih =>
    rw [List.mapM_cons]
    refine .bind ?_ fun _ => ih.bind fun _ => collected_ok _
    cases int (String.ofList part) with
    | ok n => exact collected_ok n
    | error msg => exact collected_value msg

theorem isCompatibleVersion_collected (int : String → Except String Int) (v : String) :
    Collected (isCompatibleVersion int v) := by
  refine (strVersionToTuple_collected _).bind fun _ => ?_
  refine (strVersionToTuple_collected _).bind fun _ => ?_
  split
  · exact collected_value _
  · refine (strVersionToTuple_collected _).bind fun _ =>
      (strVersionToTuple_collected _).bind fun _ => ?_
    split
    · exact collected_value _
    · exact collected_ok v

theorem validateVersion_collected (int : String → Except String Int) (version : Option String) :
    Collected (validateVersion int version) :=
  (required_collected version).bind (isCompatibleVersion_collected int)

theorem checkCsConfOrDo_collected (doConf : Option DoConfig) (csConf : Option CloudShellConfig) :
    Collected (checkCsConfOrDo doConf csConf) := by
  unfold checkCsConfOrDo
  dsimp only
  split
  · exact collected_value _
  · exact collected_ok _

theorem mergeTestsConfig_collected {conf : Item} (h : Collected conf.shellName)
    (shells : List ShellConf) (heap : Heap) : Collected (mergeTestsConfig conf shells heap) := by
  induction shells with
  | nil => exact collected_ok heap
  | cons shell shells ih =>
    refine h.bind fun _ => ?_
    split
    · exact collected_ok _
    · exact ih

section
variable {tests : δ → Option TestsDoc} {make : δ → Ref → κ} {item : κ → Item}

theorem validateItems_collected (h : ∀ doc r, Collected (item (make doc r)).shellName)
    (shells : List ShellConf) (docs : List δ) (heap : Heap) :
    Collected (validateItems tests make item shells docs heap) := by
  induction docs generalizing heap with
  | nil => exact collected_ok _
  | cons doc docs ih =>
    refine (mergeTestsConfig_collected (h doc _) _ _).bind fun heap' => ?_
    exact (ih heap').bind fun _ => collected_ok _

theorem validateItems_no_shells (docs : List δ) (heap : Heap) :
    Collected (validateItems tests make item [] docs heap) := by
  induction docs generalizing heap with
  | nil => exact collected_ok _
  | cons doc docs ih =>
    exact (collected_ok _).bind fun heap' => (ih heap').bind fun _ => collected_ok _

end

theorem validateItems_deploymentResource (shell : ShellConf) (shells : List ShellConf)
    (doc : DeploymentResourceDoc) (docs : List DeploymentResourceDoc) (heap : Heap) :
    validateDeploymentResources (shell :: shells) (doc :: docs) heap = .error noShellName := rfl

theorem validateShells_eq_nil (docs : List ShellDoc) (heap : Heap) :
    (validateShells docs heap).1 = [] ↔ docs = [] := by
  cases docs <;> simp [validateShells]

def Document.Mergeable (doc : Document) : Prop :=
  doc.shells.getD [] = [] ∨ doc.deploymentResources.getD [] = []

theorem validateItems_deployment_collected {doc : Document} (h : doc.Mergeable)
    (heap heap' : Heap) :
    Collected (validateDeploymentResources (validateShells (doc.shells.getD []) heap).1
      (doc.deploymentResources.getD []) heap') := by
  obtain h | h := h
  · rw [(validateShells_eq_nil _ _).mpr h]
    exact validateItems_no_shells _ _
  · rw [h]
    exact collected_ok _

theorem validateResources_collected (shells : List ShellConf) (docs : List ResourceDoc)
    (heap : Heap) : Collected (validateResources shells docs heap) := by
  unfold validateResources
  refine validateItems_collected (fun _ _ => ?_) shells docs heap
  exact collected_ok _

theorem validateServices_collected (shells : List ShellConf) (docs : List ServiceDoc)
    (heap : Heap) : Collected (validateServices shells docs heap) := by
  unfold validateServices
  refine validateItems_collected (fun _ _ => ?_) shells docs heap
  exact collected_ok _

theorem validateLists_ok {doc : Document} (h : doc.Mergeable) (heap heap' : Heap) :
    ∃ p, validateLists doc (validateShells (doc.shells.getD []) heap).1 heap' = .ok p := by
  unfold validateLists
  obtain ⟨p, hp⟩ := (validateResources_collected
    (validateShells (doc.shells.getD []) heap).1 (doc.resources.getD []) heap').collect "Resources"
  rw [hp]
  obtain ⟨q, hq⟩ := (validateItems_deployment_collected h heap (p.1.getD ([], heap')).2).collect
    "Deployment Resources"
  simp only [bind, Except.bind, hq]
  obtain ⟨r, hr⟩ := (validateServices_collected
    (validateShells (doc.shells.getD []) heap).1 (doc.services.getD [])
    (q.1.getD ([], (p.1.getD ([], heap')).2)).2).collect "Services"
  rw [hr]
  exact ⟨_, rfl⟩

theorem validateLists_escapes {doc : Document} (h : ¬ doc.Mergeable) (heap heap' : Heap) :
    validateLists doc (validateShells (doc.shells.getD []) heap).1 heap' =
      .error (.escaped noShellName) := by
  obtain ⟨hshells, hdocs⟩ := not_or.mp h
  obtain ⟨shell, shells, hs⟩ := List.exists_cons_of_ne_nil
    (mt (validateShells_eq_nil _ heap).mp hshells)
  obtain ⟨d, docs, hd⟩ := List.exists_cons_of_ne_nil hdocs
  unfold validateLists
  obtain ⟨p, hp⟩ := (validateResources_collected
    (shell :: shells) (doc.resources.getD []) heap').collect "Resources"
  rw [hs, hd, hp]
  simp only [bind, Except.bind, validateItems_deploymentResource]
  rfl

/-- The exceptions that `parse_obj` is meant to raise are validation errors. -/
def Answered (r : Except Raised Parsed) : Prop :=
  (∃ conf, r = .ok conf) ∨ ∃ errors, r = .error (.validationError errors)

theorem parseObj_lists (int : String → Except String Int) (doc : Document) :
    ∃ finish : Lists × Errors → Except Raised Parsed,
      parseObj int doc = validateLists doc (validateShells (doc.shells.getD []) []).1
        (validateShells (doc.shells.getD []) []).2 >>= finish ∧
      ∀ p, Answered (finish p) ∧ ∀ conf, finish p = .ok conf →
        conf.shellsConf = (validateShells (doc.shells.getD []) []).1 ∧
        conf.resourcesConf = p.1.resourcesConf ∧ conf.servicesConf = p.1.servicesConf ∧
        conf.heap = p.1.heap := by
  obtain ⟨⟨version, versionErrors⟩, hversion⟩ :=
    (validateVersion_collected int doc.version).collect "Version"
  obtain ⟨⟨csConf, csErrors⟩, hcs⟩ :=
    (checkCsConfOrDo_collected doc.doConf doc.csConf).collect "CloudShell"
  obtain ⟨⟨shells, shellsErrors⟩, hshells⟩ := (required_collected doc.shells).collect "Shells"
  obtain ⟨⟨resources, resourcesErrors⟩, hresources⟩ :=
    (required_collected doc.resources).collect "Resources"
  unfold parseObj
  rw [hversion, hcs, hshells, hresources]
  refine ⟨_, rfl, fun p => ?_⟩
  dsimp only
  split
  · refine ⟨.inl ⟨_, rfl⟩, fun conf h => ?_⟩
    obtain rfl := Except.ok.inj h
    exact ⟨rfl, rfl, rfl, rfl⟩
  · exact ⟨.inr ⟨_, rfl⟩, fun conf h => nomatch h⟩

/-- `parse_obj` answers as it is meant to unless the config has a shell and a
deployment resource, which has no `shell_name`. -/
theorem parseObj_answers_iff (int : String → Except String Int) (doc : Document) :
    Answered (parseObj int doc) ↔ doc.Mergeable := by
  obtain ⟨finish, hparse, hfinish⟩ := parseObj_lists int doc
  rw [hparse]
  constructor
  · intro h
    by_contra hn
    rw [validateLists_escapes hn] at h
    obtain ⟨_, h⟩ | ⟨_, h⟩ := h <;> cases h
  · intro h
    obtain ⟨p, hp⟩ := validateLists_ok h [] (validateShells (doc.shells.getD []) []).2
    rw [hp]
    exact (hfinish p).1

theorem parseObj_escapes :
    let doc : Document :=
      { version := some "0.16"
        csConf := some { host := "10.0.0.2", user := "admin", password := "admin" }
        shells := some [⟨"shell", none⟩]
        resources := some []
        deploymentResources := some [⟨"vm", "blueprint", none⟩] }
    ∀ int, parseObj int doc = .error (.escaped noShellName) ∧ ¬ Answered (parseObj int doc) := by
  intro doc int
  have hescapes : parseObj int doc = .error (.escaped noShellName) := by
    obtain ⟨finish, hparse, -⟩ := parseObj_lists int doc
    rw [hparse, validateLists_escapes (by simp [Document.Mergeable, doc])]
    rfl
  refine ⟨hescapes, ?_⟩
  rw [hescapes]
  rintro (⟨_, h⟩ | ⟨_, h⟩) <;> cases h

-- ---------------------------------------------------------------------------
-- What the merge leaves
-- ---------------------------------------------------------------------------

/-- `final` has the item's own declarations, then those of the shell. -/
structure MergedFrom (own shell : TestsDoc) (final : TestsConfig) : Prop where
  failures : ∀ test, final.expectedFailures.lookup test =
    (own.expectedFailures.lookup test).or (shell.expectedFailures.lookup test)
  runTests : final.runTests = (own.runTests.or shell.runTests).getD true

/-- What an item that declares `own` has after parsing, by the first shell of
the name it gives. -/
def Merged (shells : List ShellDoc) (shellName : Option String) (own : Option TestsDoc)
    (final : TestsConfig) : Prop :=
  match shells.find? fun shell => some shell.name = shellName with
  | some shell => MergedFrom (own.getD {}) (shell.tests.getD {}) final
  | none => final = .ofDoc own

theorem ofDoc_eq (own : Option TestsDoc) : TestsConfig.ofDoc own =
    { expectedFailures := (own.getD {}).expectedFailures
      runTests := (own.getD {}).runTests.getD true
      originalRunTests := (own.getD {}).runTests } := by
  cases own <;> rfl

theorem lookup_union (s t : Dict) (test : String) :
    (s ∪ t).lookup test = (s.lookup test).or (t.lookup test) := by
  by_cases h : test ∈ s
  · obtain ⟨text, htext⟩ := Option.isSome_iff_exists.mp (AList.lookup_isSome.mpr h)
    rw [AList.lookup_union_left h, htext, Option.some_or]
  · rw [AList.lookup_union_right h, AList.lookup_eq_none.mpr h, Option.none_or]

theorem iadd_merged (own shell : Option TestsDoc) :
    MergedFrom (own.getD {}) (shell.getD {}) ((TestsConfig.ofDoc own).iadd (.ofDoc shell)) := by
  rw [ofDoc_eq, ofDoc_eq]
  generalize own.getD {} = own
  generalize shell.getD {} = shell
  constructor
  · intro test
    cases ho : own.runTests <;> cases hs : shell.runTests <;>
      exact lookup_union _ _ test
  · cases ho : own.runTests <;> cases hs : shell.runTests <;> rfl

@[simp] theorem Heap.get_append_self (heap : Heap) (c : TestsConfig) (heap' : Heap) :
    Heap.get (heap ++ c :: heap') heap.length = c := by
  simp [Heap.get]

theorem Heap.get_append_left {heap heap' : Heap} {r : Ref} (h : r < heap.length) :
    Heap.get (heap ++ heap') r = heap.get r := by
  simp [Heap.get, List.getElem?_append_left h]

/-- The merge changes no object but the item's own. -/
theorem mergeTestsConfig_frame {conf : Item} {shells : List ShellConf} {heap heap' : Heap} {r : Ref}
    (h : mergeTestsConfig conf shells heap = .ok heap') (hr : r ≠ conf.testsConf) :
    heap'.get r = heap.get r := by
  induction shells with
  | nil => exact congrArg (Heap.get · r) (Except.ok.inj h).symm
  | cons shell shells ih =>
    cases hn : conf.shellName with
    | error e => simp [mergeTestsConfig, hn, bind, Except.bind] at h
    | ok shellName =>
      simp only [mergeTestsConfig, hn, bind, Except.bind] at h
      split at h
      · obtain rfl := Except.ok.inj h
        simp [Heap.get, List.getElem?_set_ne (Ne.symm hr)]
      · exact ih h

def final (heap : Heap) (shells : List ShellConf) (shellName : Option String)
    (own : Option TestsDoc) : TestsConfig :=
  match shells.find? fun shell => some shell.name = shellName with
  | some shell => (TestsConfig.ofDoc own).iadd (heap.get shell.testsConf)
  | none => .ofDoc own

theorem mergeTestsConfig_new {conf : Item} {shells : List ShellConf} {heap : Heap}
    (hname : conf.shellName = .ok shellName) (hconf : conf.testsConf = heap.length)
    (hshells : ∀ shell ∈ shells, shell.testsConf < heap.length) (own : Option TestsDoc) :
    mergeTestsConfig conf shells (heap ++ [.ofDoc own]) =
      .ok (heap ++ [final heap shells shellName own]) := by
  induction shells with
  | nil => rfl
  | cons shell shells ih =>
    specialize ih fun shell h => hshells shell (by simp [h])
    simp only [mergeTestsConfig, hname, bind, Except.bind, final, List.find?_cons]
    split
    · rename_i h
      simp [h, hconf, Heap.get_append_left (hshells shell (by simp)), pure, Except.pure]
    · rename_i h
      simpa [h, final] using ih

theorem final_append {base heap : Heap} {shells : List ShellConf}
    (hshells : ∀ shell ∈ shells, shell.testsConf < base.length) (shellName : Option String)
    (own : Option TestsDoc) :
    final (base ++ heap) shells shellName own = final base shells shellName own := by
  unfold final
  split
  · rename_i shell h
    rw [Heap.get_append_left (hshells shell (List.mem_of_find?_eq_some h))]
  · rfl

theorem validateItems_new {tests : δ → Option TestsDoc} {make : δ → Ref → κ} {item : κ → Item}
    {name : δ → Option String} {shells : List ShellConf} {base : Heap}
    (hname : ∀ doc r, (item (make doc r)).shellName = .ok (name doc))
    (hconf : ∀ doc r, (item (make doc r)).testsConf = r)
    (hshells : ∀ shell ∈ shells, shell.testsConf < base.length) (docs : List δ) (done : Heap) :
    validateItems tests make item shells docs (base ++ done) =
      .ok (docs.mapIdx fun i doc => make doc ((base ++ done).length + i),
        base ++ done ++ docs.map fun doc => final base shells (name doc) (tests doc)) := by
  induction docs generalizing done with
  | nil => simp [validateItems]
  | cons doc docs ih =>
    have hlt (shell) (h : shell ∈ shells) : shell.testsConf < (base ++ done).length := by
      rw [List.length_append]
      exact Nat.lt_add_right _ (hshells shell h)
    have hmerge :=
      mergeTestsConfig_new (hname doc (base ++ done).length) (hconf _ _) hlt (tests doc)
    rw [final_append hshells] at hmerge
    have hrest := ih (done ++ [final base shells (name doc) (tests doc)])
    rw [← List.append_assoc] at hrest
    simp only [validateItems, hmerge, hrest, bind, Except.bind, pure, Except.pure]
    simp [List.mapIdx_cons, Nat.add_assoc, Nat.add_comm 1]

theorem validateShells_new (docs : List ShellDoc) (heap : Heap) :
    validateShells docs heap = (docs.mapIdx fun i doc => doc.conf (heap.length + i),
      heap ++ docs.map fun doc => .ofDoc doc.tests) := by
  induction docs generalizing heap with
  | nil => simp [validateShells]
  | cons doc docs ih =>
    simp only [validateShells, ih]
    simp [List.mapIdx_cons, Nat.add_assoc, Nat.add_comm 1]

theorem validateResources_new {shells : List ShellConf} {base : Heap}
    (hshells : ∀ shell ∈ shells, shell.testsConf < base.length) (docs : List ResourceDoc)
    (done : Heap) :
    validateResources shells docs (base ++ done) =
      .ok (docs.mapIdx fun i d => d.conf ((base ++ done).length + i),
        base ++ done ++ docs.map fun d => final base shells (some d.shellName) d.tests) := by
  unfold validateResources
  exact validateItems_new (fun _ _ => rfl) (fun _ _ => rfl) hshells docs done

theorem validateServices_new {shells : List ShellConf} {base : Heap}
    (hshells : ∀ shell ∈ shells, shell.testsConf < base.length) (docs : List ServiceDoc)
    (done : Heap) :
    validateServices shells docs (base ++ done) =
      .ok (docs.mapIdx fun i d => d.conf ((base ++ done).length + i),
        base ++ done ++ docs.map fun d => final base shells d.shellName d.tests) := by
  unfold validateServices
  exact validateItems_new (fun _ _ => rfl) (fun _ _ => rfl) hshells docs done

theorem validateLists_new {doc : Document} {shells : List ShellConf} {base : Heap}
    (hdoc : doc.deploymentResources.getD [] = [])
    (hshells : ∀ shell ∈ shells, shell.testsConf < base.length) :
    validateLists doc shells base = .ok
      ({ resourcesConf := (doc.resources.getD []).mapIdx fun i d => d.conf (base.length + i)
         deploymentResourcesConf := []
         servicesConf := (doc.services.getD []).mapIdx fun i d =>
           d.conf (base.length + (doc.resources.getD []).length + i)
         heap := base ++
           (doc.resources.getD []).map (fun d => final base shells (some d.shellName) d.tests) ++
           (doc.services.getD []).map (fun d => final base shells d.shellName d.tests) }, []) := by
  have hresources := validateResources_new hshells (doc.resources.getD []) []
  have hservices := validateServices_new hshells (doc.services.getD [])
    ((doc.resources.getD []).map fun d => final base shells (some d.shellName) d.tests)
  rw [List.append_nil] at hresources
  have hnone (heap : Heap) : validateDeploymentResources shells [] heap = .ok ([], heap) := rfl
  unfold validateLists
  simp only [hresources, hdoc, hnone, hservices, collect, bind, Except.bind, Option.getD_some,
    List.append_nil, List.length_append, List.length_map]
  rfl

/-- A config without deployment resources has its tests merged, and each of
its objects for itself. -/
structure MergedConfig (doc : Document) (conf : Parsed) : Prop where
  resources : List.Forall₂ (fun (d : ResourceDoc) (c : ResourceConf) =>
    c.name = d.name ∧ c.shellName = d.shellName ∧
      Merged (doc.shells.getD []) (some d.shellName) d.tests (conf.heap.get c.testsConf))
    (doc.resources.getD []) conf.resourcesConf
  services : List.Forall₂ (fun (d : ServiceDoc) (c : ServiceConf) =>
    c.name = d.name ∧ c.shellName = d.shellName ∧
      Merged (doc.shells.getD []) d.shellName d.tests (conf.heap.get c.testsConf))
    (doc.services.getD []) conf.servicesConf
  shells : List.Forall₂ (fun (d : ShellDoc) (c : ShellConf) =>
    c.name = d.name ∧ conf.heap.get c.testsConf = .ofDoc d.tests)
    (doc.shells.getD []) conf.shellsConf
  apart : (conf.shellsConf.map (·.testsConf) ++ conf.resourcesConf.map (·.testsConf) ++
    conf.servicesConf.map (·.testsConf)).Nodup

theorem forall₂_mapIdx {P : δ → κ → Prop} {docs : List δ} {make : Nat → δ → κ}
    (h : ∀ i d, docs[i]? = some d → P d (make i d)) : List.Forall₂ P docs (docs.mapIdx make) := by
  induction docs generalizing make with
  | nil => exact .nil
  | cons d docs ih =>
    rw [List.mapIdx_cons]
    exact .cons (h 0 d rfl) (ih fun i d hd => h (i + 1) d hd)

theorem Heap.get_map_last {before : Heap} {docs : List δ} {f : δ → TestsConfig} {i : Nat} {d : δ}
    (h : docs[i]? = some d) (hr : r = before.length + i) :
    Heap.get (before ++ docs.map f) r = f d := by
  rw [hr, Heap.get, List.getElem?_append_right (by omega), Nat.add_sub_cancel_left,
    List.getElem?_map, h]
  rfl

theorem Heap.get_map {before after : Heap} {docs : List δ} {f : δ → TestsConfig} {i : Nat} {d : δ}
    (h : docs[i]? = some d) (hr : r = before.length + i) :
    Heap.get (before ++ docs.map f ++ after) r = f d := by
  have hi : i < docs.length := (List.getElem?_eq_some_iff.mp h).1
  rw [Heap.get_append_left (by simp [hr, hi]), Heap.get_map_last h hr]

theorem final_merged (shells : List ShellDoc) (shellName : Option String)
    (own : Option TestsDoc) (heap : Heap) :
    Merged shells shellName own
      (final (heap ++ shells.map fun d => .ofDoc d.tests)
        (shells.mapIdx fun i d => d.conf (heap.length + i)) shellName own) := by
  induction shells generalizing heap with
  | nil => rfl
  | cons shell shells ih =>
    by_cases h : some shell.name = shellName
    · simp only [Merged, final, List.mapIdx_cons, List.find?_cons, ShellDoc.conf, h, decide_true]
      simpa using iadd_merged own shell.tests
    · have hrest := ih (heap ++ [.ofDoc shell.tests])
      simp only [Merged, final, List.mapIdx_cons, List.find?_cons, ShellDoc.conf, h,
        decide_false] at hrest ⊢
      simpa [Nat.add_assoc, Nat.add_comm 1] using hrest

theorem refs_mapIdx {docs : List δ} {make : δ → Ref → κ} {ref : κ → Ref}
    (h : ∀ d r, ref (make d r) = r) (n : Nat) :
    (docs.mapIdx fun i d => make d (n + i)).map ref = List.range' n docs.length := by
  induction docs generalizing n with
  | nil => rfl
  | cons d docs ih =>
    have hrest := ih (n + 1)
    simp only [List.mapIdx_cons, List.map_cons, h, List.length_cons, List.range'_succ]
    simpa [Nat.add_assoc, Nat.add_comm 1] using hrest

theorem parseObj_merges (int : String → Except String Int) (doc : Document) (conf : Parsed)
    (hdoc : doc.deploymentResources.getD [] = []) (h : parseObj int doc = .ok conf) :
    MergedConfig doc conf ∧
      ∀ item shells heap heap', mergeTestsConfig item shells heap = .ok heap' →
        ∀ r ≠ item.testsConf, heap'.get r = heap.get r := by
  refine ⟨?_, fun _ _ _ _ h _ hr => mergeTestsConfig_frame h hr⟩
  obtain ⟨finish, hparse, hfinish⟩ := parseObj_lists int doc
  simp only [validateShells_new, List.nil_append, List.length_nil] at hparse hfinish
  have hfinal := fun shellName own => final_merged (doc.shells.getD []) shellName own []
  simp only [List.nil_append, List.length_nil] at hfinal
  have hshells : ∀ shell ∈ (doc.shells.getD []).mapIdx (fun i d => d.conf (0 + i)),
      shell.testsConf < ((doc.shells.getD []).map fun d => TestsConfig.ofDoc d.tests).length := by
    intro shell hmem
    obtain ⟨i, hi, rfl⟩ := List.mem_mapIdx.mp hmem
    simpa [ShellDoc.conf] using hi
  rw [hparse, validateLists_new hdoc hshells] at h
  obtain ⟨hshellsConf, hresources, hservices, hheap⟩ := (hfinish _).2 conf h
  dsimp only at hresources hservices hheap
  constructor
  · rw [hresources, hheap]
    refine forall₂_mapIdx fun i d hd => ⟨rfl, rfl, ?_⟩
    rw [resourceDoc_conf_testsConf, Heap.get_map hd rfl]
    exact hfinal _ _
  · rw [hservices, hheap]
    refine forall₂_mapIdx fun i d hd => ⟨rfl, rfl, ?_⟩
    rw [serviceDoc_conf_testsConf, Heap.get_map_last hd (by simp)]
    exact hfinal _ _
  · rw [hshellsConf, hheap]
    refine forall₂_mapIdx fun i d hd => ⟨rfl, ?_⟩
    have hi : i < (doc.shells.getD []).length := (List.getElem?_eq_some_iff.mp hd).1
    rw [shellDoc_conf_testsConf, List.append_assoc, Heap.get_append_left (by simpa using hi)]
    simp [Heap.get, hd]
  · rw [hshellsConf, hresources, hservices, refs_mapIdx fun _ _ => rfl, refs_mapIdx fun _ _ => rfl,
      refs_mapIdx fun _ _ => rfl, List.length_map]
    have happend (m n k : Nat) : List.range' 0 m ++ List.range' m n ++ List.range' (m + n) k =
        List.range' 0 (m + n + k) := by
      rw [← List.range'_append_1 (n := k), ← List.range'_append_1 (n := n)]
      rw [Nat.zero_add, Nat.zero_add]
    rw [happend]
    exact List.nodup_range'

def smallInt (text : String) : Except String Int :=
  match text.toList with
  | [c] => .ok (c.toNat - 48)
  | [c, d] => .ok (10 * (c.toNat - 48) + (d.toNat - 48))
  | _ => .error text

/-- Two resources of one shell, of which the first has its own flag, and a
service of no shell. -/
def sharedShell : Document where
  version := some "0.16"
  csConf := some { host := "10.0.0.2", user := "admin", password := "admin" }
  shells := some [⟨"shell", some { runTests := some false }⟩]
  resources := some [⟨"first", "shell", some { runTests := some true }⟩, ⟨"second", "shell", none⟩]
  services := some [⟨"service", none, none⟩]

theorem parseObj_merges_shared : ∃ conf, parseObj smallInt sharedShell = .ok conf ∧
    conf.resourcesConf.map (fun c => (conf.heap.get c.testsConf).runTests) = [true, false] ∧
    MergedConfig sharedShell conf := by
  refine ⟨_, rfl, rfl, (parseObj_merges smallInt sharedShell _ rfl rfl).1⟩

end ShellTests.ParseConfig
