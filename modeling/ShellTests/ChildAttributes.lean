import Mathlib.Data.List.TakeWhile
import ShellTests.CloudShell

/-!
# Attributes of a child resource

`_set_child_attribute` looks for the namespace under which a child lists an
attribute, and sets the attribute under it.
-/

namespace ShellTests.ChildAttributes

open Prog

structure ChildInfo where
  name : String
  resourceModelName : String
  resourceAttributes : List String
  deriving DecidableEq, Repr

/-- `name.rsplit(".", 1)`, where it has two parts. -/
def rsplitDot (name : String) : Option (String × String) :=
  match name.toList.reverse.dropWhile (· != '.') with
  | [] => none
  | _ :: headReversed =>
    some (String.ofList headReversed.reverse,
      String.ofList (name.toList.reverse.takeWhile (· != '.')).reverse)

/-- The namespace at the end of the loop, which has come with `ns` to `infos`. -/
def findNamespace (attributeName ns : String) : (infos : List String) → Except Exn String
  | [] => .ok ns
  | info :: rest =>
    match rsplitDot info with
    | none => .error (.other "not enough values to unpack (expected 2, got 1)")
    | some (ns, name) =>
      if name = attributeName then .ok ns else findNamespace attributeName ns rest

variable (api : Api)

def setChildAttribute (child : ChildInfo) (attributeName attributeValue : String) : Cs σ Unit :=
  match findNamespace attributeName child.resourceModelName child.resourceAttributes with
  | .ok ns =>
    CloudShellHandler.setResourceAttributes api child.name ns [(attributeName, attributeValue)]
  | .error e => throw e

def component (name : String) : String :=
  String.ofList (name.toList.reverse.takeWhile (· != '.')).reverse

def namespaceOf (name : String) : String := ((rsplitDot name).map (·.1)).getD ""

def qualified (ns name : String) : String := (if ns = "" then "" else ns ++ ".") ++ name

theorem rsplitDot_of_not_mem (h : '.' ∉ name.toList) : rsplitDot name = none := by
  have hall : name.toList.reverse.dropWhile (· != '.') = [] := by
    rw [List.dropWhile_eq_nil_iff]
    intro c hc
    simpa using fun heq : c = '.' => h (heq ▸ List.mem_reverse.mp hc)
  rw [rsplitDot, hall]

theorem rsplitDot_some (h : rsplitDot name = some (ns, c)) :
    name = ns ++ "." ++ c ∧ c = component name ∧ ns = namespaceOf name := by
  have hns : ns = namespaceOf name := by rw [namespaceOf, h]; rfl
  unfold rsplitDot at h
  split at h
  · cases h
  · rename_i x headReversed hdrop
    obtain ⟨hhead, rfl⟩ := Prod.mk.inj (Option.some.inj h)
    have hx : x = '.' := by
      have := List.head?_dropWhile_not (· != '.') name.toList.reverse
      rw [hdrop] at this
      simpa using this
    refine ⟨?_, rfl, hns⟩
    have hsplit := List.takeWhile_append_dropWhile (p := (· != '.')) (l := name.toList.reverse)
    rw [hdrop, hx] at hsplit
    rw [← String.toList_inj, ← List.reverse_inj]
    refine hsplit.symm.trans ?_
    rw [← hhead]
    simp

theorem rsplitDot_of_mem (h : '.' ∈ name.toList) :
    rsplitDot name = some (namespaceOf name, component name) := by
  cases hsplit : rsplitDot name with
  | some split =>
    obtain ⟨-, hc, hns⟩ := rsplitDot_some (hsplit.trans rfl)
    rw [← hc, ← hns]
  | none =>
    unfold rsplitDot at hsplit
    split at hsplit
    · rename_i hdrop
      rw [List.dropWhile_eq_nil_iff] at hdrop
      simpa using hdrop '.' (List.mem_reverse.mpr h)
    · cases hsplit

theorem namespaceOf_of_not_mem (h : '.' ∉ name.toList) : namespaceOf name = "" := by
  rw [namespaceOf, rsplitDot_of_not_mem h]
  rfl

theorem qualified_inj : qualified ns name = qualified ns' name ↔ ns = ns' := by
  refine ⟨fun h => ?_, fun h => h ▸ rfl⟩
  have happ : (if ns = "" then "" else ns ++ ".") = if ns' = "" then "" else ns' ++ "." := by
    rw [← String.toList_inj] at h ⊢
    simpa [qualified] using h
  have hdot (text : String) : text ++ "." ≠ "" := fun h => by
    have hlength := congrArg (fun text : String => text.toList.length) h
    simp at hlength
  split at happ <;> split at happ
  · rename_i hns hns'
    rw [hns, hns']
  · exact absurd happ.symm (hdot ns')
  · exact absurd happ (hdot ns)
  · rw [← String.toList_inj] at happ ⊢
    simpa using happ

theorem qualified_eq_iff (ns name : String) : qualified ns name = ns ++ "." ++ name ↔ ns ≠ "" := by
  unfold qualified
  split
  · rename_i hns
    refine ⟨fun h => ?_, fun h => absurd hns h⟩
    have hlength := congrArg String.length h
    simp [hns] at hlength
  · rename_i hns
    exact ⟨fun _ => hns, fun _ => rfl⟩

-- ---------------------------------------------------------------------------
-- The attribute that is set
-- ---------------------------------------------------------------------------

/-- The first listed attribute with the name as its last component, or else
the name under the child's model. -/
def target (model attributeName : String) (infos : List String) : String :=
  match infos.find? (component · == attributeName) with
  | some info => info
  | none => qualified model attributeName

/-- The lists in which the loop, which has come to them with `ns`, finds the
namespace: every name that it splits has a dot, a match has a namespace, and
without a match the last name happens to have that of the model. -/
def Resolvable (model attributeName ns : String) (infos : List String) : Prop :=
  match infos.find? (component · == attributeName) with
  | some info =>
    namespaceOf info ≠ "" ∧ ∀ before ∈ infos.takeWhile (component · != attributeName),
      '.' ∈ before.toList
  | none =>
    (∀ info ∈ infos, '.' ∈ info.toList) ∧ (infos.getLast?.map namespaceOf).getD ns = model

theorem resolvable_match (hmatch : component info = attributeName) :
    Resolvable model attributeName ns (info :: rest) ↔ namespaceOf info ≠ "" := by
  have hfind : (info :: rest).find? (component · == attributeName) = some info := by simp [hmatch]
  have htake : (info :: rest).takeWhile (component · != attributeName) = [] := by simp [hmatch]
  simp [Resolvable, hfind, htake]

theorem resolvable_skip (hdot : '.' ∈ info.toList) (hmatch : component info ≠ attributeName) :
    Resolvable model attributeName ns (info :: rest) ↔
      Resolvable model attributeName (namespaceOf info) rest := by
  have hfind : (info :: rest).find? (component · == attributeName) =
      rest.find? (component · == attributeName) := by simp [hmatch]
  have htake : (info :: rest).takeWhile (component · != attributeName) =
      info :: rest.takeWhile (component · != attributeName) := by simp [hmatch]
  have hlast : ((info :: rest).getLast?.map namespaceOf).getD ns =
      (rest.getLast?.map namespaceOf).getD (namespaceOf info) := by
    cases hrest : rest.getLast? <;> simp [List.getLast?_cons, hrest]
  simp only [Resolvable, hfind, htake, hlast, List.forall_mem_cons, hdot, true_and]

theorem not_resolvable (hdot : '.' ∉ info.toList) :
    ¬ Resolvable model attributeName ns (info :: rest) := by
  intro h
  by_cases hmatch : component info = attributeName
  · exact (resolvable_match hmatch).mp h (namespaceOf_of_not_mem hdot)
  · unfold Resolvable at h
    split at h
    · exact absurd (h.2 info (by simp [hmatch])) hdot
    · exact absurd (h.1 info List.mem_cons_self) hdot

theorem findNamespace_iff (model attributeName ns : String) (infos : List String) :
    (∃ ns', findNamespace attributeName ns infos = .ok ns' ∧
        qualified ns' attributeName = target model attributeName infos) ↔
      Resolvable model attributeName ns infos := by
  induction infos generalizing ns with
  | nil => simp [findNamespace, target, Resolvable, qualified_inj]
  | cons info rest ih =>
    by_cases hdot : '.' ∈ info.toList
    · have hsplit := rsplitDot_of_mem hdot
      obtain ⟨heq, -, -⟩ := rsplitDot_some hsplit
      by_cases hmatch : component info = attributeName
      · have hqualified := qualified_eq_iff (namespaceOf info) (component info)
        rw [← heq, hmatch] at hqualified
        rw [resolvable_match hmatch, ← hqualified]
        simp [findNamespace, hsplit, target, hmatch]
      · rw [resolvable_skip hdot hmatch, ← ih (namespaceOf info)]
        simp [findNamespace, hsplit, target, hmatch]
    · simp [findNamespace, rsplitDot_of_not_mem hdot, not_resolvable hdot]

/-- Exactly one attribute of the child is set, the target, and whatever the
CloudShell says to it is the outcome. -/
def SetsTarget (child : ChildInfo) (attributeName attributeValue : String) : Prop :=
  let attributes :=
    [(target child.resourceModelName attributeName child.resourceAttributes, attributeValue)]
  ∀ (api : Api) (s : Unit) (log : List Event),
    setChildAttribute api child attributeName attributeValue s log =
      (api.setAttributesValues log child.name attributes, s,
        log ++ [.setAttributesValues child.name attributes
          (api.setAttributesValues log child.name attributes)])

theorem setResourceAttributes_run (api : Api) (resourceName ns attributeName value : String)
    (s : σ) (log : List Event) :
    CloudShellHandler.setResourceAttributes api resourceName ns [(attributeName, value)] s log =
      (api.setAttributesValues log resourceName [(qualified ns attributeName, value)], s,
        log ++ [.setAttributesValues resourceName [(qualified ns attributeName, value)]
          (api.setAttributesValues log resourceName [(qualified ns attributeName, value)])]) := rfl

theorem setsTarget_iff (child : ChildInfo) (attributeName attributeValue : String) :
    SetsTarget child attributeName attributeValue ↔
      Resolvable child.resourceModelName attributeName child.resourceModelName
        child.resourceAttributes := by
  rw [← findNamespace_iff]
  unfold SetsTarget setChildAttribute
  cases hfind : findNamespace attributeName child.resourceModelName child.resourceAttributes with
  | error e =>
    refine ⟨fun h => ?_, by simp⟩
    have hlog := congrArg (fun run => run.2.2.length) (h .obliging () [])
    simp at hlog
  | ok ns =>
    simp only [setResourceAttributes_run, Except.ok.injEq, exists_eq_left']
    refine ⟨fun h => ?_, fun h api s log => by rw [h]⟩
    have hrun := h .obliging () []
    simpa [Api.obliging] using hrun

/-- An attribute without a dot before the match, and no match with attributes of
another namespace at the end. -/
theorem undotted_and_unmatched :
    let undotted : ChildInfo := ⟨"sw/p1", "Port", ["Location", "Port.Speed"]⟩
    let unmatched : ChildInfo := ⟨"sw/p1", "Port", ["Port.Speed", "Base.Address"]⟩
    (setChildAttribute .obliging undotted "Speed" "10" () []).1 =
        .error (.other "not enough values to unpack (expected 2, got 1)") ∧
      ¬ SetsTarget undotted "Speed" "10" ∧
      target "Port" "Vlan" ["Port.Speed", "Base.Address"] = "Port.Vlan" ∧
      (setChildAttribute .obliging unmatched "Vlan" "7" () []).2.2 =
        [.setAttributesValues "sw/p1" [("Base.Vlan", "7")] (.ok ())] ∧
      ¬ SetsTarget unmatched "Vlan" "7" := by
  refine ⟨rfl, fun h => ?_, by decide, rfl, fun h => ?_⟩
  · have hlog := congrArg (fun run => run.2.2.length) (h .obliging () [])
    exact absurd hlog (by decide)
  · have hset : [Event.setAttributesValues "sw/p1" [("Base.Vlan", "7")] (.ok ())] =
        [.setAttributesValues "sw/p1" [("Port.Vlan", "7")] (.ok ())] :=
      congrArg (·.2.2) (h .obliging () [])
    simp at hset

end ShellTests.ChildAttributes
