import ShellTests.Connectivity
import ShellTests.Lib.Outermost

/-!
# The ports of a connectivity test

`find_ports` does not look below a port, so it finds the outermost ports of a
resource; a connectivity test takes the first two of them.
-/

namespace ShellTests.Connectivity

open ResourceTree
open Outermost (IsOutermost Enumerates)

def IsPort (r : Resource) : Prop := r.family = "CS_Port"

instance : DecidablePred IsPort := fun r => inferInstanceAs (Decidable (r.family = "CS_Port"))

theorem findPortsIn_eq (children : Children) :
    findPortsIn children = children.toList.flatMap findPorts := by
  cases children with
  | nil => rfl
  | cons r rest => rw [findPortsIn, findPortsIn_eq rest, Children.toList, List.flatMap_cons]

theorem findPorts_eq (r : Resource) :
    findPorts r = if IsPort r then [r] else r.childResources.flatMap findPorts := by
  cases r with
  | mk name family children =>
    rw [findPorts, findPortsIn_eq]
    rfl

mutual
theorem acc_child : (r : Resource) → Acc (fun c r => c ∈ Resource.childResources r) r
  | .mk _ _ children => ⟨_, acc_children children⟩
theorem acc_children : (children : Children) →
    ∀ r ∈ children.toList, Acc (fun c r => c ∈ Resource.childResources r) r
  | .nil => nofun
  | .cons r rest => List.forall_mem_cons.mpr ⟨acc_child r, acc_children rest⟩
end

/-- The ports with none above them, each once, depth first and from left to right. -/
theorem findPorts_enumerates (r : Resource) :
    ∃ ports, Enumerates (IsOutermost Resource.childResources IsPort r) ports ∧
      ports.map Prod.snd = findPorts r :=
  Outermost.exists_enumerates ⟨acc_child⟩ findPorts_eq r

theorem getPortNames_two (h : findPorts info = port1 :: port2 :: rest) (s : State)
    (log : List Event) :
    getPortNamesForConnectivity info s log = (.ok (port1.name, port2.name), s, log) := by
  rw [getPortNamesForConnectivity, h]
  rfl

theorem getPortNames_few (h : (findPorts info).length < 2) (s : State) (log : List Event) :
    getPortNamesForConnectivity info s log = (.error (.baseAutomation
      (s!"Resource {info.name} has too few ports for " ++
        s!"connectivity {(findPorts info).length}")), s, log) := by
  rw [getPortNamesForConnectivity]
  match hports : findPorts info with
  | [] => rfl
  | [_] => rfl
  | _ :: _ :: _ =>
    rw [hports, List.length_cons, List.length_cons] at h
    omega

/-- A connectivity test takes the first two ports of a resource. It raises where
there are fewer, and nowhere else. -/
theorem getPortNames_exact (info : Resource) (s : State) (log : List Event) :
    ∃ ports, Enumerates (IsOutermost Resource.childResources IsPort info) ports ∧
      ports.map Prod.snd = findPorts info ∧
      (∀ port1 port2, ports[0]? = some port1 → ports[1]? = some port2 →
        getPortNamesForConnectivity info s log =
          (.ok (port1.2.name, port2.2.name), s, log)) ∧
      (getPortNamesForConnectivity info s log = (.error (.baseAutomation
          (s!"Resource {info.name} has too few ports for " ++
            s!"connectivity {ports.length}")), s, log) ↔
        ports.length < 2) := by
  obtain ⟨ports, hports, hfound⟩ := findPorts_enumerates info
  have hlength : (findPorts info).length = ports.length := by rw [← hfound, List.length_map]
  have hreturns (port1 port2 : List Nat × Resource) (h1 : ports[0]? = some port1)
      (h2 : ports[1]? = some port2) :
      getPortNamesForConnectivity info s log = (.ok (port1.2.name, port2.2.name), s, log) := by
    match ports with
    | [] => cases h1
    | [_] => cases h2
    | _ :: _ :: _ =>
      cases h1
      cases h2
      exact getPortNames_two hfound.symm s log
  refine ⟨ports, hports, hfound, hreturns, fun hraises => ?_, fun hfew => ?_⟩
  · by_contra hmany
    have h1 : 1 < ports.length := by omega
    rw [hreturns _ _ (List.getElem?_eq_getElem (by omega)) (List.getElem?_eq_getElem h1)] at hraises
    cases hraises
  · rw [getPortNames_few (hlength ▸ hfew), hlength]

end ShellTests.Connectivity
