import Mathlib.Data.List.Perm.Subperm

/-!
# Connections between virtual machines

`parse_connections` reads the ports that a blueprint requests on both sides of
its connector, and collects the target ports by the source port that each is to
be connected to.
-/

namespace ShellTests.VmConnections

/-- The name of a resource and one of its ports. -/
abbrev Port := String × String

/-- A `defaultdict(list)`, in the order in which its keys were set. -/
abbrev Connections := List (Port × List Port)

/-- `connections[key].append(value)` -/
def addTo (key value : Port) : Connections → Connections
  | [] => [(key, [value])]
  | (k, values) :: rest =>
    if k = key then (k, values ++ [value]) :: rest else (k, values) :: addTo key value rest

/-- `itertools.zip_longest(as, bs, fillvalue=fill)` -/
def zipLongest (fill : α) : List α → List α → List (α × α)
  | [], bs => bs.map (fill, ·)
  | a :: as, [] => (a, fill) :: zipLongest fill as []
  | a :: as, b :: bs => (a, b) :: zipLongest fill as bs

/-- `ports.split(",")` -/
def splitPorts (ports : String) : List String := (ports.toList.splitOn ',').map String.ofList

def connection (sourceName targetName : String) (ports : String × String) : Port × Port :=
  ((sourceName, ports.1), (targetName, ports.2))

def parseConnections (sourceName sourcePorts targetName targetPorts : String) : Connections :=
  let pairs := zipLongest "any" (splitPorts sourcePorts) (splitPorts targetPorts)
  (pairs.map (connection sourceName targetName)).foldl
    (fun connections pair => addTo pair.1 pair.2 connections) []

def flatten (connections : Connections) : List (Port × Port) :=
  connections.flatMap fun entry => entry.2.map (entry.1, ·)

def requested : Option String → String
  | none => "any"
  | some port => if port = "" then "any" else port

/-- The pairs that two requests are for. -/
def requestedPairs (sourceName sourcePorts targetName targetPorts : String) : List (Port × Port) :=
  let sources := splitPorts sourcePorts
  let targets := splitPorts targetPorts
  (List.range (max sources.length targets.length)).map fun i =>
    ((sourceName, requested sources[i]?), (targetName, requested targets[i]?))

/-- The pairs of the map are those of the requests, so that no port is lost, and
they do not depend on which side is the source. -/
structure Parses (sourceName sourcePorts targetName targetPorts : String) : Prop where
  pairs : (flatten (parseConnections sourceName sourcePorts targetName targetPorts)).Perm
    (requestedPairs sourceName sourcePorts targetName targetPorts)
  sources : ((splitPorts sourcePorts).map fun port => (sourceName, requested (some port))).Subperm
    ((flatten (parseConnections sourceName sourcePorts targetName targetPorts)).map Prod.fst)
  targets : ((splitPorts targetPorts).map fun port => (targetName, requested (some port))).Subperm
    ((flatten (parseConnections sourceName sourcePorts targetName targetPorts)).map Prod.snd)
  swap : (flatten (parseConnections targetName targetPorts sourceName sourcePorts)).Perm
    ((flatten (parseConnections sourceName sourcePorts targetName targetPorts)).map Prod.swap)

theorem flatten_addTo (key value : Port) (connections : Connections) :
    (flatten (addTo key value connections)).Perm (flatten connections ++ [(key, value)]) := by
  induction connections with
  | nil => simp [addTo, flatten]
  | cons entry rest ih =>
    obtain ⟨k, values⟩ := entry
    rw [addTo]
    split
    next heq =>
      subst heq
      simp only [flatten, List.flatMap_cons, List.map_append, List.append_assoc]
      exact List.perm_append_comm.append_left _
    next _ =>
      simp only [flatten, List.flatMap_cons, List.append_assoc] at ih ⊢
      exact ih.append_left _

theorem flatten_foldl (pairs : List (Port × Port)) (connections : Connections) :
    (flatten (pairs.foldl (fun connections pair => addTo pair.1 pair.2 connections)
      connections)).Perm (flatten connections ++ pairs) := by
  induction pairs generalizing connections with
  | nil => simp
  | cons pair pairs ih =>
    refine (ih _).trans ?_
    rw [List.append_cons]
    exact (flatten_addTo pair.1 pair.2 connections).append_right _

theorem flatten_parseConnections (sourceName sourcePorts targetName targetPorts : String) :
    (flatten (parseConnections sourceName sourcePorts targetName targetPorts)).Perm
      ((zipLongest "any" (splitPorts sourcePorts) (splitPorts targetPorts)).map
        (connection sourceName targetName)) :=
  flatten_foldl _ []

theorem zipLongest_eq (fill : α) (as bs : List α) :
    zipLongest fill as bs =
      (List.range (max as.length bs.length)).map fun i => (as[i]?.getD fill, bs[i]?.getD fill) := by
  induction as generalizing bs with
  | nil =>
    induction bs with
    | nil => rfl
    | cons b bs ih =>
      simp only [zipLongest, List.map_cons] at ih ⊢
      rw [ih]
      simp [List.range_succ_eq_map, Function.comp_def]
  | cons a as ih =>
    cases bs with
    | nil => simp [zipLongest, ih, List.range_succ_eq_map, Function.comp_def]
    | cons b bs => simp [zipLongest, ih, List.range_succ_eq_map, Function.comp_def]

theorem zipLongest_swap (fill : α) (as bs : List α) :
    zipLongest fill bs as = (zipLongest fill as bs).map Prod.swap := by
  rw [zipLongest_eq, zipLongest_eq, List.map_map, Nat.max_comm]
  rfl

theorem sublist_zipLongest (fill : α) (as bs : List α) :
    as.Sublist ((zipLongest fill as bs).map Prod.fst) := by
  induction as generalizing bs with
  | nil => exact List.nil_sublist _
  | cons a as ih => cases bs <;> exact (ih _).cons_cons a

theorem sources_kept (sourceName sourcePorts targetName targetPorts : String) :
    ((splitPorts sourcePorts).map (sourceName, ·)).Subperm
      ((flatten (parseConnections sourceName sourcePorts targetName targetPorts)).map
        Prod.fst) := by
  have hperm := flatten_parseConnections sourceName sourcePorts targetName targetPorts
  have hports := sublist_zipLongest "any" (splitPorts sourcePorts) (splitPorts targetPorts)
  refine List.Subperm.trans (List.Sublist.subperm ?_) (hperm.map Prod.fst).symm.subperm
  have hpairs := hports.map (sourceName, ·)
  rw [List.map_map] at hpairs ⊢
  exact hpairs

theorem parseConnections_swap (sourceName sourcePorts targetName targetPorts : String) :
    (flatten (parseConnections targetName targetPorts sourceName sourcePorts)).Perm
      ((flatten (parseConnections sourceName sourcePorts targetName targetPorts)).map
        Prod.swap) := by
  refine (flatten_parseConnections ..).trans ?_
  refine List.Perm.trans (List.Perm.of_eq ?_) ((flatten_parseConnections ..).map Prod.swap).symm
  rw [zipLongest_swap, List.map_map, List.map_map]
  rfl

theorem targets_kept (sourceName sourcePorts targetName targetPorts : String) :
    ((splitPorts targetPorts).map (targetName, ·)).Subperm
      ((flatten (parseConnections sourceName sourcePorts targetName targetPorts)).map
        Prod.snd) := by
  have hswap := parseConnections_swap sourceName sourcePorts targetName targetPorts
  have hperm := hswap.map Prod.fst
  rw [List.map_map] at hperm
  exact (sources_kept targetName targetPorts sourceName sourcePorts).trans hperm.subperm

-- ---------------------------------------------------------------------------
-- Empty ports
-- ---------------------------------------------------------------------------

def NoEmptyPort (ports : String) : Prop := "" ∉ splitPorts ports

theorem requested_ne (port : Option String) : requested port ≠ "" := by
  cases port with
  | none => decide
  | some port =>
    rw [requested]
    split
    · decide
    · assumption

theorem requested_some (h : port ≠ "") : requested (some port) = port := if_neg h

theorem requested_getElem? (h : NoEmptyPort ports) (i : Nat) :
    requested (splitPorts ports)[i]? = (splitPorts ports)[i]?.getD "any" := by
  cases hport : (splitPorts ports)[i]? with
  | none => rfl
  | some port =>
    refine requested_some ?_
    rintro rfl
    exact h (List.mem_of_getElem? hport)

theorem map_requested (h : NoEmptyPort ports) (name : String) :
    ((splitPorts ports).map fun port => (name, requested (some port))) =
      (splitPorts ports).map (name, ·) := by
  refine List.map_congr_left fun port hport => ?_
  rw [requested_some]
  rintro rfl
  exact h hport

/-- The map has the requested pairs just where no port is empty; an empty port
stands in the map as it is. -/
theorem parseConnections_iff (sourceName sourcePorts targetName targetPorts : String) :
    Parses sourceName sourcePorts targetName targetPorts ↔
      NoEmptyPort sourcePorts ∧ NoEmptyPort targetPorts := by
  have hperm := flatten_parseConnections sourceName sourcePorts targetName targetPorts
  have hsources := sources_kept sourceName sourcePorts targetName targetPorts
  have htargets := targets_kept sourceName sourcePorts targetName targetPorts
  constructor
  · refine fun hparses => ⟨fun hempty => ?_, fun hempty => ?_⟩
    · obtain ⟨pair, hpair, heq⟩ := List.mem_map.mp (hsources.subset (List.mem_map_of_mem hempty))
      obtain ⟨i, -, rfl⟩ := List.mem_map.mp (hparses.pairs.subset hpair)
      exact requested_ne _ (Prod.ext_iff.mp heq).2
    · obtain ⟨pair, hpair, heq⟩ := List.mem_map.mp (htargets.subset (List.mem_map_of_mem hempty))
      obtain ⟨i, -, rfl⟩ := List.mem_map.mp (hparses.pairs.subset hpair)
      exact requested_ne _ (Prod.ext_iff.mp heq).2
  · rintro ⟨hsource, htarget⟩
    refine ⟨hperm.trans (List.Perm.of_eq ?_), ?_, ?_, parseConnections_swap ..⟩
    · rw [zipLongest_eq, List.map_map, requestedPairs]
      refine List.map_congr_left fun i _ => ?_
      rw [requested_getElem? hsource, requested_getElem? htarget]
      rfl
    · rw [map_requested hsource]
      exact hsources
    · rw [map_requested htarget]
      exact htargets

theorem parseConnections_not : ¬ Parses "Router" "" "Switch" "2,3" := by
  intro h
  exact absurd h.pairs (by decide +kernel)

end ShellTests.VmConnections
