import Mathlib.Data.List.Nodup

/-!
# Positions of apps on a blueprint

`AppPositionOnBlueprint` has positions for the first apps in a table, and draws
those of the others at random until it draws one that is not in use.
-/

namespace ShellTests.AppPositions

abbrev Position := Nat × Nat

def maxX : Nat := 1200
def maxY : Nat := 500
def step : Nat := 20

def defaultPositions : List Position := [(600, 240), (600, 340), (1100, 340), (1100, 340)]

/-- What `random.randrange(0, stop, step)` can give. -/
def InRandrange (stop n : Nat) : Prop := n < stop ∧ step ∣ n

instance (stop n : Nat) : Decidable (InRandrange stop n) := inferInstanceAs (Decidable (_ ∧ _))

abbrev Draw := { position : Position // InRandrange maxX position.1 ∧ InRandrange maxY position.2 }

structure AppPositionOnBlueprint where
  appNum : Nat := 1
  usedPositions : List Position := []
  deriving DecidableEq, Repr

namespace AppPositionOnBlueprint

/-- The loop, with the draws to come; it does not return where they are all of
positions in use. -/
def getRandomPosition (gen : AppPositionOnBlueprint) : List Draw → Option (Position × List Draw)
  | [] => none
  | position :: draws =>
    if position.val ∈ gen.usedPositions then gen.getRandomPosition draws
    else some (position.val, draws)

def getNewPosition (gen : AppPositionOnBlueprint) (draws : List Draw) :
    Option (Position × AppPositionOnBlueprint × List Draw) := do
  let (position, draws) ← match defaultPositions[gen.appNum]? with
    | some position => some (position, draws)
    | none => gen.getRandomPosition draws
  let gen := { appNum := gen.appNum + 1, usedPositions := position :: gen.usedPositions }
  some (position, gen, draws)

/-- The positions that `Blueprint.get_apps_dict` gives to its apps. -/
def getAppsDict (gen : AppPositionOnBlueprint) : (apps : List α) → List Draw →
    Option (List (Position × α) × AppPositionOnBlueprint × List Draw)
  | [], draws => some ([], gen, draws)
  | app :: apps, draws => do
    let (position, gen, draws) ← gen.getNewPosition draws
    let (placed, gen, draws) ← gen.getAppsDict apps draws
    some ((position, app) :: placed, gen, draws)

end AppPositionOnBlueprint

open AppPositionOnBlueprint

def InRange (position : Position) : Prop := position.1 ≤ maxX ∧ position.2 ≤ maxY

instance (position : Position) : Decidable (InRange position) :=
  inferInstanceAs (Decidable (_ ∧ _))

section
variable {gen gen' : AppPositionOnBlueprint} {draws draws' : List Draw} {position : Position}

theorem getRandomPosition_fresh (h : gen.getRandomPosition draws = some (position, draws')) :
    position ∉ gen.usedPositions ∧ InRange position := by
  induction draws with
  | nil => simp [getRandomPosition] at h
  | cons draw draws ih =>
    rw [getRandomPosition] at h
    split at h
    next => exact ih h
    next hfree =>
      obtain ⟨rfl, -⟩ := Prod.mk.inj (Option.some.inj h)
      exact ⟨hfree, Nat.le_of_lt draw.property.1.1, Nat.le_of_lt draw.property.2.1⟩

theorem getNewPosition_some (h : gen.getNewPosition draws = some (position, gen', draws')) :
    gen' = { appNum := gen.appNum + 1, usedPositions := position :: gen.usedPositions } ∧
      (defaultPositions[gen.appNum]? = some position ∨
        defaultPositions[gen.appNum]? = none ∧ position ∉ gen.usedPositions) ∧
      InRange position := by
  unfold getNewPosition at h
  cases hdefault : defaultPositions[gen.appNum]? with
  | some position' =>
    simp only [hdefault, Option.bind_eq_bind, Option.bind_some, Option.some.injEq,
      Prod.mk.injEq] at h
    obtain ⟨rfl, rfl, rfl⟩ := h
    have hall : ∀ position ∈ defaultPositions, InRange position := by decide
    exact ⟨rfl, .inl rfl, hall _ (List.mem_of_getElem? hdefault)⟩
  | none =>
    simp only [hdefault, Option.bind_eq_bind] at h
    obtain ⟨⟨position', draws''⟩, hrandom, hrest⟩ := Option.bind_eq_some_iff.mp h
    simp only [Option.some.injEq, Prod.mk.injEq] at hrest
    obtain ⟨rfl, rfl, rfl⟩ := hrest
    obtain ⟨hfree, hrange⟩ := getRandomPosition_fresh hrandom
    exact ⟨rfl, .inr ⟨rfl, hfree⟩, hrange⟩

end

section
variable {gen gen' : AppPositionOnBlueprint} {draws draws' : List Draw} {apps : List α}
  {placed : List (Position × α)}

theorem getAppsDict_cons {app : α}
    (h : gen.getAppsDict (app :: apps) draws = some (placed, gen', draws')) :
    ∃ position gen₁ draws₁ rest, gen.getNewPosition draws = some (position, gen₁, draws₁) ∧
      gen₁.getAppsDict apps draws₁ = some (rest, gen', draws') ∧
      placed = (position, app) :: rest := by
  rw [getAppsDict, Option.bind_eq_bind] at h
  obtain ⟨⟨position, gen₁, draws₁⟩, hnew, h⟩ := Option.bind_eq_some_iff.mp h
  obtain ⟨⟨rest, gen₂, draws₂⟩, happs, h⟩ := Option.bind_eq_some_iff.mp h
  simp only [Option.some.injEq, Prod.mk.injEq] at h
  obtain ⟨rfl, rfl, rfl⟩ := h
  exact ⟨position, gen₁, draws₁, rest, hnew, happs, rfl⟩

theorem getAppsDict_inRange (h : gen.getAppsDict apps draws = some (placed, gen', draws')) :
    ∀ position ∈ placed.map Prod.fst, InRange position := by
  induction apps generalizing gen draws placed with
  | nil =>
    obtain ⟨rfl, -⟩ := Prod.mk.inj (Option.some.inj h)
    simp
  | cons app apps ih =>
    obtain ⟨position, gen₁, draws₁, rest, hnew, hrest, rfl⟩ := getAppsDict_cons h
    exact List.forall_mem_cons.mpr ⟨(getNewPosition_some hnew).2.2, ih hrest⟩

/-- The first positions are the next ones of the table. All others are new. -/
theorem getAppsDict_positions (h : gen.getAppsDict apps draws = some (placed, gen', draws')) :
    ∃ others, placed.map Prod.fst =
        (defaultPositions.drop gen.appNum).take apps.length ++ others ∧
      others.Nodup ∧ ∀ position ∈ others, position ∉ gen.usedPositions ∧
        position ∉ (defaultPositions.drop gen.appNum).take apps.length := by
  induction apps generalizing gen draws placed with
  | nil =>
    obtain ⟨rfl, -⟩ := Prod.mk.inj (Option.some.inj h)
    exact ⟨[], by simp, .nil, nofun⟩
  | cons app apps ih =>
    obtain ⟨position, gen₁, draws₁, rest, hnew, hrest, rfl⟩ := getAppsDict_cons h
    obtain ⟨rfl, hposition, -⟩ := getNewPosition_some hnew
    obtain ⟨others, hothers, hnodup, hfresh⟩ := ih hrest
    rcases hposition with hdefault | ⟨hend, hfree⟩
    · have hdrop : defaultPositions.drop gen.appNum =
          position :: defaultPositions.drop (gen.appNum + 1) := by
        obtain ⟨hlt, hget⟩ := List.getElem?_eq_some_iff.mp hdefault
        rw [List.drop_eq_getElem_cons hlt, hget]
      refine ⟨others, ?_, hnodup, fun other hother => ?_⟩
      · rw [hdrop, List.length_cons, List.take_succ_cons, List.map_cons, hothers]
        rfl
      · obtain ⟨hused, htable⟩ := hfresh other hother
        rw [List.mem_cons, not_or] at hused
        refine ⟨hused.2, ?_⟩
        rw [hdrop, List.length_cons, List.take_succ_cons, List.mem_cons, not_or]
        exact ⟨hused.1, htable⟩
    · have hlength := List.getElem?_eq_none_iff.mp hend
      have hdrop : defaultPositions.drop gen.appNum = [] := List.drop_eq_nil_of_le hlength
      have hdrop' : defaultPositions.drop (gen.appNum + 1) = [] :=
        List.drop_eq_nil_of_le (Nat.le_succ_of_le hlength)
      rw [hdrop', List.take_nil, List.nil_append] at hothers
      refine ⟨position :: others, ?_, List.nodup_cons.mpr ⟨fun hmem => ?_, hnodup⟩,
        List.forall_mem_cons.mpr ⟨⟨hfree, by simp [hdrop]⟩, fun other hother => ?_⟩⟩
      · rw [hdrop, List.take_nil, List.nil_append, List.map_cons, hothers]
      · exact (hfresh position hmem).1 List.mem_cons_self
      · exact ⟨fun hmem => (hfresh other hother).1 (List.mem_cons_of_mem _ hmem), by simp [hdrop]⟩

/-- The apps of a blueprint have positions of their own, on the blueprint,
exactly when there are at most two of them. -/
theorem getAppsDict_distinct_iff (apps : List α) (draws : List Draw)
    (h : getAppsDict {} apps draws = some (placed, gen', draws')) :
    (placed.map Prod.fst).Nodup ∧ (∀ position ∈ placed.map Prod.fst, InRange position) ↔
      apps.length ≤ 2 := by
  rw [and_iff_left (getAppsDict_inRange h)]
  obtain ⟨others, hplaced, hnodup, hfresh⟩ := getAppsDict_positions h
  rw [hplaced]
  constructor
  · intro hall
    by_contra hmany
    have htable : ((defaultPositions.drop 1).take apps.length).Nodup :=
      (List.nodup_append.mp hall).1
    have hlong : (defaultPositions.drop 1).length ≤ apps.length := Nat.lt_of_not_le hmany
    rw [List.take_of_length_le hlong] at htable
    exact absurd htable (by decide)
  · intro hfew
    have htable : ((defaultPositions.drop 1).take apps.length).Nodup :=
      List.Nodup.sublist (List.take_sublist_take_left hfew) (by decide)
    refine List.nodup_append.mpr ⟨htable, hnodup, fun position hposition other hother heq => ?_⟩
    exact (hfresh other hother).2 (heq ▸ hposition)

end

theorem getAppsDict_distinct_two :
    ∃ placed gen, getAppsDict {} ["web", "db"] [] = some (placed, gen, []) ∧
      (placed.map Prod.fst).Nodup ∧ ∀ position ∈ placed.map Prod.fst, InRange position := by
  refine ⟨[((600, 340), "web"), ((1100, 340), "db")], _, rfl, ?_⟩
  exact (getAppsDict_distinct_iff ["web", "db"] [] rfl).mpr (by decide)

theorem getAppsDict_overlaps :
    (getAppsDict {} ["web", "db", "cache"] []).map (·.1) =
      some [((600, 340), "web"), ((1100, 340), "db"), ((1100, 340), "cache")] := rfl

end ShellTests.AppPositions
