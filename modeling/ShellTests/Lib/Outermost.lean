import Mathlib.Data.List.Basic

/-!
# The outermost nodes of a tree

A tree is a type with the children of each of its values; a node has an
address, the numbers of the children on the way to it. A search that goes down
to the children of a node where it does not stop at the node itself finds the
nodes with a property that have none above them, from left to right.
-/

namespace Outermost

variable {T : Type}

section
variable (children : T → List T) (P : T → Prop)

def nodeAt : T → List Nat → Option T
  | t, [] => some t
  | t, i :: path => (children t)[i]?.bind fun c => nodeAt c path

/-- The address of a node with `P` and of no other on the way to it. -/
structure IsOutermost (t : T) (path : List Nat) (node : T) : Prop where
  here : nodeAt children t path = some node
  holds : P node
  none_above : ∀ above, above <+: path → above ≠ path →
    ∀ ancestor, nodeAt children t above = some ancestor → ¬ P ancestor

/-- The outermost nodes of several trees, the first of which has the number `k`. -/
def InForest (k : Nat) (cs : List T) (path : List Nat) (node : T) : Prop :=
  ∃ i rest c, path = (k + i) :: rest ∧ cs[i]? = some c ∧ IsOutermost children P c rest node

end

/-- All nodes of a kind with their addresses, each once. The lexicographic order
of addresses is depth first, and from left to right. -/
structure Enumerates (Found : List Nat → T → Prop) (nodes : List (List Nat × T)) : Prop where
  sorted : nodes.Pairwise fun a b => a.1 < b.1
  mem_iff : ∀ path node, (path, node) ∈ nodes ↔ Found path node

variable {children : T → List T} {P : T → Prop}

theorem nodeAt_cons : nodeAt children t (i :: path) = some node ↔
    ∃ c, (children t)[i]? = some c ∧ nodeAt children c path = some node :=
  Option.bind_eq_some_iff

theorem isOutermost_root (h : P t) :
    IsOutermost children P t path node ↔ path = [] ∧ node = t := by
  constructor
  · intro hout
    cases path with
    | nil => exact ⟨rfl, (Option.some.inj hout.here).symm⟩
    | cons i rest => exact absurd h (hout.none_above [] List.nil_prefix nofun t rfl)
  · rintro ⟨rfl, rfl⟩
    exact ⟨rfl, h, fun above habove hne => absurd (List.prefix_nil.mp habove) hne⟩

theorem isOutermost_below (h : ¬ P t) :
    IsOutermost children P t path node ↔ InForest children P 0 (children t) path node := by
  constructor
  · intro hout
    cases path with
    | nil => exact absurd (Option.some.inj hout.here ▸ hout.holds) h
    | cons i rest =>
      obtain ⟨c, hc, hnode⟩ := nodeAt_cons.mp hout.here
      refine ⟨i, rest, c, by rw [Nat.zero_add], hc, hnode, hout.holds, ?_⟩
      intro above habove hne ancestor hancestor
      refine hout.none_above (i :: above) (List.cons_prefix_cons.mpr ⟨rfl, habove⟩) ?_ ancestor ?_
      · exact fun heq => hne (List.cons.inj heq).2
      · exact nodeAt_cons.mpr ⟨c, hc, hancestor⟩
  · rintro ⟨i, rest, c, rfl, hc, hout⟩
    rw [Nat.zero_add]
    refine ⟨nodeAt_cons.mpr ⟨c, hc, hout.here⟩, hout.holds, ?_⟩
    intro above habove hne ancestor hancestor
    cases above with
    | nil =>
      cases hancestor
      exact h
    | cons j above =>
      obtain ⟨rfl, hrest⟩ := List.cons_prefix_cons.mp habove
      obtain ⟨c', hc', hancestor⟩ := nodeAt_cons.mp hancestor
      obtain rfl : c = c' := Option.some.inj (hc.symm.trans hc')
      exact hout.none_above above hrest (fun heq => hne (heq ▸ rfl)) ancestor hancestor

theorem inForest_cons : InForest children P k (c :: cs) path node ↔
    (∃ rest, path = k :: rest ∧ IsOutermost children P c rest node) ∨
      InForest children P (k + 1) cs path node := by
  constructor
  · rintro ⟨i, rest, c', rfl, hc, hout⟩
    cases i with
    | zero =>
      cases hc
      exact .inl ⟨rest, rfl, hout⟩
    | succ i => exact .inr ⟨i, rest, c', by rw [Nat.add_right_comm, Nat.add_assoc], hc, hout⟩
  · rintro (⟨rest, rfl, hout⟩ | ⟨i, rest, c', rfl, hc, hout⟩)
    · exact ⟨0, rest, c, rfl, rfl, hout⟩
    · exact ⟨i + 1, rest, c', by rw [Nat.add_right_comm, Nat.add_assoc], hc, hout⟩

theorem enumerates_forest {search : T → List T} (cs : List T) (k : Nat)
    (h : ∀ c ∈ cs, ∃ nodes,
      Enumerates (IsOutermost children P c) nodes ∧ nodes.map Prod.snd = search c) :
    ∃ nodes, Enumerates (InForest children P k cs) nodes ∧
      nodes.map Prod.snd = cs.flatMap search := by
  induction cs generalizing k with
  | nil => exact ⟨[], ⟨.nil, by simp [InForest]⟩, rfl⟩
  | cons c cs ih =>
    obtain ⟨hc, hcs⟩ := List.forall_mem_cons.mp h
    obtain ⟨first, hfirst, hsearch⟩ := hc
    obtain ⟨others, hothers, hsearch'⟩ := ih (k + 1) hcs
    refine ⟨first.map (fun found => (k :: found.1, found.2)) ++ others, ⟨?_, ?_⟩, ?_⟩
    · refine List.pairwise_append.mpr ⟨?_, hothers.sorted, ?_⟩
      · refine List.pairwise_map.mpr (hfirst.sorted.imp fun hlt => ?_)
        exact List.cons_lt_cons_iff.mpr (.inr ⟨rfl, hlt⟩)
      -- the addresses of the others begin with greater numbers
      · intro found hfound other hother
        obtain ⟨_, -, rfl⟩ := List.mem_map.mp hfound
        obtain ⟨i, rest, _, heq, -⟩ := (hothers.mem_iff other.1 other.2).mp hother
        rw [heq]
        exact List.cons_lt_cons_iff.mpr (.inl (by omega))
    · intro path node
      rw [inForest_cons, List.mem_append, hothers.mem_iff]
      refine or_congr_left ?_
      simp only [List.mem_map, Prod.mk.injEq]
      constructor
      · rintro ⟨found, hfound, rfl, rfl⟩
        exact ⟨found.1, rfl, (hfirst.mem_iff _ _).mp hfound⟩
      · rintro ⟨rest, rfl, hout⟩
        exact ⟨(rest, node), (hfirst.mem_iff _ _).mpr hout, rfl, rfl⟩
    · rw [List.map_append, List.map_map, hsearch', List.flatMap_cons, ← hsearch]
      rfl

/-- A search finds the outermost nodes of a tree of finite depth. -/
theorem exists_enumerates [DecidablePred P] {search : T → List T}
    (hfinite : WellFounded fun c t => c ∈ children t)
    (hsearch : ∀ t, search t = if P t then [t] else (children t).flatMap search) (t : T) :
    ∃ nodes, Enumerates (IsOutermost children P t) nodes ∧ nodes.map Prod.snd = search t := by
  induction t using hfinite.induction with
  | h t ih =>
    rw [hsearch]
    by_cases hroot : P t
    · refine ⟨[([], t)], ⟨List.pairwise_singleton .., fun path node => ?_⟩, by simp [hroot]⟩
      rw [isOutermost_root hroot, List.mem_singleton, Prod.mk.injEq]
    · obtain ⟨nodes, hnodes, hfound⟩ := enumerates_forest (children t) 0 ih
      rw [if_neg hroot]
      refine ⟨nodes, ⟨hnodes.sorted, fun path node => ?_⟩, hfound⟩
      rw [hnodes.mem_iff, isOutermost_below hroot]

end Outermost
