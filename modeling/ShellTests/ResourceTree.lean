import ShellTests.Lib.Substring
import ShellTests.CloudShell

/-!
# The structure of an autoloaded resource

`test_structure` prints the nested families of a resource and looks for a name
in the printed text; `find_ports` compares the family of each node.
-/

namespace ShellTests.ResourceTree

open Substring PyRepr

-- ---------------------------------------------------------------------------
-- The tree, and its ports
-- ---------------------------------------------------------------------------

mutual
/-- A `ResourceInfo`, with the fields that the tests read. -/
inductive Resource where
  | mk : (name family : String) → (childResources : Children) → Resource
inductive Children where
  | nil
  | cons : Resource → Children → Children
end

def Resource.name : Resource → String
  | .mk name _ _ => name

def Resource.family : Resource → String
  | .mk _ family _ => family

def Children.toList : Children → List Resource
  | .nil => []
  | .cons r rest => r :: rest.toList

def Resource.childResources : Resource → List Resource
  | .mk _ _ children => children.toList

mutual
def findPorts : Resource → List Resource
  | .mk name family children =>
    if family = "CS_Port" then [.mk name family children] else findPortsIn children
def findPortsIn : Children → List Resource
  | .nil => []
  | .cons r rest => findPorts r ++ findPortsIn rest
end

mutual
def families : Resource → List String
  | .mk _ family children => family :: familiesIn children
def familiesIn : Children → List String
  | .nil => []
  | .cons r rest => families r ++ familiesIn rest
end

mutual
/-- A family, or a dictionary from a family to a list of structures. -/
inductive Structure where
  | leaf : (family : String) → Structure
  | dict : (family : String) → Structures → Structure
inductive Structures where
  | nil
  | cons : Structure → Structures → Structures
end

mutual
def getStructure : Resource → Structure
  | .mk _ family .nil => .leaf family
  | .mk _ family (.cons r rest) => .dict family (.cons (getStructure r) (getStructures rest))
def getStructures : Children → Structures
  | .nil => .nil
  | .cons r rest => .cons (getStructure r) (getStructures rest)
end

-- `str.isprintable` of a character that is not in ASCII
variable (isPrintable : Char → Bool)

mutual
def reprStructure : Structure → List Char
  | .leaf family => reprString isPrintable family
  | .dict family structures =>
    '{' :: (reprString isPrintable family ++
      ':' :: ' ' :: '[' :: (reprStructures structures ++ [']', '}']))
def reprStructures : Structures → List Char
  | .nil => []
  | .cons s .nil => reprStructure s
  | .cons s (.cons s' rest) => reprStructure s ++ ',' :: ' ' :: reprStructures (.cons s' rest)
end

/-- `str(structure)`: a string prints as it is. -/
def strStructure : Structure → String
  | .leaf family => family
  | .dict family structures => String.ofList (reprStructure isPrintable (.dict family structures))

/-- `self.assertIn(family, str(self._get_structure(info)))` -/
def assertInStructure (family : String) (info : Resource) : Except Exn Unit :=
  let printed := strStructure isPrintable (getStructure info)
  if mentions family printed then .ok () else .error (.assertion (family ++ " not found"))

-- what `autoload` and `get_details` do
variable (autoload : Except Exn Unit) (getDetails : Except Exn Resource)

def TestAutoloadNetworkDevices.testStructure : Except Exn Unit := do
  autoload
  let info ← getDetails
  assertInStructure isPrintable "CS_Port" info

def TestAutoloadTrafficGeneratorDevices.testStructure : Except Exn Unit := do
  autoload
  let info ← getDetails
  assertInStructure isPrintable "CS_TrafficGeneratorPort" info

def TestAutoloadVirtualTrafficGeneratorDevices.testStructure : Except Exn Unit := do
  let info ← getDetails
  assertInStructure isPrintable "CS_VirtualTrafficGeneratorPort" info

-- ---------------------------------------------------------------------------
-- Where a printed family name can come from
-- ---------------------------------------------------------------------------

/-- What the tests look for: letters, digits and underscores, beginning with a
capital letter that begins no escape. -/
structure FamilyName (needle : List Char) : Prop where
  word : ∀ c ∈ needle, c.isAlphanum ∨ c = '_'
  head : ∃ h cs, needle = h :: cs ∧ h.isUpper ∧ h ≠ 'U'

namespace FamilyName

variable {needle as bs : List Char} (hn : FamilyName needle)
include hn

theorem ne_nil : needle ≠ [] := by
  obtain ⟨h, cs, rfl, -⟩ := hn.head
  simp

theorem not_mem (hc : ¬ (c.isAlphanum ∨ c = '_')) : c ∉ needle := fun h => hc (hn.word c h)

theorem cons_iff (hc : ¬ (c.isAlphanum ∨ c = '_')) : needle <:+: c :: bs ↔ needle <:+: bs :=
  infix_cons_of_not_mem hn.ne_nil (hn.not_mem hc)

theorem escape_iff (hrest : ∀ c ∈ rest, ¬ c.isUpper ∨ c = 'U') :
    needle <:+: as ++ '\\' :: (rest ++ bs) ↔ needle <:+: as ∨ needle <:+: bs := by
  have hbackslash : '\\' ∉ needle := hn.not_mem (by decide)
  rw [infix_append_cons_iff hbackslash]
  obtain ⟨h, cs, rfl, hupper, hne⟩ := hn.head
  have hnot : h ∉ rest := fun hmem => (hrest h hmem).elim (fun hf => hf hupper) hne
  rw [infix_append_of_head hnot]

end FamilyName

theorem isUpper_hexDigits (width n : Nat) : ∀ c ∈ hexDigits width n, ¬ c.isUpper ∨ c = 'U' := by
  have hdigit : ∀ k < 16, ¬ (Nat.digitChar k).isUpper := by decide
  induction width generalizing n with
  | zero => simp [hexDigits]
  | succ width ih =>
    intro c hc
    rcases List.mem_append.mp hc with hc | hc
    · exact ih (n / 16) c hc
    · rw [List.mem_singleton.mp hc]
      exact .inl (hdigit _ (Nat.mod_lt n (by decide)))

theorem toNat_of_word (h : c.isAlphanum ∨ c = '_') : 0x30 ≤ c.toNat ∧ c.toNat < 0x7f := by
  rcases h with h | rfl
  · unfold Char.isAlphanum Char.isAlpha Char.isUpper Char.isLower Char.isDigit at h
    simp only [Bool.or_eq_true, Bool.and_eq_true, decide_eq_true_eq, ge_iff_le,
      UInt32.le_iff_toNat_le, Char.toNat_val] at h
    have hA : 'A'.toNat = 65 := rfl
    have hZ : 'Z'.toNat = 90 := rfl
    have ha : 'a'.toNat = 97 := rfl
    have hz : 'z'.toNat = 122 := rfl
    have h0 : '0'.toNat = 48 := rfl
    have h9 : '9'.toNat = 57 := rfl
    omega
  · decide

theorem reprChar_cases (hquote : quote = '\'' ∨ quote = '"') (c : Char) :
    reprChar isPrintable quote c = [c] ∨
      (∃ rest, reprChar isPrintable quote c = '\\' :: rest ∧ ∀ c ∈ rest, ¬ c.isUpper ∨ c = 'U') ∧
        ¬ (c.isAlphanum ∨ c = '_') := by
  have hescape {p : Char} (hp : ¬ p.isUpper ∨ p = 'U') (width : Nat) :
      ∀ d ∈ p :: hexDigits width c.toNat, ¬ d.isUpper ∨ d = 'U' := by
    rw [List.forall_mem_cons]
    exact ⟨hp, isUpper_hexDigits width c.toNat⟩
  have hone {d : Char} (hd : ¬ d.isUpper ∨ d = 'U') : ∀ d' ∈ [d], ¬ d'.isUpper ∨ d' = 'U' := by
    simpa using hd
  have hnot (h : c.toNat < 0x30 ∨ 0x7f ≤ c.toNat) : ¬ (c.isAlphanum ∨ c = '_') := fun hword => by
    have := toNat_of_word hword
    omega
  generalize he : reprChar isPrintable quote c = e
  unfold reprChar at he
  split at he
  · rename_i hc
    subst he
    have hcases : c = '\'' ∨ c = '"' ∨ c = '\\' := by
      rcases hc with rfl | rfl
      · exact hquote.imp id .inl
      · exact .inr (.inr rfl)
    refine .inr ⟨⟨[c], rfl, hone ?_⟩, ?_⟩ <;>
    · rcases hcases with rfl | rfl | rfl <;> decide
  split at he
  · rename_i hc
    subst he
    exact .inr ⟨⟨['t'], rfl, hone (by decide)⟩, by subst hc; decide⟩
  split at he
  · rename_i hc
    subst he
    exact .inr ⟨⟨['n'], rfl, hone (by decide)⟩, by subst hc; decide⟩
  split at he
  · rename_i hc
    subst he
    exact .inr ⟨⟨['r'], rfl, hone (by decide)⟩, by subst hc; decide⟩
  split at he
  · rename_i hc
    exact .inr ⟨⟨_, he.symm, hescape (by decide) 2⟩, hnot (by omega)⟩
  split at he
  · exact .inl he.symm
  rename_i hc
  have hlarge : 0x7f ≤ c.toNat := Nat.not_lt.mp fun hlt => hc (.inl hlt)
  split at he
  · exact .inr ⟨⟨_, he.symm, hescape (by decide) 2⟩, hnot (.inr hlarge)⟩
  split at he
  · exact .inr ⟨⟨_, he.symm, hescape (by decide) 4⟩, hnot (.inr hlarge)⟩
  · exact .inr ⟨⟨_, he.symm, hescape (by decide) 8⟩, hnot (.inr hlarge)⟩

section
variable {needle : List Char} (hn : FamilyName needle) {isPrintable}
include hn

theorem infix_reprChars_iff (hquote : quote = '\'' ∨ quote = '"') (as text bs : List Char) :
    needle <:+: as ++ (text.flatMap (reprChar isPrintable quote) ++ quote :: bs) ↔
      needle <:+: as ++ text ∨ needle <:+: bs := by
  have hq : quote ∉ needle := hn.not_mem (by rcases hquote with rfl | rfl <;> decide)
  induction text generalizing as with
  | nil => simpa using infix_append_cons_iff hq
  | cons c text ih =>
    rw [List.flatMap_cons, List.append_assoc]
    rcases reprChar_cases isPrintable hquote c with heq | ⟨⟨rest, heq, hrest⟩, hword⟩
    · have h := ih (as ++ [c])
      rw [List.append_assoc, List.append_assoc] at h
      rw [heq]
      exact h
    · rw [heq, List.cons_append, hn.escape_iff hrest, infix_append_cons_iff (hn.not_mem hword),
        or_assoc]
      exact or_congr_right (ih [])

theorem infix_reprString_iff (text : String) (bs : List Char) :
    needle <:+: reprString isPrintable text ++ bs ↔ needle <:+: text.toList ∨ needle <:+: bs := by
  unfold reprString
  simp only [List.cons_append, List.append_assoc, List.nil_append]
  generalize hq : (if '\'' ∈ text.toList ∧ '"' ∉ text.toList then '"' else '\'') = quote
  have hquote : quote = '\'' ∨ quote = '"' := by
    rw [← hq]
    split
    · exact .inr rfl
    · exact .inl rfl
  rw [hn.cons_iff (by rcases hquote with rfl | rfl <;> decide)]
  exact infix_reprChars_iff hn hquote [] text.toList bs

mutual
theorem infix_reprStructure_iff : (r : Resource) → (bs : List Char) →
    (needle <:+: reprStructure isPrintable (getStructure r) ++ bs ↔
      (∃ family ∈ families r, needle <:+: family.toList) ∨ needle <:+: bs)
  | .mk _ family .nil, bs => by
    simpa [getStructure, reprStructure, families, familiesIn] using
      infix_reprString_iff hn family bs
  | .mk _ family (.cons r rest), bs => by
    have hchildren := infix_reprStructures_iff (.cons r rest) (']' :: '}' :: bs)
    rw [getStructures, hn.cons_iff (by decide), hn.cons_iff (by decide)] at hchildren
    simp only [getStructure, reprStructure, List.cons_append, List.append_assoc, List.nil_append]
    rw [hn.cons_iff (by decide), infix_reprString_iff hn, hn.cons_iff (by decide),
      hn.cons_iff (by decide), hn.cons_iff (by decide), hchildren, families,
      List.exists_mem_cons_iff, or_assoc]
theorem infix_reprStructures_iff : (children : Children) → (bs : List Char) →
    (needle <:+: reprStructures isPrintable (getStructures children) ++ bs ↔
      (∃ family ∈ familiesIn children, needle <:+: family.toList) ∨ needle <:+: bs)
  | .nil, bs => by simp [getStructures, reprStructures, familiesIn]
  | .cons r .nil, bs => by
    simpa [getStructures, reprStructures, familiesIn] using infix_reprStructure_iff r bs
  | .cons r (.cons r' rest), bs => by
    have hrest := infix_reprStructures_iff (.cons r' rest) bs
    have hfamilies : familiesIn (.cons r (.cons r' rest)) =
        families r ++ familiesIn (.cons r' rest) := rfl
    rw [getStructures] at hrest
    rw [getStructures, getStructures, reprStructures, List.append_assoc, infix_reprStructure_iff r,
      List.cons_append, List.cons_append, hn.cons_iff (by decide), hn.cons_iff (by decide), hrest,
      hfamilies]
    simp only [List.mem_append, or_and_right, exists_or, or_assoc]
end

end

/-- The printed structure holds the name if and only if the family of a node does. -/
theorem mentions_strStructure_iff {text : String} (hn : FamilyName text.toList) (r : Resource) :
    mentions text (strStructure isPrintable (getStructure r)) ↔
      ∃ family ∈ families r, mentions text family := by
  simp only [mentions, decide_eq_true_eq]
  cases r with
  | mk name family children =>
    cases children with
    | nil => simp [getStructure, strStructure, families, familiesIn]
    | cons r rest =>
      have h : text.toList <:+: reprStructure isPrintable
          (getStructure (.mk name family (.cons r rest))) ++ [] ↔ _ :=
        infix_reprStructure_iff hn _ []
      simpa [strStructure, getStructure, hn.ne_nil] using h

-- ---------------------------------------------------------------------------
-- The check against the ports
-- ---------------------------------------------------------------------------

mutual
theorem findPorts_ne_nil_iff : (r : Resource) → (findPorts r ≠ [] ↔ "CS_Port" ∈ families r)
  | .mk name family children => by
    have hchildren := findPortsIn_ne_nil_iff children
    by_cases hport : family = "CS_Port"
    · simp [findPorts, families, hport]
    · simp only [findPorts, if_neg hport, families, List.mem_cons, Ne.symm hport, false_or]
      exact hchildren
theorem findPortsIn_ne_nil_iff :
    (children : Children) → (findPortsIn children ≠ [] ↔ "CS_Port" ∈ familiesIn children)
  | .nil => by simp [findPortsIn, familiesIn]
  | .cons r rest => by
    have hr := findPorts_ne_nil_iff r
    have hrest := findPortsIn_ne_nil_iff rest
    rw [findPortsIn, familiesIn, List.mem_append, ← hr, ← hrest, Ne, List.append_eq_nil_iff,
      not_and_or]
end

/-- The families that the three tests look for can be told apart from what the
printing puts around them. -/
theorem familyName_of_port (h : text ∈
    ["CS_Port", "CS_TrafficGeneratorPort", "CS_VirtualTrafficGeneratorPort"]) :
    FamilyName text.toList := by
  have hword (h : text.toList.all fun c => c.isAlphanum || c == '_') :
      ∀ c ∈ text.toList, c.isAlphanum ∨ c = '_' := by
    simpa using h
  simp only [List.mem_cons, List.not_mem_nil, or_false] at h
  rcases h with rfl | rfl | rfl <;>
  · exact ⟨hword (by decide), 'C', _, rfl, by decide⟩

theorem assertInStructure_iff {text : String} (hn : FamilyName text.toList) (info : Resource) :
    assertInStructure isPrintable text info = .ok () ↔
      ∃ family ∈ families info, mentions text family := by
  rw [← mentions_strStructure_iff isPrintable hn, assertInStructure]
  split
  · rename_i h
    exact ⟨fun _ => h, fun _ => rfl⟩
  · rename_i h
    exact ⟨nofun, fun h' => absurd h' h⟩

def Passes (info : Resource) : Prop :=
  TestAutoloadNetworkDevices.testStructure isPrintable (.ok ()) (.ok info) = .ok ()

theorem passes_iff (info : Resource) :
    Passes isPrintable info ↔ ∃ family ∈ families info, mentions "CS_Port" family :=
  assertInStructure_iff isPrintable (familyName_of_port (by simp)) info

theorem mentions_self (text : String) : mentions text text := by simp [mentions]

/-- The check agrees with `find_ports` if and only if a node is a port or no
family has the name in it. -/
theorem passes_iff_ports_iff (info : Resource) :
    ((Passes isPrintable info ↔ "CS_Port" ∈ families info) ↔
        "CS_Port" ∈ families info ∨ ∀ family ∈ families info, ¬ mentions "CS_Port" family) ∧
      (findPorts info ≠ [] ↔ "CS_Port" ∈ families info) := by
  refine ⟨?_, findPorts_ne_nil_iff info⟩
  rw [passes_iff]
  constructor
  · intro hiff
    by_cases hport : "CS_Port" ∈ families info
    · exact .inl hport
    · refine .inr fun family hmem hmentions => hport (hiff.mp ⟨family, hmem, hmentions⟩)
  · rintro (hport | hnone)
    · exact ⟨fun _ => hport, fun _ => ⟨_, hport, mentions_self _⟩⟩
    · refine ⟨?_, fun hport => ⟨_, hport, mentions_self _⟩⟩
      rintro ⟨family, hmem, hmentions⟩
      exact absurd hmentions (hnone family hmem)

/-- A switch with a port channel and no ports. -/
theorem portChannel_passes :
    let info : Resource := .mk "sw" "CS_Switch" (.cons (.mk "PC1" "CS_PortChannel" .nil) .nil)
    Passes (fun _ => true) info ∧ findPorts info = [] ∧ "CS_Port" ∉ families info :=
  ⟨rfl, rfl, by decide⟩

end ShellTests.ResourceTree
