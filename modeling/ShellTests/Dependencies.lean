import Mathlib.Data.List.Dedup
import ShellTests.DownloadFiles
import ShellTests.Lib.Replace

/-!
# The log level in the offline dependencies

The dependencies are an archive of packages, and a package is an archive too.
`patch_dependencies` sets the log level in the settings of the logging package,
so it builds two archives anew, one in the other. Reading and writing an archive
is left to `zipfile`; a member that it cannot read makes it refuse the archive.
-/

namespace ShellTests.Dependencies

open DownloadFiles (pathName)
open Replace (replace Apart)

abbrev Bytes := List UInt8

abbrev Archive := List (String × Bytes)

inductive Error
  | badZipFile (msg : String)
  | assertion
  | notImplemented (msg : String)
  /-- The `KeyError` of a member that the archive does not have. -/
  | noItem (name : String)

def namelist (zip : Archive) : List String := zip.map (·.1)

/-- `zip_file.read(name)`: of two members of one name, the later. -/
def read (zip : Archive) (name : String) : Except Error Bytes :=
  match zip.reverse.find? (·.1 = name) with
  | some member => .ok member.2
  | none => .error (.noItem name)

/-- Whether a character is a small letter when case is ignored. -/
def sameLetter (letter c : Char) : Bool :=
  c = letter ∨ c = letter.toUpper ∨ letter = 'i' ∧ (c = 'İ' ∨ c = 'ı') ∨ letter = 's' ∧ c = 'ſ'

/-- Of each character of the pattern, the letters that it allows. -/
def LOGGING_PATTERN : List (List Char) :=
  "cloudshell".toList.map ([·]) ++ [['-', '_']] ++ "logging-".toList.map ([·])

def matchesStart : List (List Char) → List Char → Bool
  | [], _ => true
  | _ :: _, [] => false
  | letters :: pattern, c :: text => letters.any (sameLetter · c) && matchesStart pattern text

/-- `LOGGING_PATTERN.search(package_name)` -/
def isLogging (packageName : String) : Bool := matchesStart LOGGING_PATTERN packageName.toList

/-- `Path(path).suffix` -/
def suffix (path : String) : String :=
  let name := (pathName path).toList
  let ext := (name.reverse.takeWhile (· ≠ '.')).reverse
  let before := name.length - (ext.length + 1)
  if '.' ∈ name ∧ ext ≠ [] ∧ 0 < before then String.ofList ('.' :: ext) else ""

def topDir (name : String) : String := String.ofList (name.toList.takeWhile (· ≠ '/'))

-- ---------------------------------------------------------------------------
-- The code
-- ---------------------------------------------------------------------------

def bytes (text : String) : Bytes := text.toList.map fun c => UInt8.ofNat c.toNat

def infoLevel : Bytes := bytes "LOG_LEVEL='INFO'"
def debugLevel : Bytes := bytes "LOG_LEVEL='DEBUG'"

/-- The replacement of each member, the last one set in front; without data the
member is left out. -/
abbrev Replacements := List (String × Option Bytes)

/-- The times that stand in the archives of one run. -/
structure Clock (Time : Type) where
  package : String → Time
  dependencies : Time

section
variable {Time : Type} (unpack : Bytes → Except Error Archive) (pack : Time → Archive → Bytes)

def newMembers (zip : Archive) (replacements : Replacements) :
    (fileNames : List String) → Except Error Archive
  | [] => pure []
  | fileName :: rest =>
    match replacements.lookup fileName with
    | some none => newMembers zip replacements rest
    | some (some data) => do
      let members ← newMembers zip replacements rest
      pure ((fileName, data) :: members)
    | none => do
      let data ← read zip fileName
      let members ← newMembers zip replacements rest
      pure ((fileName, data) :: members)

def genNewZipWithReplacement (time : Time) (zip : Archive) (replacements : Replacements) :
    Except Error Bytes := do
  let members ← newMembers zip replacements (namelist zip)
  pure (pack time members)

/-- `get_new_config_and_path(zip_file)`, of an archive with its file name. -/
def getNewConfigAndPath (fileName : String) (zip : Archive) : Except Error (Bytes × String) := do
  let ext := suffix fileName
  let configPath ←
    if ext = ".zip" then
      match ((namelist zip).map topDir).dedup with
      | [dir] => pure (dir ++ "/cloudshell/logging/qs_config.ini")
      | _ => throw .assertion
    else if ext = ".whl" then pure "cloudshell/logging/qs_config.ini"
    else throw (.notImplemented ("Extension " ++ ext ++ " is not supported"))
  let data ← read zip configPath
  pure (replace infoLevel debugLevel data, configPath)

def newLogging (clock : Clock Time) (depZip : Archive) (packageName : String) :
    Except Error Bytes := do
  let data ← read depZip packageName
  let loggingZip ← unpack data
  let (configData, configPath) ← getNewConfigAndPath packageName loggingZip
  genNewZipWithReplacement pack (clock.package packageName) loggingZip
    [(configPath, some configData)]

def packageReplacements (clock : Clock Time) (depZip : Archive) :
    (packageNames : List String) → Replacements → Except Error Replacements
  | [], replacements => pure replacements
  | packageName :: rest, replacements =>
    if isLogging packageName then do
      let logging ← newLogging unpack pack clock depZip packageName
      packageReplacements clock depZip rest ((packageName, some logging) :: replacements)
    else packageReplacements clock depZip rest replacements

/-- `patch_dependencies(path)`: what the file of the path has afterwards. With an
error it has what it had. -/
def patchDependencies (clock : Clock Time) (file : Bytes) : Except Error Bytes := do
  let depZip ← unpack file
  let replacements ← packageReplacements unpack pack clock depZip (namelist depZip) []
  genNewZipWithReplacement pack clock.dependencies depZip replacements

-- ---------------------------------------------------------------------------
-- What a run is to leave
-- ---------------------------------------------------------------------------

/-- `zipfile` reads what it has written, of names that it can read. -/
structure Faithful : Prop where
  unpack_pack : ∀ {file found zip} (time : Time), unpack file = .ok found →
    namelist zip = namelist found → (namelist zip).Nodup → unpack (pack time zip) = .ok zip

/-- The settings of a package, by the name of its file and the names of its members. -/
inductive ConfigPath (fileName : String) (names : List String) : String → Prop
  | zip : suffix fileName = ".zip" → names ≠ [] → (∀ name ∈ names, topDir name = dir) →
      ConfigPath fileName names (dir ++ "/cloudshell/logging/qs_config.ini")
  | whl : suffix fileName = ".whl" →
      ConfigPath fileName names "cloudshell/logging/qs_config.ini"

structure LoggingPackage (fileName : String) (data : Bytes) (zip : Archive)
    (configPath : String) : Prop where
  unpacked : unpack data = .ok zip
  distinct : (namelist zip).Nodup
  path : ConfigPath fileName (namelist zip) configPath
  mem : configPath ∈ namelist zip

structure Wellformed (file : Bytes) (deps : Archive) : Prop where
  unpacked : unpack file = .ok deps
  distinct : (namelist deps).Nodup
  logging : ∀ member ∈ deps, isLogging member.1 →
    ∃ zip configPath, LoggingPackage unpack member.1 member.2 zip configPath

/-- No occurrence of the old level is left, and what stands between the
occurrences stays. -/
def Debugged (old new : Bytes) : Prop :=
  ¬ infoLevel <:+: new ∧
    ∃ pieces, old = infoLevel.intercalate pieces ∧ new = debugLevel.intercalate pieces ∧
      ∀ piece ∈ pieces, ¬ infoLevel <:+: piece

def PatchedMember (configPath : String) (old new : String × Bytes) : Prop :=
  new.1 = old.1 ∧ (old.1 ≠ configPath → new.2 = old.2) ∧
    (old.1 = configPath → Debugged old.2 new.2)

def Patched (old new : String × Bytes) : Prop :=
  new.1 = old.1 ∧ (¬ isLogging old.1 → new.2 = old.2) ∧
    (isLogging old.1 → ∃ zip zip' configPath, unpack old.2 = .ok zip ∧ unpack new.2 = .ok zip' ∧
      ConfigPath old.1 (namelist zip) configPath ∧
      List.Forall₂ (PatchedMember configPath) zip zip')

/-- The same package; a logging package may have other times in it. -/
def SameContents (old new : String × Bytes) : Prop :=
  new.1 = old.1 ∧ (¬ isLogging old.1 → new.2 = old.2) ∧
    (isLogging old.1 → ∃ zip, unpack old.2 = .ok zip ∧ unpack new.2 = .ok zip)

end

@[simp] theorem ok_bind (a : α) (f : α → Except Error β) : Except.ok a >>= f = f a := rfl

theorem read_mem {zip : Archive} {member : String × Bytes} (hdistinct : (namelist zip).Nodup)
    (hmem : member ∈ zip) : read zip member.1 = .ok member.2 := by
  have hfind : ∃ found, zip.reverse.find? (·.1 = member.1) = some found := by
    rw [← Option.isSome_iff_exists, List.find?_isSome]
    exact ⟨member, List.mem_reverse.mpr hmem, by simp⟩
  obtain ⟨found, hfind⟩ := hfind
  have hname : found.1 = member.1 := by simpa using List.find?_some hfind
  have hfound : found ∈ zip := List.mem_reverse.mp (List.mem_of_find?_eq_some hfind)
  have hsame : found = member := List.inj_on_of_nodup_map hdistinct hfound hmem hname
  rw [read, hfind, hsame]

def replaced (replacements : Replacements) (member : String × Bytes) : String × Bytes :=
  (member.1, ((replacements.lookup member.1).join).getD member.2)

theorem newMembers_eq {zip todo : Archive} {replacements : Replacements}
    (hdistinct : (namelist zip).Nodup) (hkept : ∀ name, replacements.lookup name ≠ some none)
    (htodo : ∀ member ∈ todo, member ∈ zip) :
    newMembers zip replacements (namelist todo) = .ok (todo.map (replaced replacements)) := by
  induction todo with
  | nil => rfl
  | cons member todo ih =>
    obtain ⟨hmember, htodo⟩ := List.forall_mem_cons.mp htodo
    have hrest := ih htodo
    simp only [namelist, List.map_cons, newMembers] at hrest ⊢
    cases hlookup : replacements.lookup member.1 with
    | none =>
      rw [read_mem hdistinct hmember, hrest]
      simp [replaced, hlookup, pure, Except.pure]
    | some data =>
      cases data with
      | none => exact absurd hlookup (hkept member.1)
      | some data =>
        rw [hrest]
        simp [replaced, hlookup, pure, Except.pure]

variable {Time : Type} {unpack : Bytes → Except Error Archive} {pack : Time → Archive → Bytes}

theorem genNewZip_eq {zip : Archive} {replacements : Replacements} (time : Time)
    (hdistinct : (namelist zip).Nodup) (hkept : ∀ name, replacements.lookup name ≠ some none) :
    genNewZipWithReplacement pack time zip replacements =
      .ok (pack time (zip.map (replaced replacements))) := by
  rw [genNewZipWithReplacement, newMembers_eq hdistinct hkept fun _ h => h]
  rfl

-- ---------------------------------------------------------------------------
-- One package
-- ---------------------------------------------------------------------------

theorem ConfigPath.unique (h : ConfigPath fileName names path)
    (h' : ConfigPath fileName names path') : path = path' := by
  cases h with
  | zip hzip hne hdir =>
    cases h' with
    | zip _ _ hdir' =>
      obtain ⟨name, hname⟩ := List.exists_mem_of_ne_nil _ hne
      rw [← hdir name hname, hdir' name hname]
    | whl hwhl =>
      rw [hzip] at hwhl
      exact absurd hwhl (by decide)
  | whl hwhl =>
    cases h' with
    | zip hzip _ _ =>
      rw [hzip] at hwhl
      exact absurd hwhl (by decide)
    | whl _ => rfl

theorem getNewConfigAndPath_eq {zip : Archive}
    (hpath : ConfigPath fileName (namelist zip) configPath)
    (hread : read zip configPath = .ok data) :
    getNewConfigAndPath fileName zip = .ok (replace infoLevel debugLevel data, configPath) := by
  cases hpath with
  | @zip dir hzip hne hdir =>
    have hdirs : ((namelist zip).map topDir).dedup = [dir] := by
      have hmap : (namelist zip).map topDir = List.replicate (namelist zip).length dir :=
        List.eq_replicate_iff.mpr ⟨List.length_map .., List.forall_mem_map.mpr hdir⟩
      rw [hmap, List.replicate_dedup (List.length_pos_iff.mpr hne).ne']
    rw [getNewConfigAndPath, hdirs, if_pos hzip]
    simp [pure, Except.pure, hread]
  | whl hwhl =>
    rw [getNewConfigAndPath, hwhl, if_neg (by decide), if_pos rfl]
    simp [pure, Except.pure, hread]

def debugMember (configPath : String) (member : String × Bytes) : String × Bytes :=
  if member.1 = configPath then (member.1, replace infoLevel debugLevel member.2) else member

theorem debugMember_fst (configPath : String) (member : String × Bytes) :
    (debugMember configPath member).1 = member.1 := by
  rw [debugMember]
  split <;> rfl

theorem namelist_debug (configPath : String) (zip : Archive) :
    namelist (zip.map (debugMember configPath)) = namelist zip := by
  rw [namelist, List.map_map]
  exact List.map_congr_left fun member _ => debugMember_fst configPath member

def configReplacement (config : String × Bytes) : Replacements :=
  [(config.1, some (replace infoLevel debugLevel config.2))]

theorem lookup_configReplacement (config : String × Bytes) (name : String) :
    (configReplacement config).lookup name ≠ some none := by
  rw [configReplacement, List.lookup_cons]
  split <;> simp

theorem replaced_config {zip : Archive} (hdistinct : (namelist zip).Nodup) (hconfig : config ∈ zip)
    (hmember : member ∈ zip) :
    replaced (configReplacement config) member = debugMember config.1 member := by
  rw [replaced, configReplacement, debugMember]
  by_cases hname : member.1 = config.1
  · have hsame : member = config := List.inj_on_of_nodup_map hdistinct hmember hconfig hname
    simp [hsame]
  · simp [hname, List.lookup_cons, beq_false_of_ne hname]

theorem newLogging_eq {deps zip : Archive} {package : String × Bytes} (clock : Clock Time)
    (hpackage : LoggingPackage unpack package.1 package.2 zip configPath)
    (hdistinct : (namelist deps).Nodup) (hmem : package ∈ deps) :
    newLogging unpack pack clock deps package.1 =
      .ok (pack (clock.package package.1) (zip.map (debugMember configPath))) := by
  obtain ⟨config, hconfig, rfl⟩ := List.mem_map.mp hpackage.mem
  have hread : read zip config.1 = .ok config.2 := read_mem hpackage.distinct hconfig
  have hmembers : zip.map (replaced (configReplacement config)) =
      zip.map (debugMember config.1) :=
    List.map_congr_left fun member => replaced_config hpackage.distinct hconfig
  rw [newLogging, read_mem hdistinct hmem, ok_bind, hpackage.unpacked, ok_bind,
    getNewConfigAndPath_eq hpackage.path hread, ok_bind, ← hmembers]
  exact genNewZip_eq _ hpackage.distinct (lookup_configReplacement config)

-- ---------------------------------------------------------------------------
-- All packages
-- ---------------------------------------------------------------------------

variable (pack) in
theorem packageReplacements_ok {deps todo : Archive} (clock : Clock Time)
    (hfile : Wellformed unpack file deps) (htodo : todo.Sublist deps)
    (replacements : Replacements) :
    ∃ replacements', packageReplacements unpack pack clock deps (namelist todo) replacements =
        .ok replacements' ∧
      (∀ member ∈ todo, isLogging member.1 → ∃ zip configPath,
        LoggingPackage unpack member.1 member.2 zip configPath ∧
        replacements'.lookup member.1 =
          some (some (pack (clock.package member.1) (zip.map (debugMember configPath))))) ∧
      ∀ name, ¬ (name ∈ namelist todo ∧ isLogging name) →
        replacements'.lookup name = replacements.lookup name := by
  induction todo generalizing replacements with
  | nil => exact ⟨replacements, rfl, by simp, fun _ _ => rfl⟩
  | cons member todo ih =>
    have hmember : member ∈ deps := htodo.subset List.mem_cons_self
    have hnew : member.1 ∉ namelist todo :=
      (List.nodup_cons.mp (hfile.distinct.sublist (htodo.map _))).1
    have hrest : todo.Sublist deps := List.sublist_of_cons_sublist htodo
    rw [namelist, List.map_cons, packageReplacements, ← namelist]
    by_cases hlogging : isLogging member.1
    · obtain ⟨zip, configPath, hpackage⟩ := hfile.logging member hmember hlogging
      rw [if_pos hlogging, newLogging_eq clock hpackage hfile.distinct hmember, ok_bind]
      obtain ⟨replacements', hrun, hset, hkept⟩ := ih hrest
        ((member.1, some (pack (clock.package member.1) (zip.map (debugMember configPath)))) ::
          replacements)
      refine ⟨replacements', hrun, ?_, fun name hname => ?_⟩
      · refine List.forall_mem_cons.mpr ⟨fun _ => ⟨zip, configPath, hpackage, ?_⟩, hset⟩
        rw [hkept member.1 fun h => hnew h.1, List.lookup_cons_self]
      · have hne : name ≠ member.1 := by
          rintro rfl
          exact hname ⟨List.mem_cons_self, hlogging⟩
        rw [hkept name fun h => hname ⟨List.mem_cons_of_mem _ h.1, h.2⟩, List.lookup_cons,
          beq_false_of_ne hne]
    · rw [if_neg hlogging]
      obtain ⟨replacements', hrun, hset, hkept⟩ := ih hrest replacements
      refine ⟨replacements', hrun, List.forall_mem_cons.mpr ⟨fun h => absurd h hlogging, hset⟩,
        fun name hname => hkept name fun h => hname ⟨List.mem_cons_of_mem _ h.1, h.2⟩⟩

structure Rebuilt (unpack : Bytes → Except Error Archive) (pack : Time → Archive → Bytes)
    (clock : Clock Time) (old new : String × Bytes) : Prop where
  name : new.1 = old.1
  other : ¬ isLogging old.1 → new.2 = old.2
  logging : isLogging old.1 → ∃ zip configPath,
    LoggingPackage unpack old.1 old.2 zip configPath ∧
    new.2 = pack (clock.package old.1) (zip.map (debugMember configPath))

variable (pack) in
theorem patchDependencies_rebuilt (clock : Clock Time) (hfile : Wellformed unpack file deps) :
    ∃ f, patchDependencies unpack pack clock file = .ok (pack clock.dependencies (deps.map f)) ∧
      ∀ member ∈ deps, Rebuilt unpack pack clock member (f member) := by
  obtain ⟨replacements, hrun, hset, hkept⟩ :=
    packageReplacements_ok pack clock hfile (List.Sublist.refl _) []
  have hnone (name : String) : replacements.lookup name ≠ some none := by
    by_cases hname : name ∈ namelist deps ∧ isLogging name
    · obtain ⟨member, hmember, rfl⟩ := List.mem_map.mp hname.1
      obtain ⟨zip, configPath, -, hlookup⟩ := hset member hmember hname.2
      simp [hlookup]
    · simp [hkept name hname]
  refine ⟨replaced replacements, ?_,
    fun member hmember => ⟨rfl, fun hother => ?_, fun hlogging => ?_⟩⟩
  · rw [patchDependencies, hfile.unpacked, ok_bind, hrun, ok_bind,
      genNewZip_eq _ hfile.distinct hnone]
  · rw [replaced, hkept member.1 fun h => hother h.2]
    rfl
  · obtain ⟨zip, configPath, hpackage, hlookup⟩ := hset member hmember hlogging
    refine ⟨zip, configPath, hpackage, ?_⟩
    rw [replaced, hlookup]
    rfl

theorem apart_levels : Apart infoLevel debugLevel where
  not_in := by decide +kernel
  not_around := by decide +kernel
  not_into part hsuffix hprefix := by
    have hparts : ∀ part ∈ debugLevel.tails, part <+: infoLevel → part = [] := by decide +kernel
    exact hparts part ((List.mem_tails ..).mpr hsuffix) hprefix
  not_out part hsuffix hprefix := by
    have hparts : ∀ part ∈ infoLevel.tails, part <+: debugLevel → part = [] := by decide +kernel
    exact hparts part ((List.mem_tails ..).mpr hsuffix) hprefix

theorem debugged_replace (data : Bytes) : Debugged data (replace infoLevel debugLevel data) := by
  obtain ⟨pieces, -, hold, hnew, hfree⟩ :=
    Replace.replace_pieces apart_levels.ne_nil debugLevel data
  exact ⟨apart_levels.not_infix_replace data, pieces, hold, hnew, hfree⟩

theorem debugMember_patched (configPath : String) (member : String × Bytes) :
    PatchedMember configPath member (debugMember configPath member) := by
  refine ⟨debugMember_fst configPath member, fun hne => ?_, fun heq => ?_⟩
  · rw [debugMember, if_neg hne]
  · rw [debugMember, if_pos heq]
    exact debugged_replace member.2

theorem debugMember_debugMember (configPath : String) (member : String × Bytes) :
    debugMember configPath (debugMember configPath member) = debugMember configPath member := by
  by_cases hname : member.1 = configPath
  · simp [debugMember, hname, Replace.replace_replace apart_levels]
  · simp [debugMember, hname]

-- ---------------------------------------------------------------------------
-- Two runs
-- ---------------------------------------------------------------------------

theorem LoggingPackage.debug (hzip : Faithful unpack pack) (time : Time)
    (h : LoggingPackage unpack fileName data zip configPath) :
    LoggingPackage unpack fileName (pack time (zip.map (debugMember configPath)))
      (zip.map (debugMember configPath)) configPath := by
  have hnames := namelist_debug configPath zip
  exact ⟨hzip.unpack_pack time h.unpacked hnames (hnames ▸ h.distinct), hnames ▸ h.distinct,
    hnames ▸ h.path, hnames ▸ h.mem⟩

theorem Rebuilt.patched (hzip : Faithful unpack pack) (h : Rebuilt unpack pack clock old new) :
    Patched unpack old new := by
  refine ⟨h.name, h.other, fun hlogging => ?_⟩
  obtain ⟨zip, configPath, hpackage, hnew⟩ := h.logging hlogging
  refine ⟨zip, _, configPath, hpackage.unpacked, hnew ▸ (hpackage.debug hzip _).unpacked,
    hpackage.path, ?_⟩
  rw [List.forall₂_map_right_iff, List.forall₂_same]
  exact fun member _ => debugMember_patched configPath member

theorem Rebuilt.again (hzip : Faithful unpack pack) (h : Rebuilt unpack pack clock old new)
    (h' : Rebuilt unpack pack clock' new newer) :
    SameContents unpack new newer ∧ (clock' = clock → newer = new) := by
  by_cases hlogging : isLogging old.1
  · obtain ⟨zip, configPath, hpackage, hnew⟩ := h.logging hlogging
    have hdebug := hpackage.debug hzip (clock.package old.1)
    obtain ⟨zip', configPath', hpackage', hnewer⟩ := h'.logging (h.name ▸ hlogging)
    -- the second run reads what the first has written
    obtain rfl : zip.map (debugMember configPath) = zip' := by
      have hread := hpackage'.unpacked
      rw [hnew, hdebug.unpacked] at hread
      exact Except.ok.inj hread
    obtain rfl : configPath = configPath' := hdebug.path.unique (h.name ▸ hpackage'.path)
    have hstays : (zip.map (debugMember configPath)).map (debugMember configPath) =
        zip.map (debugMember configPath) := by
      rw [List.map_map]
      exact List.map_congr_left fun member _ => debugMember_debugMember configPath member
    rw [hstays, h.name] at hnewer
    refine ⟨⟨h'.name, fun hother => absurd (h.name ▸ hlogging) hother, fun _ =>
      ⟨_, hnew ▸ hdebug.unpacked, ?_⟩⟩, ?_⟩
    · rw [hnewer]
      exact (hpackage.debug hzip _).unpacked
    · rintro rfl
      exact Prod.ext h'.name (hnewer.trans hnew.symm)
  · have hother : ¬ isLogging new.1 := h.name ▸ hlogging
    exact ⟨⟨h'.name, h'.other, fun h => absurd h hother⟩,
      fun _ => Prod.ext h'.name (h'.other hother)⟩

theorem Wellformed.rebuilt (hzip : Faithful unpack pack) (hfile : Wellformed unpack file deps)
    {f : String × Bytes → String × Bytes}
    (h : ∀ member ∈ deps, Rebuilt unpack pack clock member (f member)) :
    Wellformed unpack (pack clock.dependencies (deps.map f)) (deps.map f) := by
  have hnames : namelist (deps.map f) = namelist deps := by
    rw [namelist, List.map_map]
    exact List.map_congr_left fun member hmember => (h member hmember).name
  have hdistinct : (namelist (deps.map f)).Nodup := hnames ▸ hfile.distinct
  refine ⟨hzip.unpack_pack _ hfile.unpacked hnames hdistinct, hdistinct,
    List.forall_mem_map.mpr fun member hmember hlogging => ?_⟩
  have hrebuilt := h member hmember
  rw [hrebuilt.name] at hlogging ⊢
  obtain ⟨zip, configPath, hpackage, hnew⟩ := hrebuilt.logging hlogging
  exact ⟨_, configPath, hnew ▸ hpackage.debug hzip _⟩

/-- A run keeps the packages but for the level in the settings of the logging
packages, and a second run, at any time, changes no contents. -/
theorem patchDependencies_twice (hzip : Faithful unpack pack) (hfile : Wellformed unpack file deps)
    (clock clock' : Clock Time) :
    ∃ file' deps' file'' deps'',
      patchDependencies unpack pack clock file = .ok file' ∧ unpack file' = .ok deps' ∧
      List.Forall₂ (Patched unpack) deps deps' ∧
      patchDependencies unpack pack clock' file' = .ok file'' ∧ unpack file'' = .ok deps'' ∧
      List.Forall₂ (SameContents unpack) deps' deps'' ∧ (clock' = clock → file'' = file') := by
  obtain ⟨f, hrun, hrebuilt⟩ := patchDependencies_rebuilt pack clock hfile
  have hfile' := hfile.rebuilt hzip hrebuilt
  obtain ⟨g, hrun', hrebuilt'⟩ := patchDependencies_rebuilt pack clock' hfile'
  have hfile'' := hfile'.rebuilt hzip hrebuilt'
  have hagain : ∀ member ∈ deps.map f,
      SameContents unpack member (g member) ∧ (clock' = clock → g member = member) := by
    refine List.forall_mem_map.mpr fun member hmember => ?_
    exact (hrebuilt member hmember).again hzip (hrebuilt' _ (List.mem_map_of_mem hmember))
  refine ⟨_, _, _, _, hrun, hfile'.unpacked, ?_, hrun', hfile''.unpacked, ?_, ?_⟩
  · rw [List.forall₂_map_right_iff, List.forall₂_same]
    exact fun member hmember => (hrebuilt member hmember).patched hzip
  · rw [List.forall₂_map_right_iff, List.forall₂_same]
    exact fun member hmember => (hagain member hmember).1
  · intro hclock
    rw [hclock, List.map_congr_left fun member hmember => (hagain member hmember).2 hclock,
      List.map_id']

-- ---------------------------------------------------------------------------
-- A format that stores its members
-- ---------------------------------------------------------------------------

def stored : Bytes → Bytes
  | [] => [0]
  | b :: data => 1 :: b :: stored data

def storedTexts : Bytes → List Bytes
  | [] => []
  | [_] => [[]]
  | mark :: b :: rest =>
    if mark = 0 then [] :: storedTexts (b :: rest)
    else
      match storedTexts rest with
      | [] => [[b]]
      | text :: texts => (b :: text) :: texts

theorem storedTexts_stored (data rest : Bytes) :
    storedTexts (stored data ++ rest) = data :: storedTexts rest := by
  induction data with
  | nil => cases rest <;> simp [stored, storedTexts]
  | cons b data ih => simp [stored, storedTexts, ih]

def storedMembers : List Bytes → Except Error Archive
  | [] => pure []
  | [_] => throw (.badZipFile "Truncated file header")
  | name :: data :: rest =>
    match String.fromUTF8? (ByteArray.mk name.toArray) with
    | none => throw (.badZipFile "Bad magic number for file header")
    | some name => do
      let members ← storedMembers rest
      pure ((name, data) :: members)

def storedPack (time : UInt8) (zip : Archive) : Bytes :=
  time :: zip.flatMap fun member => stored member.1.toByteArray.data.toList ++ stored member.2

def storedUnpack : Bytes → Except Error Archive
  | [] => throw (.badZipFile "File is not a zip file")
  | _ :: texts => storedMembers (storedTexts texts)

theorem storedUnpack_pack (time : UInt8) (zip : Archive) :
    storedUnpack (storedPack time zip) = .ok zip := by
  rw [storedPack, storedUnpack]
  induction zip with
  | nil => rfl
  | cons member zip ih =>
    have hname : String.fromUTF8? (ByteArray.mk member.1.toByteArray.data.toList.toArray) =
        some member.1 := by
      simp only [Array.toArray_toList, String.fromUTF8?]
      exact dif_pos member.1.isValidUTF8
    rw [List.flatMap_cons, List.append_assoc, storedTexts_stored, storedTexts_stored,
      storedMembers, hname]
    simp [ih, pure, Except.pure]

theorem stored_faithful : Faithful storedUnpack storedPack :=
  ⟨fun time _ _ _ => storedUnpack_pack time _⟩

def aLoggingZip : Archive :=
  [("cloudshell-logging-1.0.1/setup.py", bytes "setup()"),
    ("cloudshell-logging-1.0.1/cloudshell/logging/qs_config.ini",
      bytes "[Logging]\nLOG_LEVEL='INFO'\nLOG_PATH='logs'\n")]

def someDependencies : Archive :=
  [("cloudshell-core-2.4.1.zip", bytes "core"),
    ("cloudshell-logging-1.0.1.zip", storedPack 7 aLoggingZip)]

theorem aLoggingZip_package :
    LoggingPackage storedUnpack "cloudshell-logging-1.0.1.zip" (storedPack 7 aLoggingZip)
      aLoggingZip ("cloudshell-logging-1.0.1" ++ "/cloudshell/logging/qs_config.ini") where
  unpacked := storedUnpack_pack 7 aLoggingZip
  distinct := by decide +kernel
  path := .zip (by decide +kernel) (by decide +kernel) (by decide +kernel)
  mem := by decide +kernel

theorem someDependencies_wellformed :
    Wellformed storedUnpack (storedPack 7 someDependencies) someDependencies where
  unpacked := storedUnpack_pack 7 someDependencies
  distinct := by decide +kernel
  logging := by
    intro member hmember hlogging
    rcases List.mem_cons.mp hmember with rfl | hmember
    · exact absurd hlogging (by decide +kernel)
    · obtain rfl := List.mem_singleton.mp hmember
      exact ⟨aLoggingZip, _, aLoggingZip_package⟩

theorem patchDependencies_twice_stored :
    ∃ file' deps' file'' deps'',
      patchDependencies storedUnpack storedPack ⟨fun _ => 8, 9⟩ (storedPack 7 someDependencies) =
        .ok file' ∧ storedUnpack file' = .ok deps' ∧
      List.Forall₂ (Patched storedUnpack) someDependencies deps' ∧
      patchDependencies storedUnpack storedPack ⟨fun _ => 10, 11⟩ file' = .ok file'' ∧
      storedUnpack file'' = .ok deps'' ∧
      List.Forall₂ (SameContents storedUnpack) deps' deps'' ∧
      ((⟨fun _ => 10, 11⟩ : Clock UInt8) = ⟨fun _ => 8, 9⟩ → file'' = file') :=
  patchDependencies_twice stored_faithful someDependencies_wellformed _ _

end ShellTests.Dependencies
