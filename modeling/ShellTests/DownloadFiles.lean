import Mathlib.Data.List.Forall2
import Mathlib.Data.List.Induction
import Mathlib.Logic.Function.Basic

/-!
# Downloading the files of the shell confs

A path of a `ShellConfig` that is a URL is downloaded while the config is
validated, to a file of one directory that has the last component of the
URL's path for its name. Paths are those of a POSIX system.
-/

namespace ShellTests.DownloadFiles

structure ParseResult where
  scheme : String
  netloc : String
  path : String
  deriving DecidableEq, Repr

def isSchemeChar (c : Char) : Bool := c.isAlphanum || c = '+' || c = '-' || c = '.'

def splitScheme (url : List Char) : List Char × List Char :=
  let before := url.takeWhile (· ≠ ':')
  let after := url.dropWhile (· ≠ ':')
  match before, after with
  | c :: _, _ :: rest =>
    if c.isAlpha && before.all isSchemeChar then (before.map Char.toLower, rest) else ([], url)
  | _, _ => ([], url)

def splitNetloc (url : List Char) : List Char × List Char :=
  match url with
  | '/' :: '/' :: rest =>
    let isDelim (c : Char) : Bool := c = '/' || c = '?' || c = '#'
    (rest.takeWhile (!isDelim ·), rest.dropWhile (!isDelim ·))
  | _ => ([], url)

/-- `uses_params`: the schemes whose paths are cut at a `;`. -/
def usesParams : List String :=
  ["", "ftp", "hdl", "prospero", "http", "https", "shttp", "rtsp", "rtsps", "sip", "sips", "mms",
    "sftp", "tel"]

/-- What `_splitparams` leaves of a path: the last component ends at its `;`. -/
def withoutParams (path : List Char) : List Char :=
  let last := (path.reverse.takeWhile (· ≠ '/')).reverse
  path.take (path.length - last.length) ++ last.takeWhile (· ≠ ';')

-- the checks of a netloc, with the text of the `ValueError`
variable (checkNetloc : String → Except String Unit)

def urlparse (url : String) : Except String ParseResult := do
  let url := url.toList.dropWhile fun c => c.toNat ≤ 0x20
  let url := url.filter fun c => c ≠ '\t' ∧ c ≠ '\r' ∧ c ≠ '\n'
  let (scheme, url) := splitScheme url
  let (netloc, url) := splitNetloc url
  checkNetloc (String.ofList netloc)
  let path := (url.takeWhile (· ≠ '#')).takeWhile (· ≠ '?')
  let scheme := String.ofList scheme
  let path := if scheme ∈ usesParams then withoutParams path else path
  pure { scheme, netloc := String.ofList netloc, path := String.ofList path }

/-- `Path(path).name` -/
def pathName (path : String) : String :=
  let parts := (path.toList.splitOn '/').filter fun part => part ≠ [] ∧ part ≠ ['.']
  String.ofList (parts.getLast?.getD [])

def getFileName (url : String) : Except String String := do
  let parsed ← urlparse checkNetloc url
  pure (pathName parsed.path)

/-- `DownloadFile._is_url` -/
def isUrl (url : String) : Except String Bool := do
  let parsed ← urlparse checkNetloc url
  pure (parsed.scheme ∈ ["http", "https", "ftp", "ftps", "tftp"])

-- ---------------------------------------------------------------------------
-- Downloads
-- ---------------------------------------------------------------------------

abbrev Files (α : Type) := String → Option α

/-- `self.tmp_dir / name` -/
def inTmpDir (tmpDir name : String) : String := if name = "" then tmpDir else tmpDir ++ "/" ++ name

variable {α : Type} (tmpDir : String) (serve : String → α)

/-- `DownloadFile(path).path`, with a download that succeeds. -/
def downloadFile (path : String) (files : Files α) : Except String String × Files α :=
  match isUrl checkNetloc path, getFileName checkNetloc path with
  | .error e, _ => (.error e, files)
  | .ok false, _ => (.ok path, files)
  | .ok true, .error e => (.error e, files)
  | .ok true, .ok name =>
    let target := inTmpDir tmpDir name
    (.ok target, Function.update files target (some (serve path)))

/-- The validator on each item of a field, in turn. -/
def downloadEach : List String → Files α → List (Except String String) × Files α
  | [], files => ([], files)
  | path :: paths, files =>
    let (r, files) := downloadFile checkNetloc tmpDir serve path files
    let (rs, files) := downloadEach paths files
    (r :: rs, files)

structure ShellConfig where
  name : String
  path : String
  dependenciesPath : Option String := none
  extraStandardsPaths : List String := []
  deriving DecidableEq, Repr

/-- The fields that `_download_file` validates, in their order. -/
def ShellConfig.paths (conf : ShellConfig) : List String :=
  conf.path :: conf.dependenciesPath.toList ++ conf.extraStandardsPaths

/-- One shell conf: the fields after a bad one are validated too. -/
def validateShell (doc : ShellConfig) (files : Files α) : Except String ShellConfig × Files α :=
  let (path, files) := downloadFile checkNetloc tmpDir serve doc.path files
  let (dependenciesPath, files) :=
    downloadEach checkNetloc tmpDir serve doc.dependenciesPath.toList files
  let (extraStandardsPaths, files) :=
    downloadEach checkNetloc tmpDir serve doc.extraStandardsPaths files
  let conf := do
    pure { name := doc.name
           path := ← path
           dependenciesPath := (← dependenciesPath.mapM id).head?
           extraStandardsPaths := ← extraStandardsPaths.mapM id : ShellConfig }
  (conf, files)

def validateShells : List ShellConfig → Files α → Except String (List ShellConfig) × Files α
  | [], files => (.ok [], files)
  | doc :: docs, files =>
    let (conf, files) := validateShell checkNetloc tmpDir serve doc files
    let (confs, files) := validateShells docs files
    (do pure ((← conf) :: (← confs)), files)

example : getFileName (fun _ => .ok ()) "https://host/v1/shell.zip?raw=true" = .ok "shell.zip" := by
  decide +kernel

-- ---------------------------------------------------------------------------
-- Where the files end
-- ---------------------------------------------------------------------------

variable {checkNetloc : String → Except String Unit} {tmpDir : String} {serve : String → α}

/-- A path in a validated field is a URL, downloaded under this name. -/
def IsUrl (checkNetloc : String → Except String Unit) (path name : String) : Prop :=
  isUrl checkNetloc path = .ok true ∧ getFileName checkNetloc path = .ok name

/-- What validation makes of a path. -/
inductive Lands (checkNetloc : String → Except String Unit) (tmpDir : String) :
    String → String → Prop
  | stays : isUrl checkNetloc path = .ok false → Lands checkNetloc tmpDir path path
  | downloads : IsUrl checkNetloc path name →
      Lands checkNetloc tmpDir path (inTmpDir tmpDir name)

def downloaded (checkNetloc : String → Except String Unit) (tmpDir : String) (serve : String → α)
    (paths : List String) (files : Files α) : Files α :=
  paths.foldl (fun files path => (downloadFile checkNetloc tmpDir serve path files).2) files

theorem downloadFile_ok {files : Files α}
    (h : (downloadFile checkNetloc tmpDir serve path files).1 = .ok target) :
    Lands checkNetloc tmpDir path target := by
  unfold downloadFile at h
  split at h
  · cases h
  · rename_i hurl
    obtain rfl := Except.ok.inj h
    exact .stays hurl
  · cases h
  · rename_i hurl hname
    obtain rfl := Except.ok.inj h
    exact .downloads ⟨hurl, hname⟩

theorem downloadFile_url {files : Files α} (h : IsUrl checkNetloc path name) :
    (downloadFile checkNetloc tmpDir serve path files).2 =
      Function.update files (inTmpDir tmpDir name) (some (serve path)) := by
  simp only [downloadFile, h.1, h.2]

theorem mapM_id_ok {rs : List (Except String String)} {l : List String} (h : rs.mapM id = .ok l) :
    rs = l.map .ok := by
  induction rs generalizing l with
  | nil => simpa [pure, Except.pure, eq_comm] using h
  | cons r rs ih =>
    rw [List.mapM_cons] at h
    cases r with
    | error e => cases h
    | ok a =>
      cases hrs : rs.mapM id with
      | error e => simp [hrs, bind, Except.bind] at h
      | ok l' =>
        obtain rfl : a :: l' = l := by simpa [hrs, bind, Except.bind, pure, Except.pure] using h
        rw [ih hrs]
        rfl

theorem downloadEach_snd (paths : List String) (files : Files α) :
    (downloadEach checkNetloc tmpDir serve paths files).2 =
      downloaded checkNetloc tmpDir serve paths files := by
  induction paths generalizing files with
  | nil => rfl
  | cons path paths ih => exact ih _

theorem downloadEach_ok {paths targets : List String} {files : Files α}
    (h : (downloadEach checkNetloc tmpDir serve paths files).1.mapM id = .ok targets) :
    List.Forall₂ (Lands checkNetloc tmpDir) paths targets := by
  replace h := mapM_id_ok h
  induction paths generalizing files targets with
  | nil =>
    obtain rfl : targets = [] := by simpa [downloadEach] using h
    exact .nil
  | cons path paths ih =>
    cases targets with
    | nil => cases h
    | cons target targets =>
      obtain ⟨hhead, htail⟩ := List.cons.inj h
      exact .cons (downloadFile_ok hhead) (ih htail)

theorem validateShell_snd (doc : ShellConfig) (files : Files α) :
    (validateShell checkNetloc tmpDir serve doc files).2 =
      downloaded checkNetloc tmpDir serve doc.paths files := by
  simp only [validateShell, downloadEach_snd]
  simp [downloaded, ShellConfig.paths, List.foldl_append]

theorem bind_ok {x : Except ε β} {f : β → Except ε γ} :
    x >>= f = .ok b ↔ ∃ a, x = .ok a ∧ f a = .ok b := by
  cases x <;> simp [bind, Except.bind]

theorem toList_head? {P : String → String → Prop} {path? : Option String} {targets : List String}
    (h : List.Forall₂ P path?.toList targets) : targets.head?.toList = targets := by
  cases path? with
  | none =>
    cases h
    rfl
  | some path =>
    obtain ⟨target, rest, -, hrest, rfl⟩ := List.forall₂_cons_left_iff.mp h
    cases hrest
    rfl

theorem validateShell_ok {doc conf : ShellConfig} {files : Files α}
    (h : (validateShell checkNetloc tmpDir serve doc files).1 = .ok conf) :
    List.Forall₂ (Lands checkNetloc tmpDir) doc.paths conf.paths := by
  simp only [validateShell, bind_ok, pure, Except.pure, Except.ok.injEq] at h
  obtain ⟨path, hpath, dependencies, hdependencies, standards, hstandards, rfl⟩ := h
  have hdeps := downloadEach_ok hdependencies
  refine .cons (downloadFile_ok hpath) (List.rel_append ?_ (downloadEach_ok hstandards))
  simpa [toList_head? hdeps] using hdeps

theorem validateShells_ok {docs confs : List ShellConfig} {files files' : Files α}
    (h : validateShells checkNetloc tmpDir serve docs files = (.ok confs, files')) :
    List.Forall₂ (Lands checkNetloc tmpDir) (docs.flatMap (·.paths)) (confs.flatMap (·.paths)) ∧
      files' = downloaded checkNetloc tmpDir serve (docs.flatMap (·.paths)) files := by
  induction docs generalizing files confs with
  | nil =>
    obtain ⟨hconfs, rfl⟩ := Prod.mk.inj h
    obtain rfl := Except.ok.inj hconfs
    exact ⟨.nil, rfl⟩
  | cons doc docs ih =>
    simp only [validateShells, Prod.mk.injEq, bind_ok, pure, Except.pure, Except.ok.injEq] at h
    obtain ⟨⟨conf, hconf, rest, hrest, rfl⟩, rfl⟩ := h
    obtain ⟨hlands, hfiles⟩ := ih (Prod.ext hrest rfl)
    refine ⟨List.rel_append (validateShell_ok hconf) hlands, ?_⟩
    rw [hfiles, validateShell_snd, List.flatMap_cons, downloaded, downloaded, downloaded,
      List.foldl_append]

theorem inTmpDir_inj {a b : String} : inTmpDir tmpDir a = inTmpDir tmpDir b ↔ a = b := by
  refine ⟨fun h => ?_, fun h => h ▸ rfl⟩
  replace h := congrArg String.toList h
  unfold inTmpDir at h
  by_cases ha : a = "" <;> by_cases hb : b = "" <;> simp_all [String.toList_append]
  exact String.toList_inj.mp h

theorem IsUrl.unique (h : IsUrl checkNetloc path name) (h' : IsUrl checkNetloc path name') :
    name = name' := Except.ok.inj (h.2.symm.trans h'.2)

theorem downloaded_holds {paths : List String} {path name : String}
    (hlands : ∀ p ∈ paths, ∃ target, Lands checkNetloc tmpDir p target) (hmem : path ∈ paths)
    (h : IsUrl checkNetloc path name) (files : Files α) :
    ∃ last ∈ paths, IsUrl checkNetloc last name ∧
      downloaded checkNetloc tmpDir serve paths files (inTmpDir tmpDir name) =
        some (serve last) := by
  induction paths using List.reverseRecOn with
  | nil => cases hmem
  | append_singleton paths p ih =>
    obtain ⟨target, hp⟩ := hlands p (by simp)
    specialize ih fun q hq => hlands q (by simp [hq])
    have hsnd : downloaded checkNetloc tmpDir serve (paths ++ [p]) files =
        (downloadFile checkNetloc tmpDir serve p
          (downloaded checkNetloc tmpDir serve paths files)).2 := by
      simp [downloaded, List.foldl_append]
    rw [hsnd]
    cases hp with
    | stays hno =>
      have hne : path ≠ p := by
        rintro rfl
        rw [h.1] at hno
        cases hno
      obtain ⟨last, hlast, hurl, hholds⟩ := ih (by simpa [hne] using hmem)
      refine ⟨last, by simp [hlast], hurl, ?_⟩
      have hkeep : (downloadFile checkNetloc tmpDir serve p
          (downloaded checkNetloc tmpDir serve paths files)).2 =
          downloaded checkNetloc tmpDir serve paths files := by
        unfold downloadFile
        rw [hno]
      rw [hkeep, hholds]
    | @downloads name' hp =>
      rw [downloadFile_url hp]
      by_cases hname : name' = name
      · subst hname
        exact ⟨p, by simp, hp, by simp⟩
      · have hne : path ≠ p := by
          rintro rfl
          exact hname (hp.unique h)
        obtain ⟨last, hlast, hurl, hholds⟩ := ih (by simpa [hne] using hmem)
        refine ⟨last, by simp [hlast], hurl, ?_⟩
        rw [Function.update_of_ne (mt inTmpDir_inj.mp (Ne.symm hname)), hholds]

/-- Every field that is a URL has its own content, in a file of its own. -/
structure Kept (checkNetloc : String → Except String Unit) (serve : String → α)
    (fields : List (String × String)) (files : Files α) : Prop where
  holds : ∀ f ∈ fields, isUrl checkNetloc f.1 = .ok true → files f.2 = some (serve f.1)
  apart : ∀ f ∈ fields, ∀ g ∈ fields, isUrl checkNetloc f.1 = .ok true →
    isUrl checkNetloc g.1 = .ok true → f.1 ≠ g.1 → f.2 ≠ g.2

def NamesApart (checkNetloc : String → Except String Unit) (paths : List String) : Prop :=
  ∀ p ∈ paths, ∀ q ∈ paths, isUrl checkNetloc p = .ok true → isUrl checkNetloc q = .ok true →
    p ≠ q → getFileName checkNetloc p ≠ getFileName checkNetloc q

def fields (docs confs : List ShellConfig) : List (String × String) :=
  (docs.flatMap (·.paths)).zip (confs.flatMap (·.paths))

theorem exists_mem_zip {P : String → String → Prop} (h : List.Forall₂ P paths targets)
    (hp : p ∈ paths) : ∃ target, (p, target) ∈ paths.zip targets ∧ P p target := by
  induction h with
  | nil => cases hp
  | @cons q target paths targets hq _ ih =>
    obtain rfl | hp := List.mem_cons.mp hp
    · exact ⟨target, by simp, hq⟩
    · obtain ⟨target', hmem, hp'⟩ := ih hp
      exact ⟨target', by simp [hmem], hp'⟩

theorem Lands.url (h : Lands checkNetloc tmpDir path target)
    (hurl : isUrl checkNetloc path = .ok true) :
    ∃ name, IsUrl checkNetloc path name ∧ target = inTmpDir tmpDir name := by
  cases h with
  | stays hno =>
    rw [hno] at hurl
    cases hurl
  | @downloads name h => exact ⟨name, h, rfl⟩

/-- The files of a config keep their contents exactly when its URLs have names apart. -/
theorem validateShells_keeps (checkNetloc : String → Except String Unit) (tmpDir : String)
    (serve : String → α) (docs confs : List ShellConfig) (files files' : Files α)
    (h : validateShells checkNetloc tmpDir serve docs files = (.ok confs, files')) :
    Kept checkNetloc serve (fields docs confs) files' ↔
      NamesApart checkNetloc (docs.flatMap (·.paths)) := by
  obtain ⟨hlands, rfl⟩ := validateShells_ok h
  unfold fields
  generalize docs.flatMap (·.paths) = paths at *
  generalize confs.flatMap (·.paths) = targets at *
  have hzip {p target} (hmem : (p, target) ∈ paths.zip targets) :
      Lands checkNetloc tmpDir p target := (List.forall₂_iff_zip.mp hlands).2 hmem
  constructor
  · rintro ⟨-, hapart⟩ p hp q hq hpurl hqurl hpq hnames
    obtain ⟨target, hpmem, hpl⟩ := exists_mem_zip hlands hp
    obtain ⟨target', hqmem, hql⟩ := exists_mem_zip hlands hq
    obtain ⟨name, hn, rfl⟩ := hpl.url hpurl
    obtain ⟨name', hn', rfl⟩ := hql.url hqurl
    rw [hn.2, hn'.2, Except.ok.injEq] at hnames
    exact hapart _ hpmem _ hqmem hpurl hqurl hpq (congrArg (inTmpDir tmpDir) hnames)
  · intro hnames
    constructor
    · rintro ⟨p, target⟩ hmem hurl
      obtain ⟨name, hn, rfl⟩ := (hzip hmem).url hurl
      have hp : p ∈ paths := (List.of_mem_zip hmem).1
      have hall (q) (hq : q ∈ paths) : ∃ target, Lands checkNetloc tmpDir q target :=
        (exists_mem_zip hlands hq).imp fun _ hq => hq.2
      obtain ⟨last, hlast, hlurl, hholds⟩ := downloaded_holds hall hp hn files
      -- the last URL of this name is the field's own
      obtain rfl : last = p := by
        by_contra hne
        exact hnames _ hlast _ hp hlurl.1 hn.1 hne (hlurl.2.trans hn.2.symm)
      exact hholds
    · rintro ⟨p, target⟩ hp ⟨q, target'⟩ hq hpurl hqurl hne heq
      obtain ⟨name, hn, rfl⟩ := (hzip hp).url hpurl
      obtain ⟨name', hn', rfl⟩ := (hzip hq).url hqurl
      obtain rfl := inTmpDir_inj.mp heq
      exact hnames p (List.of_mem_zip hp).1 q (List.of_mem_zip hq).1 hpurl hqurl hne
        (hn.2.trans hn'.2.symm)

def downloadedShell : ShellConfig :=
  { name := "shell", path := "https://host/v1/shell.zip"
    dependenciesPath := some "https://host/v1/deps.zip?raw=true" }

theorem validateShells_keeps_both :
    let r := validateShells (fun _ => .ok ()) "/tmp/shell_tests" id [downloadedShell] fun _ => none
    ∃ confs, r.1 = .ok confs ∧ Kept (fun _ => .ok ()) id (fields [downloadedShell] confs) r.2 := by
  have hvalid : (validateShells (fun _ => .ok ()) "/tmp/shell_tests" id [downloadedShell]
      fun _ => none).1 = .ok [{ name := "shell", path := "/tmp/shell_tests/shell.zip"
                                dependenciesPath := some "/tmp/shell_tests/deps.zip" }] := by
    decide +kernel
  refine ⟨_, hvalid, (validateShells_keeps _ _ _ _ _ (fun _ => none) _
    (Prod.ext hvalid rfl)).mpr ?_⟩
  unfold NamesApart
  decide +kernel

def twoVersions : List ShellConfig :=
  [{ name := "first", path := "https://host/v1/shell.zip" },
   { name := "second", path := "https://host/v2/shell.zip"
     dependenciesPath := some "/root/deps.zip" }]

theorem validateShells_overwrites :
    let (r, files) := validateShells (fun _ => .ok ()) "/tmp/shell_tests" id twoVersions
      fun _ => none
    ∃ confs, r = .ok confs ∧
      confs.map (·.path) = ["/tmp/shell_tests/shell.zip", "/tmp/shell_tests/shell.zip"] ∧
      files "/tmp/shell_tests/shell.zip" = some "https://host/v2/shell.zip" ∧
      ¬ Kept (fun _ => .ok ()) id (fields twoVersions confs) files := by
  refine ⟨[{ name := "first", path := "/tmp/shell_tests/shell.zip" },
   { name := "second", path := "/tmp/shell_tests/shell.zip"
     dependenciesPath := some "/root/deps.zip" }], ?_, rfl, ?_, fun h => ?_⟩
  · decide +kernel
  · decide +kernel
  · have hholds := h.holds ("https://host/v1/shell.zip", "/tmp/shell_tests/shell.zip") (by decide)
      (by decide +kernel)
    revert hholds
    decide +kernel

end ShellTests.DownloadFiles
