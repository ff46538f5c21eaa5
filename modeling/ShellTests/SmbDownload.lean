import ShellTests.SmbDirectories

/-!
# Downloading a directory of the share

`download_r_dir` lists a remote directory, and makes the files and directories
that its filter accepts again below a local one. The filter is for the top
level alone; what is below an accepted directory comes with it.
-/

namespace ShellTests.Smb.Download

open Prog

-- ---------------------------------------------------------------------------
-- The remote tree
-- ---------------------------------------------------------------------------

mutual
inductive Node where
  | file : (content : Bytes) → Node
  | dir : Entries → Node
inductive Entries where
  | nil
  | cons : (name : String) → (lastWriteTime : Int) → Node → Entries → Entries
end

/-- A `SharedFile`, with what the code and its filters read. -/
structure SharedFile where
  filename : String
  isDirectory : Bool
  lastWriteTime : Int
  deriving DecidableEq, Repr

def Node.isDirectory : Node → Bool
  | .file _ => false
  | .dir _ => true

/-- What a listing of the directory has, in some order. -/
def Entries.files : Entries → List SharedFile
  | .nil => []
  | .cons name lastWriteTime node rest => ⟨name, node.isDirectory, lastWriteTime⟩ :: rest.files

def Entries.find (name : String) : Entries → Option Node
  | .nil => none
  | .cons name' _ node rest => if name' = name then some node else rest.find name

def Node.resolve : Node → List String → Option Node
  | node, [] => some node
  | .file _, _ :: _ => none
  | .dir entries, name :: names => (entries.find name).bind (·.resolve names)

structure ValidName (name : String) : Prop where
  ne_empty : name ≠ ""
  no_sep : ∀ c ∈ name.toList, isSep c = false
  not_dot : name ∉ [".", ".."]

mutual
/-- Valid names, distinct within each directory. -/
def Node.WellFormed : Node → Prop
  | .file _ => True
  | .dir entries => entries.WellFormed
def Entries.WellFormed : Entries → Prop
  | .nil => True
  | .cons name _ node rest =>
    ValidName name ∧ name ∉ rest.files.map (·.filename) ∧ node.WellFormed ∧ rest.WellFormed
end

mutual
def Node.height : Node → Nat
  | .file _ => 0
  | .dir entries => entries.height + 1
def Entries.height : Entries → Nat
  | .nil => 0
  | .cons _ _ node rest => max node.height rest.height
end

inductive Event
  | listPath (path : String) (r : Except Exn (List SharedFile))
  | retrieveFile (path : String) (r : Except Exn Bytes)

def Event.Failed : Event → Prop
  | .listPath _ r => ∃ e, r = .error e
  | .retrieveFile _ r => ∃ e, r = .error e

/-- A failure that `ls` takes for a directory with nothing in it. -/
def Event.Denied : Event → Prop
  | .listPath _ r => ∃ e, r = .error e ∧ e.failedWith "Unable to open directory"
  | .retrieveFile .. => False

structure Server where
  listPath : List Event → String → Except Exn (List SharedFile)
  retrieveFile : List Event → String → Except Exn Bytes

inductive LocalEntry
  | file (content : Bytes)
  | dir
  deriving DecidableEq, Repr

/-- The parts of a `Path`. -/
abbrev LocalPath := List String

abbrev Local := LocalPath → Option LocalEntry

abbrev DownloadProg (α : Type) := Prog Local Exn Event α

def mkdir (path : LocalPath) : DownloadProg Unit := fun fs log =>
  if fs path ≠ none then (.error (.other "FileExistsError"), fs, log)
  else if fs path.dropLast ≠ some .dir then (.error (.other "FileNotFoundError"), fs, log)
  else (.ok (), Function.update fs path (some .dir), log)

/-- `open(path, "wb")`, which empties a file that is there. -/
def openWb (path : LocalPath) : DownloadProg Unit := fun fs log =>
  if fs path = some .dir then (.error (.other "IsADirectoryError"), fs, log)
  else if fs path.dropLast ≠ some .dir then (.error (.other "FileNotFoundError"), fs, log)
  else (.ok (), Function.update fs path (some (.file [])), log)

/-- `file_obj.write(data)`, on a file that was just opened. -/
def write (path : LocalPath) (data : Bytes) : DownloadProg Unit :=
  modify fun fs => Function.update fs path (some (.file data))

-- ---------------------------------------------------------------------------
-- SmbHandler
-- ---------------------------------------------------------------------------

/-- `os.path.join(path, name)` -/
def osPathJoin (path name : String) : String :=
  if name.toList.head? = some '/' then name
  else if path = "" ∨ path.toList.getLast? = some '/' then path ++ name
  else path ++ "/" ++ name

section
variable (server : Server)

def lsOnce (rDirPath : String) : DownloadProg (List SharedFile) := do
  let smbFiles ← tryCatch (Prog.call (server.listPath · rDirPath) (.listPath rDirPath)) fun e =>
    if e.failedWith "Unable to open directory" then pure [] else throw e
  pure (smbFiles.filter fun smbFile => smbFile.filename ∉ [".", ".."])

def ls (rDirPath : String) : DownloadProg (List SharedFile) :=
  retry retryOn (lsOnce server rDirPath) 9

/-- Each attempt has a buffer of its own. -/
def getRFile (rFilePath : String) : DownloadProg Bytes :=
  retry retryOn
    (Prog.call (server.retrieveFile · rFilePath) (.retrieveFile rFilePath)) 9

def downloadRFile (rFilePath : String) (lFilePath : LocalPath) : DownloadProg Unit := do
  openWb lFilePath
  let data ← getRFile server rFilePath
  write lFilePath data

/-- `not filter_fn or filter_fn(smb_file)` -/
def accepts (filterFn : Option (SharedFile → Bool)) (smbFile : SharedFile) : Bool :=
  filterFn.all (· smbFile)

/-- One turn of the loop of `download_r_dir`; `download` is its call of itself. -/
def downloadEntry (download : String → LocalPath → DownloadProg Unit) (rDirPath : String)
    (lDirPath : LocalPath) (filterFn : Option (SharedFile → Bool)) (smbFile : SharedFile) :
    DownloadProg Unit :=
  if accepts filterFn smbFile then
    let newLFilePath := lDirPath ++ [smbFile.filename]
    let rFilePath := osPathJoin rDirPath smbFile.filename
    if smbFile.isDirectory then do
      mkdir newLFilePath
      download rFilePath newLFilePath
    else
      downloadRFile server rFilePath newLFilePath
  else pure ()

/-- `download_r_dir`, to a depth at which Python gives up the recursion. -/
def downloadRDir : (depth : Nat) → (rDirPath : String) → (lDirPath : LocalPath) →
    (filterFn : Option (SharedFile → Bool)) → DownloadProg Unit
  | 0, _, _, _ => throw .recursion
  | depth + 1, rDirPath, lDirPath, filterFn => do
    let smbFiles ← ls server rDirPath
    each (downloadEntry server (fun rFilePath newLFilePath =>
      downloadRDir depth rFilePath newLFilePath none) rDirPath lDirPath filterFn) smbFiles

end

-- ---------------------------------------------------------------------------
-- Paths on both sides
-- ---------------------------------------------------------------------------

def namesOf (path : String) : List String := (dirOf path).map String.ofList

section
variable {name : String}

theorem dirOf_name (h : ValidName name) : dirOf name = [name.toList] := by
  have hne : name.toList ≠ [] := by simpa using h.ne_empty
  simp [dirOf, pieces, List.splitOnP_eq_singleton h.no_sep, hne]

theorem dirOf_append_sep (path : String) (h : ValidName name) :
    dirOf (path ++ "/" ++ name) = dirOf path ++ [name.toList] := by
  have hsplit : pieces (path ++ "/" ++ name) = pieces path ++ pieces name := by
    have hchars : (path ++ "/" ++ name).toList = path.toList ++ '/' :: name.toList := by simp
    rw [pieces, hchars, List.splitOnP_append_cons _ _ (by decide)]
    rfl
  rw [dirOf, hsplit, List.filter_append, ← dirOf_name h]
  rfl

theorem namesOf_join (path : String) (h : ValidName name) :
    namesOf (osPathJoin path name) = namesOf path ++ [name] := by
  suffices hdir : dirOf (osPathJoin path name) = dirOf path ++ [name.toList] by
    simp [namesOf, hdir]
  have hhead : name.toList.head? ≠ some '/' := fun hslash => by
    have := h.no_sep '/' (List.mem_of_mem_head? hslash)
    exact absurd this (by decide)
  unfold osPathJoin
  rw [if_neg hhead]
  split
  · rename_i hend
    rcases hend with rfl | hend
    · have hroot : dirOf "" = [] := by decide
      rw [String.empty_append, hroot, dirOf_name h]
      rfl
    · obtain ⟨front, hfront⟩ := List.getLast?_eq_some_iff.mp hend
      have hpath : path = String.ofList front ++ "/" := by
        rw [← String.toList_inj, hfront]
        simp
      have hdrop : dirOf (String.ofList front ++ "/") = dirOf (String.ofList front) := by
        have hchars : (String.ofList front ++ "/").toList = front ++ '/' :: [] := by simp
        rw [dirOf, pieces, hchars, List.splitOnP_append_cons _ _ (by decide), List.filter_append]
        simp [dirOf, pieces]
      rw [hpath, dirOf_append_sep _ h, hdrop]
  · exact dirOf_append_sep path h

end

theorem resolve_append (names : List String) (name : String) (root : Node) :
    root.resolve (names ++ [name]) = (root.resolve names).bind (·.resolve [name]) := by
  induction names generalizing root with
  | nil => rfl
  | cons first names ih =>
    cases root with
    | file _ => rfl
    | dir entries =>
      simp only [List.cons_append, Node.resolve]
      cases entries.find first with
      | none => rfl
      | some node => exact ih node

theorem resolve_join {root : Node} (h : root.resolve (namesOf path) = some (.dir entries))
    (hname : ValidName name) (hfind : entries.find name = some node) :
    root.resolve (namesOf (osPathJoin path name)) = some node := by
  rw [namesOf_join path hname, resolve_append, h]
  simp [Node.resolve, hfind]

theorem find_of_mem {entries : Entries} (hwf : entries.WellFormed) (h : f ∈ entries.files) :
    ∃ node, entries.find f.filename = some node ∧ f.isDirectory = node.isDirectory ∧
      node.WellFormed ∧ node.height ≤ entries.height ∧ ValidName f.filename :=
  match entries, hwf, h with
  | .cons name _ node rest, hwf, h => by
    obtain ⟨hname, hnew, hnode, hrest⟩ := hwf
    rcases List.mem_cons.mp h with rfl | hmem
    · exact ⟨node, by simp [Entries.find], rfl, hnode, Nat.le_max_left .., hname⟩
    · obtain ⟨node', hfind, hdir, hwf', hle, hvalid⟩ := find_of_mem hrest hmem
      have hne : name ≠ f.filename := fun heq => hnew (heq ▸ List.mem_map_of_mem hmem)
      exact ⟨node', by simp [Entries.find, hne, hfind], hdir, hwf',
        hle.trans (Nat.le_max_right ..), hvalid⟩

theorem mem_of_find {entries : Entries} (h : entries.find name = some node) :
    ∃ f ∈ entries.files, f.filename = name :=
  match entries, h with
  | .cons name' _ _ rest, h => by
    by_cases hname : name' = name
    · exact ⟨_, List.mem_cons_self, hname⟩
    · rw [Entries.find, if_neg hname] at h
      obtain ⟨f, hf, hfname⟩ := mem_of_find h
      exact ⟨f, List.mem_cons_of_mem _ hf, hfname⟩

theorem nodup_files {entries : Entries} (hwf : entries.WellFormed) :
    (entries.files.map (·.filename)).Nodup :=
  match entries, hwf with
  | .nil, _ => List.nodup_nil
  | .cons _ _ _ _, ⟨_, hnew, _, hrest⟩ => List.nodup_cons.mpr ⟨hnew, nodup_files hrest⟩

-- ---------------------------------------------------------------------------
-- The local disk afterwards
-- ---------------------------------------------------------------------------

def LocalEntry.ofNode : Node → LocalEntry
  | .file content => .file content
  | .dir _ => .dir

def Local.put (fs : Local) (l : LocalPath) (node : Node) : Local := fun p =>
  if l <+: p then (node.resolve (p.drop l.length)).map .ofNode else fs p

/-- The disk with those entries of a remote directory below a path whose names
are to be kept. -/
def Local.fill (fs : Local) (l : LocalPath) (entries : Entries) (keep : String → Bool) : Local :=
  fun p =>
    if l <+: p then
      match p.drop l.length with
      | [] => fs p
      | name :: names =>
        if keep name then ((Node.dir entries).resolve (name :: names)).map .ofNode else none
    else fs p

structure Local.Empty (fs : Local) (l : LocalPath) : Prop where
  isDir : fs l = some .dir
  below : ∀ name names, fs (l ++ name :: names) = none

section
variable {fs : Local} {l : LocalPath} {entries : Entries} {keep : String → Bool}

theorem put_below (fs : Local) (l : LocalPath) (node : Node) (names : List String) :
    fs.put l node (l ++ names) = (node.resolve names).map .ofNode := by
  simp [Local.put]

theorem put_other {p : LocalPath} (node : Node) (h : ¬ l <+: p) : fs.put l node p = fs p := by
  simp [Local.put, h]

theorem fill_self : fs.fill l entries keep l = fs l := by
  simp [Local.fill]

theorem fill_below (name : String) (names : List String) :
    fs.fill l entries keep (l ++ name :: names) =
      if keep name then ((Node.dir entries).resolve (name :: names)).map .ofNode else none := by
  simp [Local.fill]

theorem fill_other {p : LocalPath} (h : ¬ l <+: p) : fs.fill l entries keep p = fs p := by
  simp [Local.fill, h]

theorem Local.ext_at {fs fs' : Local} (l : LocalPath) (hself : fs l = fs' l)
    (hbelow : ∀ name names, fs (l ++ name :: names) = fs' (l ++ name :: names))
    (hother : ∀ p, ¬ l <+: p → fs p = fs' p) : fs = fs' := by
  funext p
  by_cases hp : l <+: p
  · obtain ⟨names, rfl⟩ := hp
    cases names with
    | nil => simpa using hself
    | cons name names => exact hbelow name names
  · exact hother p hp

theorem fill_none (h : fs.Empty l) : fs.fill l entries (fun _ => false) = fs := by
  refine Local.ext_at l fill_self (fun name names => ?_) fun p hp => fill_other hp
  rw [fill_below, h.below]
  rfl

theorem fill_all (h : fs.Empty l) (hkeep : ∀ name node, entries.find name = some node → keep name) :
    fs.fill l entries keep = fs.put l (.dir entries) := by
  refine Local.ext_at l ?_ (fun name names => ?_) fun p hp => ?_
  · have hput := put_below fs l (.dir entries) []
    rw [List.append_nil] at hput
    rw [fill_self, h.isDir, hput]
    rfl
  · rw [fill_below, put_below]
    cases hfind : entries.find name with
    | none => simp [Node.resolve, hfind]
    | some node => simp [hkeep name node hfind]
  · rw [fill_other hp, put_other _ hp]

theorem fill_put {name : String} {node : Node} (hfind : entries.find name = some node) :
    (fs.fill l entries keep).put (l ++ [name]) node =
      fs.fill l entries fun name' => keep name' || name' = name := by
  refine Local.ext_at l ?_ (fun name' names => ?_) fun p hp => ?_
  · have hlonger : ¬ l ++ [name] <+: l := fun h => by
      have hle := h.length_le
      rw [List.length_append, List.length_singleton] at hle
      omega
    rw [put_other _ hlonger, fill_self, fill_self]
  · rw [fill_below]
    by_cases hname : name' = name
    · subst hname
      have hsplit : l ++ name' :: names = (l ++ [name']) ++ names := by simp
      rw [hsplit, put_below]
      simp [Node.resolve, hfind]
    · have hother : ¬ l ++ [name] <+: l ++ name' :: names := by
        rw [List.prefix_append_right_inj, List.cons_prefix_cons]
        exact fun h => hname h.1.symm
      rw [put_other _ hother, fill_below]
      simp [hname]
  · have hother : ¬ l ++ [name] <+: p := fun h => hp ((List.prefix_append _ _).trans h)
    rw [put_other _ hother, fill_other hp, fill_other hp]

end

-- ---------------------------------------------------------------------------
-- What the calls come to
-- ---------------------------------------------------------------------------

/-- The successful answers of the server are about this tree. A listing may
have the special entries, and any order. -/
structure Truthful (root : Node) (server : Server) : Prop where
  lists : ∀ log path entries files, root.resolve (namesOf path) = some (.dir entries) →
    server.listPath log path = .ok files →
    (files.filter fun f => f.filename ∉ [".", ".."]).Perm entries.files
  reads : ∀ log path content data, root.resolve (namesOf path) = some (.file content) →
    server.retrieveFile log path = .ok data → data = content

theorem Event.Denied.failed {ev : Event} (h : ev.Denied) : ev.Failed := by
  cases ev with
  | listPath path r =>
    obtain ⟨e, he, -⟩ := h
    exact ⟨e, he⟩
  | retrieveFile path r => exact h.elim

/-- What a call that may be retried comes to: an answer as it should be, or a
raise that is in the log. The disk stays. -/
structure Answers (P : α → Prop) (fs : Local) (r : Except Exn α) (fs' : Local)
    (evs : List Event) : Prop where
  same : fs' = fs
  answer : ∀ a, r = .ok a → (∀ ev ∈ evs, ¬ ev.Denied) → P a
  failed : ∀ e, r = .error e → ∃ ev ∈ evs, ev.Failed

section
variable {root : Node} {server : Server} {path : String} {entries : Entries} {P : α → Prop}

theorem retry_answers {m : DownloadProg α} (h : ∀ fs, Triple m fs (Answers P fs)) (n : Nat)
    (fs : Local) : Triple (retry retryOn m n) fs (Answers P fs) := by
  induction n with
  | zero => exact h fs
  | succ n ih =>
    refine .tryCatch' (h fs) (fun _ _ _ h => h) ?_
    rintro e s' evs ⟨rfl, -, herr⟩
    obtain ⟨ev, hev, hfailed⟩ := herr e rfl
    split
    · refine ih.mono fun r fs' evs' ⟨hfs, hok, _⟩ => ⟨hfs, fun a ha hall => ?_, fun _ _ => ?_⟩
      · exact hok a ha fun ev' hev' => hall ev' (List.mem_append_right _ hev')
      · exact ⟨ev, List.mem_append_left _ hev, hfailed⟩
    · exact .throw' ⟨rfl, by simp, fun _ _ => ⟨ev, by simpa using hev, hfailed⟩⟩

theorem ls_answers (hserver : Truthful root server)
    (h : root.resolve (namesOf path) = some (.dir entries)) (fs : Local) :
    Triple (ls server path) fs (Answers (·.Perm entries.files) fs) := by
  refine retry_answers (fun fs log => ?_) 9 fs
  simp only [lsOnce, run_bind, run_tryCatch, run_call]
  cases hreply : server.listPath log path with
  | ok files =>
    refine ⟨_, _, _, rfl, rfl, ?_, by simp⟩
    rintro _ ⟨⟩ -
    exact hserver.lists log path entries files h hreply
  | error e =>
    cases hdenied : e.failedWith "Unable to open directory" with
    | true =>
      simp only [hdenied, ↓reduceIte]
      refine ⟨_, _, _, rfl, rfl, fun _ _ hall => ?_, nofun⟩
      exact absurd ⟨e, rfl, hdenied⟩ (hall _ (List.mem_singleton_self _))
    | false =>
      simp only [hdenied, Bool.false_eq_true, ↓reduceIte]
      exact ⟨_, _, _, rfl, rfl, nofun, fun _ _ => ⟨_, List.mem_singleton_self _, e, rfl⟩⟩

theorem getRFile_answers (hserver : Truthful root server)
    (h : root.resolve (namesOf path) = some (.file content)) (fs : Local) :
    Triple (getRFile server path) fs (Answers (· = content) fs) := by
  refine retry_answers (fun fs log => ?_) 9 fs
  rw [run_call]
  cases hreply : server.retrieveFile log path with
  | ok data =>
    refine ⟨_, _, _, rfl, rfl, ?_, by simp⟩
    rintro _ ⟨⟩ -
    exact hserver.reads log path content data h hreply
  | error e =>
    exact ⟨_, _, _, rfl, rfl, by simp, fun _ _ => ⟨_, List.mem_singleton_self _, e, rfl⟩⟩

end

/-- What a download comes to: the disk as it should be, unless it raises or a
directory was denied; and it raises for a call that did, or in a recursion that
was not deep enough. -/
structure Outcome (target : Local) (deep : Prop) (r : Except Exn Unit) (fs : Local)
    (evs : List Event) : Prop where
  fills : r = .ok () → (∀ ev ∈ evs, ¬ ev.Denied) → fs = target
  returns : deep → (∀ ev ∈ evs, ¬ ev.Failed) → r = .ok ()

section
variable {root : Node} {server : Server} {path : String} {l : LocalPath} {fs : Local}

theorem Outcome.refl (fs : Local) (deep : Prop) : Outcome fs deep (.ok ()) fs [] :=
  ⟨fun _ _ => rfl, fun _ _ => rfl⟩

theorem Outcome.of_denied {m : DownloadProg Unit} {target : Local} {deep : Prop} {ev : Event}
    (hruns : Logs (fun _ => True) m) (hev : ev ∈ evs) (hdenied : ev.Denied) (fs : Local) :
    Triple m fs fun r fs' evs' => Outcome target deep r fs' (evs ++ evs') := by
  refine Triple.mono (hruns fs) fun r fs' evs' _ => ⟨fun _ hall => ?_, fun _ hall => ?_⟩
  · exact absurd hdenied (hall ev (List.mem_append_left _ hev))
  · exact absurd hdenied.failed (hall ev (List.mem_append_left _ hev))

theorem Outcome.after {m : DownloadProg Unit} {target : Local} {deep : Prop} (evs : List Event)
    (h : Triple m fs (Outcome target deep)) :
    Triple m fs fun r fs' evs' => Outcome target deep r fs' (evs ++ evs') := by
  refine h.mono fun r fs' evs' h => ⟨fun hr hall => ?_, fun hdeep hall => ?_⟩
  · exact h.fills hr fun ev hev => hall ev (List.mem_append_right _ hev)
  · exact h.returns hdeep fun ev hev => hall ev (List.mem_append_right _ hev)

theorem Outcome.seq {m m' : DownloadProg Unit} {mid target : Local} {deep : Prop}
    (hm : Triple m fs (Outcome mid deep)) (hm' : Triple m' mid (Outcome target deep))
    (hruns : Logs (fun _ => True) m') : Triple (do m; m') fs (Outcome target deep) := by
  refine .bind hm (fun _ fs' evs hmid => ?_) fun e fs' evs hmid => ?_
  · by_cases hdenied : ∃ ev ∈ evs, ev.Denied
    · obtain ⟨ev, hev, hev'⟩ := hdenied
      exact Outcome.of_denied hruns hev hev' fs'
    · obtain rfl : fs' = mid := hmid.fills rfl fun ev hev h => hdenied ⟨ev, hev, h⟩
      exact Outcome.after evs hm'
  · exact ⟨nofun, hmid.returns⟩

theorem mkdir_run (hnew : fs l = none) (hparent : fs l.dropLast = some .dir) (log : List Event) :
    mkdir l fs log = (.ok (), Function.update fs l (some .dir), log) := by
  simp [mkdir, hnew, hparent]

theorem openWb_run (hnew : fs l = none) (hparent : fs l.dropLast = some .dir) (log : List Event) :
    openWb l fs log = (.ok (), Function.update fs l (some (.file [])), log) := by
  simp [openWb, hnew, hparent]

theorem update_file (hbelow : ∀ name names, fs (l ++ name :: names) = none) (content : Bytes) :
    Function.update fs l (some (.file content)) = fs.put l (.file content) := by
  refine Local.ext_at l ?_ (fun name names => ?_) fun p hp => ?_
  · have hput := put_below fs l (.file content) []
    rw [List.append_nil] at hput
    simp [hput, Node.resolve, LocalEntry.ofNode]
  · rw [put_below, Function.update_of_ne (by simp), hbelow]
    rfl
  · have hne : p ≠ l := by
      rintro rfl
      exact hp List.prefix_rfl
    rw [put_other _ hp, Function.update_of_ne hne]

theorem update_put (entries : Entries) :
    Local.put (Function.update fs l (some .dir)) l (.dir entries) = fs.put l (.dir entries) := by
  funext p
  by_cases hp : l <+: p
  · simp [Local.put, hp]
  · have hne : p ≠ l := by
      rintro rfl
      exact hp List.prefix_rfl
    rw [put_other _ hp, put_other _ hp, Function.update_of_ne hne]

theorem empty_of_new (hbelow : ∀ name names, fs (l ++ name :: names) = none) :
    Local.Empty (Function.update fs l (some .dir)) l where
  isDir := by simp
  below name names := by rw [Function.update_of_ne (by simp), hbelow]

theorem downloadRFile_fills (hserver : Truthful root server)
    (h : root.resolve (namesOf path) = some (.file content)) (hnew : fs l = none)
    (hbelow : ∀ name names, fs (l ++ name :: names) = none)
    (hparent : fs l.dropLast = some .dir) (deep : Prop) :
    Triple (downloadRFile server path l) fs (Outcome (fs.put l (.file content)) deep) := by
  intro log
  obtain ⟨r, fs', evs, hrun, rfl, hok, herr⟩ :=
    getRFile_answers hserver h (Function.update fs l (some (.file []))) log
  rw [downloadRFile, run_bind_ok (openWb_run hnew hparent log)]
  cases r with
  | ok data =>
    rw [run_bind_ok hrun]
    refine ⟨.ok (), _, evs, rfl, fun _ hall => ?_, fun _ _ => rfl⟩
    obtain rfl := hok data rfl hall
    change Function.update (Function.update fs l _) l _ = _
    rw [Function.update_idem, update_file hbelow]
  | error e =>
    obtain ⟨ev, hev, hfailed⟩ := herr e rfl
    exact ⟨_, _, evs, run_bind_error hrun, nofun, fun _ hall => absurd hfailed (hall ev hev)⟩

-- ---------------------------------------------------------------------------
-- A directory
-- ---------------------------------------------------------------------------

theorem downloadEntry_logs {download : String → LocalPath → DownloadProg Unit}
    (h : ∀ path l, Logs (fun _ => True) (download path l)) (smbFile : SharedFile) :
    Logs (fun _ => True) (downloadEntry server download path l filterFn smbFile) := by
  unfold downloadEntry
  split_ifs
  · refine .bind (fun fs log => ?_) fun _ => h _ _
    unfold mkdir
    split_ifs <;> exact ⟨_, _, [], by rw [List.append_nil], nofun⟩
  · refine .bind (fun fs log => ?_) fun _ => .bind ?_ fun _ => .modify' _
    · unfold openWb
      split_ifs <;> exact ⟨_, _, [], by rw [List.append_nil], nofun⟩
    · exact retry_logs (.call' fun _ => trivial) retryOn 9
  · exact .pure' ()

theorem downloadRDir_logs (server : Server) (depth : Nat) (path : String) (l : LocalPath)
    (filterFn : Option (SharedFile → Bool)) :
    Logs (fun _ => True) (downloadRDir server depth path l filterFn) := by
  induction depth generalizing path l filterFn with
  | zero => exact .throw' _
  | succ depth ih =>
    have hls : Logs (fun _ => True) (lsOnce server path) := by
      refine .bind (.tryCatch' (.call' fun _ => trivial) fun e => ?_) fun _ => .pure' _
      split
      · exact .pure' _
      · exact .throw' _
    refine .bind (retry_logs hls retryOn 9) fun smbFiles => .each' fun smbFile _ => ?_
    exact downloadEntry_logs (fun path l => ih path l none) smbFile

def taken (filterFn : Option (SharedFile → Bool)) (files : List SharedFile) (name : String) :
    Bool :=
  files.any fun smbFile => smbFile.filename = name && accepts filterFn smbFile

theorem taken_of_find {entries : Entries} (h : entries.find name = some node) :
    taken none entries.files name := by
  obtain ⟨f, hf, rfl⟩ := mem_of_find h
  exact List.any_eq_true.mpr ⟨f, hf, by simp [accepts]⟩

theorem each_fills {turn : SharedFile → DownloadProg Unit} {todo : List SharedFile}
    {filterFn : Option (SharedFile → Bool)} {entries : Entries} {deep : Prop}
    (hturn : ∀ smbFile ∈ todo, ∀ keep, keep smbFile.filename = false →
      Triple (turn smbFile) (fs.fill l entries keep)
        (Outcome (fs.fill l entries fun name => keep name || taken filterFn [smbFile] name) deep))
    (hlogs : ∀ smbFile, Logs (fun _ => True) (turn smbFile))
    (hnodup : (todo.map (·.filename)).Nodup) (keep : String → Bool)
    (hkeep : ∀ smbFile ∈ todo, keep smbFile.filename = false) :
    Triple (each turn todo) (fs.fill l entries keep)
      (Outcome (fs.fill l entries fun name => keep name || taken filterFn todo name) deep) := by
  induction todo generalizing keep with
  | nil =>
    refine .pure' ?_
    simpa [taken] using Outcome.refl (fs.fill l entries keep) deep
  | cons smbFile todo ih =>
    obtain ⟨hnew, hnodup⟩ := List.nodup_cons.mp hnodup
    have hfirst := hturn smbFile List.mem_cons_self keep (hkeep _ List.mem_cons_self)
    have hrest := ih (fun f hf => hturn f (List.mem_cons_of_mem _ hf)) hnodup
      (fun name => keep name || taken filterFn [smbFile] name) fun f hf => by
        have hne : smbFile.filename ≠ f.filename := by
          rintro heq
          exact hnew (List.mem_map.mpr ⟨f, hf, heq.symm⟩)
        simp [taken, hkeep f (List.mem_cons_of_mem _ hf), hne]
    have htaken : (fun name => keep name || taken filterFn (smbFile :: todo) name) =
        fun name => (keep name || taken filterFn [smbFile] name) || taken filterFn todo name := by
      funext name
      simp [taken, Bool.or_assoc]
    rw [htaken]
    exact Outcome.seq hfirst hrest (.each' fun f _ => hlogs f)

theorem Outcome.mono {target : Local} {deep deep' : Prop} {r : Except Exn Unit} {evs : List Event}
    (h : Outcome target deep r fs evs) (hdeep : deep' → deep) : Outcome target deep' r fs evs :=
  ⟨h.fills, fun hd => h.returns (hdeep hd)⟩

/-- What the walk down needs of the directory it is at. -/
structure At (root : Node) (path : String) (entries : Entries) (fs : Local) (l : LocalPath) :
    Prop where
  resolves : root.resolve (namesOf path) = some (.dir entries)
  wellFormed : entries.WellFormed
  empty : fs.Empty l

theorem downloadEntry_fills {depth : Nat} {filterFn : Option (SharedFile → Bool)}
    (hserver : Truthful root server) (hat : At root path entries fs l)
    (hdown : ∀ path' entries' fs' l', At root path' entries' fs' l' →
      Triple (downloadRDir server depth path' l' none) fs'
        (Outcome (fs'.fill l' entries' (taken none entries'.files)) (entries'.height < depth)))
    (hmem : smbFile ∈ entries.files) (keep : String → Bool)
    (hkeep : keep smbFile.filename = false) :
    Triple (downloadEntry server (downloadRDir server depth · · none) path l filterFn smbFile)
      (fs.fill l entries keep)
      (Outcome (fs.fill l entries fun name => keep name || taken filterFn [smbFile] name)
        (entries.height < depth + 1)) := by
  obtain ⟨node, hfind, hdir, hwf, hle, hvalid⟩ := find_of_mem hat.wellFormed hmem
  have hresolve := resolve_join hat.resolves hvalid hfind
  have hnew (names : List String) :
      fs.fill l entries keep (l ++ [smbFile.filename] ++ names) = none := by
    rw [List.append_assoc, List.singleton_append, fill_below, hkeep]
    rfl
  have hnone : fs.fill l entries keep (l ++ [smbFile.filename]) = none := by
    simpa using hnew []
  have hparent : fs.fill l entries keep (l ++ [smbFile.filename]).dropLast = some .dir := by
    rw [List.dropLast_concat, fill_self, hat.empty.isDir]
  unfold downloadEntry
  split
  next haccepts =>
    have hfill : (fun name => keep name || taken filterFn [smbFile] name) =
        fun name => keep name || name = smbFile.filename := by
      funext name
      simp [taken, haccepts, eq_comm]
    rw [hfill, ← fill_put hfind]
    cases node with
    | file content =>
      rw [if_neg (by simp [hdir, Node.isDirectory])]
      exact downloadRFile_fills hserver hresolve hnone (fun name names => hnew (name :: names))
        hparent _
    | dir entries' =>
      rw [if_pos (by simp [hdir, Node.isDirectory])]
      intro log
      rw [run_bind_ok (mkdir_run hnone hparent log)]
      have hempty := empty_of_new fun name names => hnew (name :: names)
      obtain ⟨r, fs', evs, hrun, hout⟩ := hdown _ _ _ _ ⟨hresolve, hwf, hempty⟩ log
      rw [fill_all hempty fun _ _ => taken_of_find, update_put] at hout
      exact ⟨r, fs', evs, hrun, hout.mono fun hlt => by rw [Node.height] at hle; omega⟩
  next haccepts =>
    have hfill : (fun name => keep name || taken filterFn [smbFile] name) = keep := by
      funext name
      simp [taken, haccepts]
    rw [hfill]
    exact .pure' (Outcome.refl _ _)

theorem downloadRDir_fills (hserver : Truthful root server) (hat : At root path entries fs l)
    (depth : Nat) (filterFn : Option (SharedFile → Bool)) :
    Triple (downloadRDir server depth path l filterFn) fs
      (Outcome (fs.fill l entries (taken filterFn entries.files)) (entries.height < depth)) := by
  induction depth generalizing path l fs entries filterFn with
  | zero => exact .throw' ⟨nofun, fun hlt => absurd hlt (Nat.not_lt_zero _)⟩
  | succ depth ih =>
    have hturns (smbFile : SharedFile) : Logs (fun _ => True)
        (downloadEntry server (downloadRDir server depth · · none) path l filterFn smbFile) :=
      downloadEntry_logs (fun path l => downloadRDir_logs server depth path l none) smbFile
    refine .bind (ls_answers hserver hat.resolves fs) (fun smbFiles fs' evs hlisted => ?_) ?_
    · obtain rfl := hlisted.same
      by_cases hdenied : ∃ ev ∈ evs, ev.Denied
      · obtain ⟨ev, hev, hev'⟩ := hdenied
        exact Outcome.of_denied (.each' fun f _ => hturns f) hev hev' fs'
      · have hperm : smbFiles.Perm entries.files :=
          hlisted.answer _ rfl fun ev hev h => hdenied ⟨ev, hev, h⟩
        have hnodup := (hperm.map (·.filename)).nodup_iff.mpr (nodup_files hat.wellFormed)
        have hloop := each_fills (fun f hf => downloadEntry_fills hserver hat
          (fun _ _ _ _ hat' => ih hat' none) (hperm.mem_iff.mp hf)) hturns hnodup (fun _ => false)
          fun _ _ => rfl
        have htaken : (fun name => false || taken filterFn smbFiles name) =
            taken filterFn entries.files := funext fun name => hperm.any_eq
        rw [fill_none hat.empty, htaken] at hloop
        exact Outcome.after evs hloop
    · intro e fs' evs hlisted
      refine ⟨nofun, fun _ hall => ?_⟩
      obtain ⟨ev, hev, hfailed⟩ := hlisted.failed e rfl
      exact absurd hfailed (hall ev hev)

end

theorem wellFormed_resolve {root : Node} (hroot : root.WellFormed)
    (h : root.resolve names = some node) : node.WellFormed := by
  induction names generalizing root with
  | nil =>
    obtain rfl : root = node := by simpa [Node.resolve] using h
    exact hroot
  | cons name names ih =>
    cases root with
    | file _ => simp [Node.resolve] at h
    | dir entries =>
      have hentries : entries.WellFormed := hroot
      rw [Node.resolve] at h
      obtain ⟨child, hchild, hrest⟩ := Option.bind_eq_some_iff.mp h
      obtain ⟨f, hf, rfl⟩ := mem_of_find hchild
      obtain ⟨child', hfind, -, hwf, -⟩ := find_of_mem hentries hf
      obtain rfl : child' = child := Option.some.inj (hfind.symm.trans hchild)
      exact ih hwf hrest

/-- A download into an empty directory `l`. If no call fails, and Python's
recursion is deep enough, it returns; if it returns, and the server denied no
directory, then `l` has the accepted entries of the remote directory, each of
them as it is on the server, and nothing else. -/
theorem downloadRDir_exact {root : Node} {server : Server} (hroot : root.WellFormed)
    (hserver : Truthful root server) (hdir : root.resolve (namesOf path) = some (.dir entries))
    {fs : Local} (hempty : fs.Empty l) (depth : Nat) (filterFn : Option (SharedFile → Bool))
    (log : List Event) :
    ∃ r fs' evs, downloadRDir server depth path l filterFn fs log = (r, fs', log ++ evs) ∧
      (entries.height < depth → (∀ ev ∈ evs, ¬ ev.Failed) → r = .ok ()) ∧
      (r = .ok () → (∀ ev ∈ evs, ¬ ev.Denied) → fs' = fs.fill l entries fun name =>
        entries.files.any fun smbFile => smbFile.filename = name && accepts filterFn smbFile) := by
  have hat : At root path entries fs l := ⟨hdir, wellFormed_resolve hroot hdir, hempty⟩
  obtain ⟨r, fs', evs, hrun, hout⟩ := downloadRDir_fills hserver hat depth filterFn log
  exact ⟨r, fs', evs, hrun, hout.returns, hout.fills⟩

def logsShare : Node :=
  .dir (.cons "a.log" 5 (.file [1, 2]) (.cons "old" 1 (.dir (.cons "empty" 1 (.dir .nil) .nil))
    .nil))

def Server.ofTree (root : Node) : Server where
  listPath _ path := match root.resolve (namesOf path) with
    | some (.dir entries) => .ok (⟨".", true, 0⟩ :: ⟨"..", true, 0⟩ :: entries.files)
    | _ => .error (.operationFailure "Unable to open directory")
  retrieveFile _ path := match root.resolve (namesOf path) with
    | some (.file content) => .ok content
    | _ => .error (.operationFailure "Unable to open file")

theorem truthful_ofTree {root : Node} (hroot : root.WellFormed) :
    Truthful root (.ofTree root) where
  lists log path entries files h hfiles := by
    have hreply : (Server.ofTree root).listPath log path =
        .ok (⟨".", true, 0⟩ :: ⟨"..", true, 0⟩ :: entries.files) := by
      simp [Server.ofTree, h]
    obtain rfl := Except.ok.inj (hreply.symm.trans hfiles)
    have hvalid : ∀ f ∈ entries.files, f.filename ∉ [".", ".."] := fun f hf => by
      obtain ⟨_, _, _, _, _, hname⟩ := find_of_mem (wellFormed_resolve hroot h) hf
      exact hname.not_dot
    have hrest : entries.files.filter (fun f => f.filename ∉ [".", ".."]) = entries.files :=
      List.filter_eq_self.mpr fun f hf => decide_eq_true (hvalid f hf)
    rw [List.filter_cons_of_neg (by simp), List.filter_cons_of_neg (by simp), hrest]
  reads log path content data h hdata := by
    have hreply : (Server.ofTree root).retrieveFile log path = .ok content := by
      simp [Server.ofTree, h]
    exact (Except.ok.inj (hreply.symm.trans hdata)).symm

/-- Of the share, what was written since the third second: the file, and not the directory. -/
theorem downloadRDir_exact_logsShare :
    ∃ fs' log, downloadRDir (.ofTree logsShare) 3 "" ["logs"]
        (some fun smbFile => 3 < smbFile.lastWriteTime)
        (fun p => if p = ["logs"] then some .dir else none) [] = (.ok (), fs', log) ∧
      fs' ["logs"] = some .dir ∧ fs' ["logs", "a.log"] = some (.file [1, 2]) ∧
      ∀ name names, name ≠ "a.log" → fs' ("logs" :: name :: names) = none := by
  have hvalid : ∀ name ∈ ["a.log", "old", "empty"], ValidName name := by
    have hsep (name : String) (h : name.toList.all fun c => isSep c = false) :
        ∀ c ∈ name.toList, isSep c = false :=
      fun c hc => of_decide_eq_true (List.all_eq_true.mp h c hc)
    simp only [List.forall_mem_cons, List.not_mem_nil, false_implies, implies_true, and_true]
    exact ⟨⟨by decide, hsep _ (by decide), by decide⟩, ⟨by decide, hsep _ (by decide), by decide⟩,
      ⟨by decide, hsep _ (by decide), by decide⟩⟩
  have hwf : logsShare.WellFormed := ⟨hvalid _ (by simp), by decide, trivial, hvalid _ (by simp),
    by decide, ⟨hvalid _ (by simp), by decide, trivial, trivial⟩, trivial⟩
  have hempty : Local.Empty (fun p => if p = ["logs"] then some .dir else none) ["logs"] :=
    ⟨by simp, by simp⟩
  have hdir : logsShare.resolve (namesOf "") = some logsShare := rfl
  obtain ⟨r, fs', evs, hrun, hreturns, hfills⟩ := downloadRDir_exact hwf (truthful_ofTree hwf)
    hdir hempty 3 (some fun smbFile => 3 < smbFile.lastWriteTime) []
  have hevs : evs = [.listPath "" (.ok [⟨".", true, 0⟩, ⟨"..", true, 0⟩, ⟨"a.log", false, 5⟩,
      ⟨"old", true, 1⟩]), .retrieveFile "a.log" (.ok [1, 2])] := by
    have hlog := congrArg (·.2.2) hrun
    exact hlog.symm
  have hfailed : ∀ ev ∈ evs, ¬ ev.Failed := by
    rw [hevs]
    simp [Event.Failed]
  obtain rfl := hreturns (by decide) hfailed
  obtain rfl := hfills rfl fun ev hev h => hfailed ev hev h.failed
  refine ⟨_, _, hrun, by simp [fill_self], rfl, fun name names hname => ?_⟩
  refine (fill_below (l := ["logs"]) name names).trans (if_neg ?_)
  simp [Entries.files, accepts, hname.symm]

end ShellTests.Smb.Download
