import Mathlib.Data.List.Infix
import ShellTests.Lib.LastSeparator
import ShellTests.Smb

/-!
# Directories on the share

`create_dir` goes up from a directory that it cannot create to the parent, and
comes down again creating. Its way up ends where a call does not answer
`Create failed`, and the parent of the root is the root.
-/

namespace ShellTests.Smb

open Prog LastSeparator

-- ---------------------------------------------------------------------------
-- The path of the parent
-- ---------------------------------------------------------------------------

/-- What `$` leaves before it: all, or all but a line break at the end. -/
def beforeEnd (chars : List Char) : List Char :=
  if chars.getLast? = some '\n' then chars.dropLast else chars

def isSep (c : Char) : Bool := c = '/' ∨ c = '\\'

theorem getDirPath_toList (path : String) : (getDirPath path).toList =
    if '\n' ∈ beforeEnd path.toList then [] else beforeLast isSep (beforeEnd path.toList) := by
  have hsep : (fun c => decide (c ≠ '/' ∧ c ≠ '\\')) = fun c => !isSep c := by
    funext c
    simp [isSep]
  simp only [getDirPath, hsep]
  change (if '\n' ∈ beforeEnd path.toList then ""
    else String.ofList (beforeLast isSep (beforeEnd path.toList))).toList = _
  split
  · rfl
  · exact String.toList_ofList

theorem length_beforeEnd (chars : List Char) : (beforeEnd chars).length ≤ chars.length := by
  unfold beforeEnd
  split <;> simp

theorem getDirPath_shorter (path : String) :
    (getDirPath path).toList.length ≤ path.toList.length - 1 := by
  rw [getDirPath_toList]
  split
  · simp
  · have := length_beforeLast isSep (beforeEnd path.toList)
    have := length_beforeEnd path.toList
    omega

theorem mem_beforeEnd (chars : List Char) : '\n' ∈ beforeEnd chars ↔ '\n' ∈ chars.dropLast := by
  induction chars using List.reverseRecOn with
  | nil => simp [beforeEnd]
  | append_singleton chars c =>
    by_cases hc : c = '\n'
    · simp [beforeEnd, hc]
    · simp [beforeEnd, hc, Ne.symm hc]

theorem beforeEnd_append (a : List Char) (sep : Char) (h : b ≠ []) :
    beforeEnd (a ++ sep :: b) = a ++ sep :: beforeEnd b := by
  obtain ⟨c, rest, rfl⟩ := List.exists_cons_of_ne_nil h
  unfold beforeEnd
  rw [List.getLast?_append_of_ne_nil _ (by simp), List.getLast?_cons_cons]
  split
  · rw [List.dropLast_append_of_ne_nil (by simp), List.dropLast_cons_cons]
  · rfl

theorem getDirPath_of_lines (h : '\n' ∈ path.toList.dropLast) : getDirPath path = "" := by
  rw [← String.toList_inj, getDirPath_toList, if_pos ((mem_beforeEnd _).mpr h)]
  rfl

theorem getDirPath_of_sep (hpath : path.toList = a ++ sep :: b) (hsep : isSep sep)
    (hb : ∀ x ∈ b, isSep x = false) (hne : b ≠ []) (hline : '\n' ∉ path.toList.dropLast) :
    getDirPath path = String.ofList a := by
  have hb' : ∀ x ∈ beforeEnd b, isSep x = false := by
    intro x hx
    unfold beforeEnd at hx
    split at hx
    · exact hb x (List.dropLast_subset b hx)
    · exact hb x hx
  rw [← String.toList_inj, getDirPath_toList, if_neg (by rwa [mem_beforeEnd]), hpath,
    beforeEnd_append a sep hne, beforeLast_append hsep hb', String.toList_ofList]

section
variable {server : Server} {path : String} {s : State} {log log' : List Event}

/-- The way up goes on: the call is answered `Create failed`. -/
def CreateFails (server : Server) (log : List Event) (path : String) : Prop :=
  ∃ e, server.createDirectory log path = .error e ∧ e.failedWith "Create failed"

def afterCreate (server : Server) (log : List Event) (path : String) : List Event :=
  log ++ [.createDirectory path (server.createDirectory log path)]

theorem createDirectory_run (server : Server) (path : String) (s : State) (log : List Event) :
    createDirectory server path s log =
      (server.createDirectory log path, s, afterCreate server log path) := rfl

theorem createDir_top (h : ¬ CreateFails server log path)
    (hretry : ∀ e, server.createDirectory log path = .error e → retryOn e = false) (depth : Nat) :
    createDir server (depth + 1) path true s log =
      (server.createDirectory log path, s, afterCreate server log path) := by
  refine retry_run ?_ hretry 9
  rw [run_tryCatch, createDirectory_run]
  cases hreply : server.createDirectory log path with
  | ok _ => rfl
  | error e =>
    have hnot : e.failedWith "Create failed" = false :=
      Bool.eq_false_iff.mpr fun hf => h ⟨e, hreply, hf⟩
    simp [hnot]

theorem createDir_turn (h : CreateFails server log path) (depth : Nat) :
    tryCatch (createDirectory server path) (fun e =>
      if (true && e.failedWith "Create failed") = true then do
        createDir server depth (getDirPath path) true
        createDirectory server path
      else throw e) s log = (do
        createDir server depth (getDirPath path) true
        createDirectory server path) s (afterCreate server log path) := by
  obtain ⟨e, hreply, he⟩ := h
  rw [run_tryCatch, createDirectory_run, hreply]
  simp [he]

theorem createDir_down (h : CreateFails server log path)
    (hup : createDir server depth (getDirPath path) true s (afterCreate server log path) =
      (.ok (), s, log'))
    (hretry : ∀ e, server.createDirectory log' path = .error e → retryOn e = false) :
    createDir server (depth + 1) path true s log =
      (server.createDirectory log' path, s, afterCreate server log' path) := by
  refine retry_run ?_ hretry 9
  rw [createDir_turn h depth, run_bind_ok hup, createDirectory_run]

theorem createDir_given_up (h : CreateFails server log path)
    (hup : createDir server depth (getDirPath path) true s (afterCreate server log path) =
      (.error e, s, log')) (he : retryOn e = false) :
    createDir server (depth + 1) path true s log = (.error e, s, log') := by
  refine retry_run ?_ (by simpa using he) 9
  rw [createDir_turn h depth, run_bind_error hup]

-- ---------------------------------------------------------------------------
-- The way up
-- ---------------------------------------------------------------------------

/-- Where the way up has come to after `n` levels: the path that is next, and the log. -/
def climb (server : Server) : (n : Nat) → (path : String) → (log : List Event) →
    String × List Event
  | 0, path, log => (path, log)
  | n + 1, path, log => climb server n (getDirPath path) (afterCreate server log path)

/-- Level `n` of the way up, if it is reached, leads further up. -/
def ClimbsAt (server : Server) (path : String) (log : List Event) (n : Nat) : Prop :=
  CreateFails server (climb server n path log).2 (climb server n path log).1

theorem createDir_endless (h : ∀ n, ClimbsAt server path log n) (depth : Nat) :
    ∃ evs, evs.length = depth ∧
      createDir server depth path true s log = (.error .recursion, s, log ++ evs) := by
  induction depth generalizing path log with
  | zero => exact ⟨[], rfl, by simp [createDir]⟩
  | succ depth ih =>
    obtain ⟨evs, hlength, hup⟩ := ih fun n => h (n + 1)
    have h0 : CreateFails server log path := h 0
    refine ⟨.createDirectory path (server.createDirectory log path) :: evs, by simp [hlength], ?_⟩
    rw [createDir_given_up h0 hup rfl]
    simp [afterCreate]

/-- From some depth on, one outcome that is not the interpreter's: the calls of
`create_dir` come to an end of themselves. -/
def Terminates (server : Server) (path : String) (s : State) (log : List Event) : Prop :=
  ∃ n r s' log', r ≠ .error .recursion ∧
    ∀ depth ≥ n, createDir server depth path true s log = (r, s', log')

theorem not_terminates (h : ∀ n, ClimbsAt server path log n) : ¬ Terminates server path s log := by
  rintro ⟨n, r, s', log', hr, hrun⟩
  obtain ⟨evs, -, hn⟩ := createDir_endless (s := s) h n
  rw [hrun n le_rfl] at hn
  exact hr (Prod.mk.inj hn).1

/-- The server that answers the calls of `createDirectory` in this way, and
fails only by an `OperationFailure`. -/
def Server.answering (server : Server) (answer : List Event → String → Except String Unit) :
    Server :=
  { server with createDirectory := fun log path => (answer log path).mapError .operationFailure }

/-- Of the exceptions, only an `OperationFailure`. -/
def OnlyOperationFailure (r : Except Exn Unit) : Prop :=
  ∀ e, r = .error e → ∃ msg, e = .operationFailure msg

theorem OnlyOperationFailure.not_retried (h : OnlyOperationFailure r) :
    ∀ e, r = .error e → retryOn e = false := by
  intro e he
  obtain ⟨msg, rfl⟩ := h e he
  rfl

theorem answering_only (server : Server) (answer : List Event → String → Except String Unit)
    (log : List Event) (path : String) :
    OnlyOperationFailure ((server.answering answer).createDirectory log path) := by
  intro e he
  simp only [Server.answering] at he
  cases ha : answer log path with
  | ok _ => simp [ha, Except.mapError] at he
  | error msg =>
    simp only [ha, Except.mapError, Except.error.injEq] at he
    exact ⟨msg, he.symm⟩

theorem createDir_settles
    (hserver : ∀ log path, OnlyOperationFailure (server.createDirectory log path)) (i : Nat)
    (h : ¬ ClimbsAt server path log i) :
    ∃ r log', OnlyOperationFailure r ∧
      ∀ depth, createDir server (depth + i + 1) path true s log = (r, s, log') := by
  have htop {path : String} {log : List Event} (i : Nat) (h : ¬ CreateFails server log path) :
      ∃ r log', OnlyOperationFailure r ∧
        ∀ depth, createDir server (depth + i + 1) path true s log = (r, s, log') :=
    ⟨_, _, hserver log path, fun depth =>
      createDir_top h (hserver log path).not_retried (depth + i)⟩
  induction i generalizing path log with
  | zero => exact htop 0 h
  | succ i ih =>
    by_cases h0 : CreateFails server log path
    · obtain ⟨r, log', hr, hup⟩ := ih h
      cases r with
      | ok _ =>
        exact ⟨_, _, hserver log' path, fun depth =>
          createDir_down h0 (hup depth) (hserver log' path).not_retried⟩
      | error e =>
        exact ⟨_, _, hr, fun depth => createDir_given_up h0 (hup depth) (hr.not_retried e rfl)⟩
    · exact htop (i + 1) h0

/-- `create_dir` comes to an end of itself if and only if some call on its way
up does not answer `Create failed`. -/
theorem createDir_terminates_iff (server : Server)
    (answer : List Event → String → Except String Unit) (path : String) (s : State)
    (log : List Event) :
    Terminates (server.answering answer) path s log ↔
      ∃ i, ¬ ClimbsAt (server.answering answer) path log i := by
  constructor
  · intro h
    by_contra hall
    exact not_terminates (by simpa using hall) h
  · rintro ⟨i, hi⟩
    obtain ⟨r, log', hr, hrun⟩ := createDir_settles (s := s) (answering_only server answer) i hi
    refine ⟨i + 1, r, s, log', ?_, fun depth hdepth => ?_⟩
    · rintro rfl
      obtain ⟨msg, ⟨⟩⟩ := hr .recursion rfl
    · obtain ⟨k, rfl⟩ := Nat.exists_eq_add_of_le' hdepth
      exact hrun k

/-- A share on which no directory can be created, and no call says that the root is there. -/
theorem createDir_never_ends :
    ¬ Terminates (Server.obliging.answering fun _ _ => .error "Create failed") "logs/today"
      { share := fun _ => none } [] :=
  not_terminates fun _ => ⟨_, rfl, by decide⟩

theorem climb_root (h : path.toList.length ≤ n) : (climb server n path log).1 = "" := by
  induction n generalizing path log with
  | zero => simpa [climb] using h
  | succ n ih =>
    refine ih ?_
    have := getDirPath_shorter path
    omega

/-- It is enough that the server answers for the root otherwise. -/
theorem createDir_terminates_of_root {answer : List Event → String → Except String Unit}
    (hroot : ∀ log, ¬ CreateFails (server.answering answer) log "") :
    Terminates (server.answering answer) path s log := by
  rw [createDir_terminates_iff]
  refine ⟨path.toList.length, ?_⟩
  rw [ClimbsAt, climb_root le_rfl]
  exact hroot _

end

-- ---------------------------------------------------------------------------
-- A share with directories
-- ---------------------------------------------------------------------------

/-- A directory, as the names on the way down to it; the root has none. -/
abbrev Dir := List (List Char)

def pieces (path : String) : Dir := path.toList.splitOnP isSep

def dirOf (path : String) : Dir := (pieces path).filter (· ≠ [])

/-- The directories of a share: the root is among them, and the parent of each. -/
structure Directories where
  mem : Dir → Bool
  root : mem [] = true
  closed : ∀ d name, mem (d ++ [name]) = true → mem d = true

variable (D : Directories)

def Directories.after (log : List Event) (d : Dir) : Bool :=
  D.mem d || log.any fun
    | .createDirectory path (.ok _) => dirOf path == d
    | _ => false

/-- A server that creates a directory in one that is there, and stores a file in one. -/
def Directories.server : Server where
  createDirectory log path :=
    if D.after log (dirOf path).dropLast && !D.after log (dirOf path) then .ok ()
    else .error (.operationFailure "Create failed")
  storeFile log path :=
    if D.after log (dirOf path).dropLast then .stored
    else .raised (.operationFailure "Unable to open file") 0 none
  retrieveFile _ _ := .retrieved

section
variable {D} {path : String} {s : State} {log : List Event} {d : Dir}

theorem dirOf_of_pieces (h : [] ∉ pieces path) : dirOf path = pieces path := by
  rw [dirOf, List.filter_eq_self]
  intro name hname
  simpa using fun hnil : name = [] => h (hnil ▸ hname)

@[simp] theorem after_nil (D : Directories) (d : Dir) : D.after [] d = D.mem d := by
  simp [Directories.after]

@[simp] theorem after_created (D : Directories) (log : List Event) (path : String) (d : Dir) :
    D.after (log ++ [.createDirectory path (.ok ())]) d = (D.after log d || dirOf path == d) := by
  simp [Directories.after, Bool.or_assoc]

@[simp] theorem after_not_created (D : Directories) (log : List Event) (path : String) (e : Exn)
    (d : Dir) : D.after (log ++ [.createDirectory path (.error e)]) d = D.after log d := by
  simp [Directories.after]

@[simp] theorem after_storeFile (D : Directories) (log : List Event) (path : String)
    (r : Except Exn Unit) (d : Dir) : D.after (log ++ [.storeFile path r]) d = D.after log d := by
  simp [Directories.after]

theorem after_root (D : Directories) (log : List Event) : D.after log [] = true := by
  simp [Directories.after, D.root]

theorem mem_of_prefix (h : D.mem d = true) (he : e <+: d) : D.mem e = true := by
  obtain ⟨rest, rfl⟩ := he
  induction rest using List.reverseRecOn with
  | nil => simpa using h
  | append_singleton rest name ih => exact ih (D.closed _ name (by simpa using h))

theorem server_creates (hparent : D.after log (dirOf path).dropLast = true)
    (hnew : D.after log (dirOf path) = false) :
    D.server.createDirectory log path = .ok () := by
  simp [Directories.server, hparent, hnew]

theorem server_refuses (hparent : D.after log (dirOf path).dropLast = false) :
    D.server.createDirectory log path = .error (.operationFailure "Create failed") := by
  simp [Directories.server, hparent]

theorem server_refuses_root (D : Directories) (log : List Event) :
    D.server.createDirectory log "" = .error (.operationFailure "Create failed") := by
  have hroot : dirOf "" = [] := by decide
  simp [Directories.server, hroot, after_root]

theorem createFails_of_refused
    (h : D.server.createDirectory log path = .error (.operationFailure "Create failed")) :
    CreateFails D.server log path :=
  ⟨_, h, by decide⟩

theorem pieces_getDirPath (h : pieces path = ds ++ [name]) (hds : ds ≠ []) (hname : name ≠ [])
    (hline : '\n' ∉ path.toList.dropLast) :
    pieces (getDirPath path) = ds ∧ '\n' ∉ (getDirPath path).toList := by
  obtain ⟨a, sep, hpath, hsep, ha, hb⟩ := splitOnP_eq_concat h hds
  rw [getDirPath_of_sep hpath hsep hb hname hline]
  refine ⟨by simpa [pieces] using ha, fun hmem => hline ?_⟩
  rw [hpath, List.dropLast_append_of_ne_nil (by simp)]
  exact List.mem_append_left _ (by simpa using hmem)

theorem not_createFails (h : D.server.createDirectory log path = .ok ()) :
    ¬ CreateFails D.server log path := by
  rintro ⟨e, he, -⟩
  cases h.symm.trans he

/-- What is above a directory that is there is there too. -/
def AboveThere (D : Directories) (log : List Event) : Prop :=
  ∀ d e, D.after log d = true → e <+: d → D.after log e = true

theorem server_creates_in (hdir : dirOf path = ds ++ [name]) (hparent : D.after log ds = true)
    (hnew : D.after log (ds ++ [name]) = false) (habove : AboveThere D log) :
    D.server.createDirectory log path = .ok () ∧ ∀ d,
      D.after (afterCreate D.server log path) d = true ↔
        D.after log d = true ∨ d <+: ds ++ [name] := by
  have hok : D.server.createDirectory log path = .ok () :=
    server_creates (by simpa [hdir] using hparent) (by rw [hdir, hnew])
  refine ⟨hok, fun d => ?_⟩
  rw [afterCreate, hok, after_created, Bool.or_eq_true, hdir, List.prefix_concat_iff, beq_iff_eq]
  constructor
  · exact fun h => h.imp id fun hd => .inl hd.symm
  · rintro (h | rfl | h)
    · exact .inl h
    · exact .inr rfl
    · exact .inl (habove ds d hparent h)

theorem server_creates_below (hdir : dirOf path = ds ++ [name])
    (hnew : D.after log (ds ++ [name]) = false) (habove : AboveThere D log)
    (hup : ∀ d, D.after log' d = true ↔ D.after log d = true ∨ d <+: ds) :
    D.server.createDirectory log' path = .ok () ∧ ∀ d,
      D.after (afterCreate D.server log' path) d = true ↔
        D.after log d = true ∨ d <+: ds ++ [name] := by
  have habove' : AboveThere D log' := by
    intro d e hd he
    rw [hup] at hd ⊢
    exact hd.imp (habove d e · he) he.trans
  have hnew' : D.after log' (ds ++ [name]) = false := by
    rw [Bool.eq_false_iff, Ne, hup, hnew]
    rintro (h | h)
    · cases h
    · have hle := h.length_le
      rw [List.length_append, List.length_singleton] at hle
      omega
  obtain ⟨hok, hafter⟩ :=
    server_creates_in hdir ((hup ds).mpr (.inr List.prefix_rfl)) hnew' habove'
  refine ⟨hok, fun d => ?_⟩
  have hlonger : d <+: ds → d <+: ds ++ [name] := fun h => h.trans (List.prefix_append _ _)
  rw [hafter, hup, or_assoc, or_iff_right_of_imp hlonger]

/-- `create_dir` creates what is missing on the way down to a directory, and no more. -/
theorem createDir_creates (hpieces : pieces path = ds) (hnames : [] ∉ ds)
    (hline : '\n' ∉ path.toList) (habove : AboveThere D log) (hnew : D.after log ds = false) :
    ∃ log', (∀ d, D.after log' d = true ↔ D.after log d = true ∨ d <+: ds) ∧
      ∀ depth, createDir D.server (depth + ds.length) path true s log = (.ok (), s, log') := by
  induction ds using List.reverseRecOn generalizing path log with
  | nil => exact absurd hpieces (List.splitOnP_ne_nil _ _)
  | append_singleton ds name ih =>
    have hdir : dirOf path = ds ++ [name] := by rw [dirOf_of_pieces (hpieces ▸ hnames), hpieces]
    rw [List.length_append]
    cases hparent : D.after log ds with
    | true =>
      obtain ⟨hok, hafter⟩ := server_creates_in hdir hparent hnew habove
      refine ⟨_, hafter, fun depth => ?_⟩
      have hrun := createDir_top (s := s) (not_createFails hok)
        (fun e he => by cases hok.symm.trans he) (depth + ds.length)
      rw [hok] at hrun
      exact hrun
    | false =>
      have hds : ds ≠ [] := by
        rintro rfl
        simp [after_root] at hparent
      obtain ⟨hpieces', hline'⟩ := pieces_getDirPath hpieces hds (by grind)
        fun h => hline (List.dropLast_subset _ h)
      have hfails : D.server.createDirectory log path =
          .error (.operationFailure "Create failed") :=
        server_refuses (by simpa [hdir] using hparent)
      have hsame (d : Dir) : D.after (afterCreate D.server log path) d = D.after log d := by
        rw [afterCreate, hfails, after_not_created]
      have habove' : AboveThere D (afterCreate D.server log path) := by
        simpa [AboveThere, hsame] using habove
      obtain ⟨log', hup, hrun⟩ := ih hpieces' (by grind) hline' habove' (by rw [hsame, hparent])
      simp only [hsame] at hup
      obtain ⟨hok, hafter⟩ := server_creates_below hdir hnew habove hup
      refine ⟨_, hafter, fun depth => ?_⟩
      have hdown := createDir_down (createFails_of_refused hfails) (hrun depth)
        fun e he => by cases hok.symm.trans he
      rw [hok] at hdown
      exact hdown

-- ---------------------------------------------------------------------------
-- A file in directories that may be missing
-- ---------------------------------------------------------------------------

theorem putFileObj_there (h : D.mem (dirOf path).dropLast = true) (depth : Nat) :
    putFileObj D.server depth path true s [] =
      (.ok (), { s with share := Function.update s.share path (some s.fileObj), fileObj := [] },
        [.storeFile path (.ok ())]) := by
  have hstored : D.server.storeFile [] path = .stored := by simp [Directories.server, h]
  refine retry_run ?_ (by simp) 9
  rw [putFileObjOnce, run_tryCatch, storeFile_of_stored hstored]
  rfl

theorem putFileObjOnce_missing (h : D.mem (dirOf path).dropLast = false) (depth : Nat) :
    let e := .operationFailure "Unable to open file"
    putFileObjOnce D.server depth path true s [] = (do
      createDir D.server depth (getDirPath path) true
      storeFile D.server path) { s with share := Function.update s.share path none }
        [.storeFile path (.error e)] := by
  have hraised : D.server.storeFile [] path =
      .raised (.operationFailure "Unable to open file") 0 none := by
    simp [Directories.server, h]
  have htext : (Exn.operationFailure "Unable to open file").failedWith "Unable to open file" := by
    decide
  rw [putFileObjOnce, run_tryCatch, storeFile_of_raised hraised]
  simp [htext]

theorem after_one_storeFile (D : Directories) (path : String) (r : Except Exn Unit) (d : Dir) :
    D.after [.storeFile path r] d = D.mem d := by
  simpa using after_storeFile D [] path r d

theorem prefix_dropLast_iff {d ds : Dir} (h : ds ≠ []) :
    d <+: ds.dropLast ↔ d <+: ds ∧ d ≠ ds := by
  obtain ⟨front, name, rfl⟩ := (List.eq_nil_or_concat' ds).resolve_left h
  rw [List.dropLast_concat, List.prefix_concat_iff]
  constructor
  · intro hd
    refine ⟨.inr hd, ?_⟩
    rintro rfl
    have hle := hd.length_le
    rw [List.length_append, List.length_singleton] at hle
    omega
  · rintro ⟨rfl | hd, hne⟩
    · exact absurd rfl hne
    · exact hd

/-- The file ends up whole at its path, and its directory with all above it
is there, from some depth of recursion on; nothing else is new. -/
def PutsWithDirs (D : Directories) (path : String) (s : State) : Prop :=
  ∃ n, ∀ depth ≥ n, ∃ log,
    putFileObj D.server depth path true s [] =
      (.ok (), { s with share := Function.update s.share path (some s.fileObj), fileObj := [] },
        log) ∧
    ∀ d, D.after log d = true ↔ D.mem d = true ∨ (d <+: dirOf path ∧ d ≠ dirOf path)

theorem putsWithDirs_there (hpath : dirOf path ≠ [])
    (h : D.mem (dirOf path).dropLast = true) : PutsWithDirs D path s := by
  refine ⟨0, fun depth _ => ⟨_, putFileObj_there h depth, fun d => ?_⟩⟩
  rw [after_one_storeFile, ← prefix_dropLast_iff hpath]
  constructor
  · exact .inl
  · rintro (hd | hd)
    · exact hd
    · exact mem_of_prefix h hd

theorem putsWithDirs_missing (hpieces : pieces path = ds ++ [name]) (hnames : [] ∉ ds ++ [name])
    (hdir : D.mem ds = false) (hline : '\n' ∉ path.toList.dropLast) : PutsWithDirs D path s := by
  have hds : ds ≠ [] := by
    rintro rfl
    cases hdir.symm.trans D.root
  have hpath : dirOf path = ds ++ [name] := by rw [dirOf_of_pieces (hpieces ▸ hnames), hpieces]
  have hparent : (dirOf path).dropLast = ds := by rw [hpath, List.dropLast_concat]
  obtain ⟨hpieces', hline'⟩ := pieces_getDirPath hpieces hds (by grind) hline
  let e : Except Exn Unit := .error (.operationFailure "Unable to open file")
  have hsame (d : Dir) := after_one_storeFile D path e d
  have habove : AboveThere D [.storeFile path e] := by
    intro d d' hd hd'
    rw [hsame] at hd ⊢
    exact mem_of_prefix hd hd'
  obtain ⟨log, hafter, hrun⟩ := createDir_creates
    (s := { s with share := Function.update s.share path none }) hpieces' (by grind) hline' habove
    (by rw [hsame, hdir])
  have hstored : D.server.storeFile log path = .stored := by
    simp [Directories.server, hparent, hafter]
  refine ⟨ds.length, fun depth hdepth => ⟨log ++ [.storeFile path (.ok ())], ?_, fun d => ?_⟩⟩
  · obtain ⟨k, rfl⟩ := Nat.exists_eq_add_of_le' hdepth
    refine retry_run ?_ (by simp) 9
    rw [putFileObjOnce_missing (by rw [hparent, hdir]), run_bind_ok (hrun k),
      storeFile_of_stored hstored]
    simp [Function.update_idem]
  · rw [after_storeFile, hafter, hsame, ← prefix_dropLast_iff (by simp [hpath]), hparent]

/-- With lines in the path its parent is taken to be the root, which cannot be created. -/
theorem not_putsWithDirs (hdir : D.mem (dirOf path).dropLast = false)
    (hlines : '\n' ∈ path.toList.dropLast) : ¬ PutsWithDirs D path s := by
  rintro ⟨n, hruns⟩
  obtain ⟨log, hrun, -⟩ := hruns n le_rfl
  have hclimbs (log : List Event) (i : Nat) : ClimbsAt D.server "" log i := by
    rw [ClimbsAt, climb_root (Nat.zero_le i)]
    exact createFails_of_refused (server_refuses_root D _)
  have honce := putFileObjOnce_missing (s := s) hdir n
  rw [getDirPath_of_lines hlines] at honce
  obtain ⟨evs, -, hendless⟩ := createDir_endless
    (s := { s with share := Function.update s.share path none }) (hclimbs _) n
  have hput : putFileObj D.server n path true s [] = _ :=
    retry_run (honce.trans (run_bind_error hendless)) (by simp [retryOn]) 9
  cases hput.symm.trans hrun

/-- `put_file_obj` creates the directories above a file if and only if the
directory of the file is there, or no line of the path ends before the path does. -/
theorem putFileObj_creates_iff (D : Directories) (path : String) (s : State)
    (h : [] ∉ pieces path) :
    PutsWithDirs D path s ↔
      D.mem (dirOf path).dropLast = true ∨ '\n' ∉ path.toList.dropLast := by
  have hpath : dirOf path = pieces path := dirOf_of_pieces h
  obtain ⟨ds, name, hpieces⟩ := (List.eq_nil_or_concat' (path.toList.splitOnP isSep)).resolve_left
    (List.splitOnP_ne_nil isSep path.toList)
  change pieces path = ds ++ [name] at hpieces
  cases hdir : D.mem (dirOf path).dropLast with
  | true => exact iff_of_true (putsWithDirs_there (by simp [hpath, hpieces]) hdir) (.inl rfl)
  | false =>
    by_cases hlines : '\n' ∈ path.toList.dropLast
    · exact iff_of_false (not_putsWithDirs hdir hlines) (by simp [hlines])
    · rw [hpath, hpieces, List.dropLast_concat] at hdir
      exact iff_of_true (putsWithDirs_missing hpieces (hpieces ▸ h) hdir hlines) (.inr hlines)

def rootOnly : Directories where
  mem d := d == []
  root := rfl
  closed d name h := by simp at h

theorem putFileObj_creates_two :
    PutsWithDirs rootOnly "logs/today\\qs.txt" { share := fun _ => none, fileObj := [113, 115] } :=
  (putFileObj_creates_iff _ _ _ (by decide)).mpr (.inr (by decide))

theorem putFileObj_two_lines : [] ∉ pieces "first\nsecond/qs.txt" ∧
    ¬ PutsWithDirs rootOnly "first\nsecond/qs.txt"
      { share := fun _ => none, fileObj := [113, 115] } :=
  ⟨by decide, not_putsWithDirs (by decide) (by decide)⟩

end

end ShellTests.Smb
