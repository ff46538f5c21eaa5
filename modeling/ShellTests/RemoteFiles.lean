import Mathlib.Data.List.TakeWhile
import ShellTests.DoHandler

/-!
# Files on the FTP, SCP and TFTP servers

A device saves its configuration under a URL made of the `Host` field; the
handlers read the file back and delete it through a session of their own, made
of the `netloc` and the `path` of the same field.
-/

namespace ShellTests

open Prog

structure HostConfig where
  host : String
  deriving DecidableEq, Repr

structure HostWithUserConfig extends HostConfig where
  user : Option String := none
  password : Option String := none
  deriving DecidableEq, Repr

/-- `text.removeprefix(head)` -/
def removeprefix (text head : String) : String :=
  if startsWith head text then String.ofList (text.toList.drop head.toList.length) else text

namespace HostConfig

variable (conf : HostConfig)

def netloc : String := String.ofList (conf.host.toList.takeWhile (· != '/'))

def path : String :=
  let path := removeprefix conf.host conf.netloc
  if path ≠ "" then "/" ++ path else path

end HostConfig

-- ---------------------------------------------------------------------------
-- The handlers
-- ---------------------------------------------------------------------------

namespace Remote

abbrev Bytes := List UInt8

/-- The exceptions of the sessions, and the "file not found" error that each
handler makes of them. -/
inductive Exn
  | ftplib (msg : String)
  | os (msg : String)
  | fileNotFound (msg : String)
  | notFound (fileName : String)
  | other (msg : String)
  deriving DecidableEq, Repr

/-- `str(e)`. -/
def Exn.str : Exn → String
  | .notFound fileName => "File not found - " ++ fileName
  | .ftplib msg | .os msg | .fileNotFound msg | .other msg => msg

/-- `_retry_on_file_not_found` -/
def Exn.isNotFound : Exn → Bool
  | .notFound _ => true
  | _ => false

inductive Event
  | connect (address : String) (r : Except Exn Unit)
  | login (user password : Option String) (r : Except Exn Unit)
  | list (r : Except Exn Unit)
  | read (path : String) (r : Except Exn Bytes)
  | delete (path : String) (r : Except Exn Unit)

/-- The answers to the calls, in the light of what was called before. -/
structure Server where
  connect : List Event → String → Except Exn Unit
  login : List Event → Option String → Option String → Except Exn Unit
  list : List Event → Except Exn Unit
  read : List Event → String → Except Exn Bytes
  delete : List Event → String → Except Exn Unit

def Server.obliging : Server where
  connect _ _ := .ok ()
  login _ _ _ := .ok ()
  list _ := .ok ()
  read _ _ := .ok [0]
  delete _ _ := .ok ()

/-- A method of a handler: what it keeps is the address its session was made for. -/
abbrev RemoteProg (α : Type) := Prog (Option String) Exn Event α

section
variable (server : Server)

def connect (address : String) : RemoteProg Unit :=
  Prog.call (server.connect · address) (.connect address)

def login (user password : Option String) : RemoteProg Unit :=
  Prog.call (server.login · user password) (.login user password)

/-- `_read_file` and `_delete_file`: the session, and one call that may find no
file, up to ten times. -/
def accessFile (session : RemoteProg Unit) (missing : Exn → Bool) (op : String → RemoteProg α)
    (filePath : String) : RemoteProg α :=
  retry Exn.isNotFound
    (tryCatch (do session; op filePath) fun e =>
      if missing e then throw (.notFound filePath) else throw e)
    9

/-- The call for the content; for SCP `open` and `read` are one call here. -/
def readOp (filePath : String) : RemoteProg Bytes :=
  Prog.call (server.read · filePath) (.read filePath)

def deleteOp (filePath : String) : RemoteProg Unit :=
  Prog.call (server.delete · filePath) (.delete filePath)

/-- A `cached_property`. -/
def cachedSession (address : String) (create : RemoteProg Unit) : RemoteProg Unit := do
  match ← get with
  | some _ => pure ()
  | none => do
    create
    modify fun _ => some address

namespace FTPHandler

variable (conf : HostWithUserConfig)

def isSessionAlive : RemoteProg Bool :=
  tryCatch
    (do
      Prog.call server.list .list
      pure true)
    fun e => match e with
      | .ftplib _ | .os _ | .fileNotFound _ => pure false
      | _ => throw e

def hasLiveSession : RemoteProg Bool := do
  match ← get with
  | none => pure false
  | some _ => isSessionAlive server

def session : RemoteProg Unit := do
  if ← hasLiveSession server then
    pure ()
  else do
    connect server conf.host
    modify fun _ => some conf.host
    if conf.user.getD "" ≠ "" ∧ conf.password.getD "" ≠ "" then
      login server conf.user conf.password

def missing : Exn → Bool
  | .ftplib msg => startsWith "550 No such file" msg
  | _ => false

def readFile (filePath : String) : RemoteProg Bytes :=
  accessFile (session server conf) missing (readOp server) filePath

def deleteFile (filePath : String) : RemoteProg Unit :=
  accessFile (session server conf) missing (deleteOp server) filePath

end FTPHandler

namespace SCPHandler

variable (conf : HostWithUserConfig)

def session : RemoteProg Unit :=
  cachedSession conf.netloc do
    connect server conf.netloc
    login server conf.user conf.password

def missing : Exn → Bool
  | .fileNotFound _ => true
  | e => mentions "No such file" e.str

def readFile (filePath : String) : RemoteProg Bytes :=
  accessFile (session server conf) missing (readOp server) filePath

def deleteFile (filePath : String) : RemoteProg Unit :=
  accessFile (session server conf) missing (deleteOp server) filePath

end SCPHandler

namespace TFTPHandler

variable (conf : HostConfig)

def session : RemoteProg Unit := cachedSession conf.host (connect server conf.host)

def missing (e : Exn) : Bool := startsWith "No such file" e.str

def readFile (filePath : String) : RemoteProg Bytes :=
  accessFile (session server conf) missing (readOp server) filePath

-- a warning in the log is all it does
def deleteFile (_filePath : String) : RemoteProg Unit := pure ()

end TFTPHandler

end

inductive Handler
  | ftp (conf : HostWithUserConfig)
  | scp (conf : HostWithUserConfig)
  | tftp (conf : HostConfig)

namespace Handler

variable (server : Server) (h : Handler)

def conf : Handler → HostConfig
  | .ftp conf | .scp conf => conf.toHostConfig
  | .tftp conf => conf

def getFilePath (fileName : String) : String :=
  if h.conf.path ≠ "" then h.conf.path ++ "/" ++ fileName else fileName

def readFile (fileName : String) : RemoteProg Bytes :=
  match h with
  | .ftp conf => FTPHandler.readFile server conf (h.getFilePath fileName)
  | .scp conf => SCPHandler.readFile server conf (h.getFilePath fileName)
  | .tftp conf => TFTPHandler.readFile server conf (h.getFilePath fileName)

def deleteFile (fileName : String) : RemoteProg Unit :=
  match h with
  | .ftp conf => FTPHandler.deleteFile server conf (h.getFilePath fileName)
  | .scp conf => SCPHandler.deleteFile server conf (h.getFilePath fileName)
  | .tftp _ => TFTPHandler.deleteFile (h.getFilePath fileName)

end Handler

-- ---------------------------------------------------------------------------
-- Where a device writes, and what a handler calls
-- ---------------------------------------------------------------------------

/-- The path of the URL that ends in `Host/fileName`: all that follows the netloc. -/
def urlPath (conf : HostConfig) (fileName : String) : String :=
  String.ofList ((conf.host ++ "/" ++ fileName).toList.dropWhile (· != '/'))

namespace Event

def onFile : Event → Bool
  | .read .. | .delete .. => true
  | .connect .. | .login .. | .list _ => false

def raised : Event → Option Exn
  | .connect _ (.error e) | .login _ _ (.error e) | .list (.error e) | .read _ (.error e)
  | .delete _ (.error e) => some e
  | _ => none

end Event

/-- A connection to the netloc, or a call about the file at `path`. -/
def Event.Fits (netloc path : String) : Event → Prop
  | .connect address _ => address = netloc
  | .read p _ | .delete p _ => p = path
  | .login .. | .list _ => True

section
variable (conf : HostConfig)

theorem takeWhile_append_dropWhile_host :
    conf.netloc.toList ++ conf.host.toList.dropWhile (· != '/') = conf.host.toList := by
  simp [HostConfig.netloc, List.takeWhile_append_dropWhile]

theorem dropWhile_host_eq_nil_iff :
    conf.host.toList.dropWhile (· != '/') = [] ↔ '/' ∉ conf.host.toList := by
  rw [List.dropWhile_eq_nil_iff]
  refine ⟨fun h hmem => ?_, fun h c hc => ?_⟩
  · simpa using h '/' hmem
  · simpa using fun heq : c = '/' => h (heq ▸ hc)

variable {conf}

theorem netloc_of_not_mem (h : '/' ∉ conf.host.toList) : conf.netloc = conf.host := by
  rw [← String.toList_inj, ← takeWhile_append_dropWhile_host conf,
    (dropWhile_host_eq_nil_iff conf).mpr h, List.append_nil]

theorem urlPath_of_not_mem (h : '/' ∉ conf.host.toList) (fileName : String) :
    urlPath conf fileName = "/" ++ fileName := by
  rw [← String.toList_inj]
  simp [urlPath, List.dropWhile_append, (dropWhile_host_eq_nil_iff conf).mpr h]

theorem urlPath_of_mem (h : '/' ∈ conf.host.toList) (fileName : String) :
    (urlPath conf fileName).toList =
      conf.host.toList.dropWhile (· != '/') ++ '/' :: fileName.toList := by
  have hne : conf.host.toList.dropWhile (· != '/') ≠ [] := by
    rw [Ne, dropWhile_host_eq_nil_iff, not_not]
    exact h
  simp [urlPath, List.dropWhile_append, hne]

/-- A URL that ends in `Host/fileName` has the netloc and this path behind all else. -/
theorem url_eq (conf : HostConfig) (fileName : String) :
    conf.host ++ "/" ++ fileName = conf.netloc ++ urlPath conf fileName := by
  rw [← String.toList_inj]
  by_cases h : '/' ∈ conf.host.toList
  · rw [String.toList_append, String.toList_append, String.toList_append, urlPath_of_mem h,
      ← List.append_assoc, takeWhile_append_dropWhile_host]
    simp
  · rw [netloc_of_not_mem h, urlPath_of_not_mem h, String.append_assoc]

end

-- ---------------------------------------------------------------------------
-- What the handlers call
-- ---------------------------------------------------------------------------

section
variable {server : Server} {netloc path : String}

theorem accessFile_logs {session : RemoteProg Unit} {missing : Exn → Bool}
    {op : String → RemoteProg α} {P : Event → Prop} (hsession : Logs P session)
    (hop : Logs P (op filePath)) : Logs P (accessFile session missing op filePath) := by
  refine retry_logs (.tryCatch' (.bind hsession fun _ => hop) fun e => ?_) _ 9
  split
  · exact .throw' _
  · exact .throw' _

theorem cachedSession_logs {create : RemoteProg Unit} {P : Event → Prop} (h : Logs P create)
    (address : String) : Logs P (cachedSession address create) := by
  refine .bind .get' fun cached => ?_
  cases cached with
  | some _ => exact .pure' ()
  | none => exact .bind h fun _ => .modify' _

theorem connect_logs (h : address = netloc) :
    Logs (Event.Fits netloc path) (connect server address) :=
  .call' fun _ => h

theorem FTPHandler.session_logs (conf : HostWithUserConfig) (h : conf.host = netloc) :
    Logs (Event.Fits netloc path) (FTPHandler.session server conf) := by
  refine .bind (.bind .get' fun cached => ?_) fun alive => ?_
  · cases cached with
    | none => exact .pure' false
    | some _ =>
      refine .tryCatch' (.bind (.call' fun _ => trivial) fun _ => .pure' true) fun e => ?_
      cases e with
      | ftplib _ | os _ | fileNotFound _ => exact .pure' false
      | notFound _ | other _ => exact .throw' _
  · split
    · exact .pure' ()
    · refine .bind (connect_logs h) fun _ => .bind (.modify' _) fun _ => ?_
      split
      · exact .call' fun _ => trivial
      · exact .pure' ()

theorem SCPHandler.session_logs (conf : HostWithUserConfig) :
    Logs (Event.Fits conf.netloc path) (SCPHandler.session server conf) := by
  refine cachedSession_logs (.bind (connect_logs rfl) fun _ => ?_) _
  exact .call' fun _ => trivial

theorem TFTPHandler.session_logs (conf : HostConfig) (h : conf.host = netloc) :
    Logs (Event.Fits netloc path) (TFTPHandler.session server conf) :=
  cachedSession_logs (connect_logs h) _

theorem deleteFile_logs (h : Handler) (fileName : String) (hhost : h.conf.netloc = h.conf.host) :
    Logs (Event.Fits h.conf.netloc (h.getFilePath fileName)) (h.deleteFile server fileName) := by
  cases h with
  | ftp conf =>
    exact accessFile_logs (FTPHandler.session_logs conf hhost.symm) (.call' fun _ => rfl)
  | scp conf => exact accessFile_logs (SCPHandler.session_logs conf) (.call' fun _ => rfl)
  | tftp conf => exact .pure' ()

variable {s : Option String}

def SetUp (r : Except Exn α) (_ : Option String) (evs : List Event) : Prop :=
  (∀ e ∈ evs, e.onFile = false) ∧
    ∀ e, r = .error e → ∃ pre last, evs = pre ++ [last] ∧ last.raised = some e

theorem SetUp.ok (a : α) (s : Option String) : SetUp (.ok a) s [] := ⟨by simp, by simp⟩

theorem setUp_call {reply : List Event → Except Exn α} {event : Except Exn α → Event}
    (honFile : ∀ r, (event r).onFile = false) (hraised : ∀ e, (event (.error e)).raised = some e) :
    Triple (Prog.call reply event) s SetUp := by
  refine .call' fun r => ⟨by simpa using honFile r, ?_⟩
  rintro e rfl
  exact ⟨[], _, rfl, hraised e⟩

theorem setUp_bind {m : RemoteProg α} {f : α → RemoteProg β} (hm : Triple m s SetUp)
    (hf : ∀ a s', Triple (f a) s' SetUp) : Triple (m >>= f) s SetUp := by
  refine .bind hm (fun a s' evs hevs => ?_) fun e s' evs hevs => ⟨hevs.1, fun e' he' => ?_⟩
  · refine (hf a s').mono fun r _ evs' hevs' => ⟨?_, fun e he => ?_⟩
    · exact fun e he => (List.mem_append.mp he).elim (hevs.1 e) (hevs'.1 e)
    · obtain ⟨pre, last, rfl, hlast⟩ := hevs'.2 e he
      exact ⟨evs ++ pre, last, by simp, hlast⟩
  · exact hevs.2 e' (by simpa using he')

theorem setUp_connect (address : String) : Triple (connect server address) s SetUp :=
  setUp_call (fun _ => rfl) fun _ => rfl

theorem setUp_login (user password : Option String) : Triple (login server user password) s SetUp :=
  setUp_call (fun _ => rfl) fun _ => rfl

theorem setUp_cached {create : RemoteProg Unit} (address : String)
    (hcreate : ∀ s, Triple create s SetUp) (s : Option String) :
    Triple (cachedSession address create) s SetUp := by
  refine setUp_bind (.get' (.ok s s)) fun kept s' => ?_
  cases kept with
  | some _ => exact .pure' (.ok () s')
  | none => exact setUp_bind (hcreate s') fun _ s'' => .modify' (.ok _ _)

theorem FTPHandler.setUp_hasLiveSession (s : Option String) :
    Triple (FTPHandler.hasLiveSession server) s SetUp := by
  refine setUp_bind (.get' (.ok s s)) fun kept s' => ?_
  cases kept with
  | none => exact .pure' (.ok false s')
  | some _ =>
    refine .tryCatch' (setUp_bind (setUp_call (fun _ => rfl) fun _ => rfl) fun _ s' =>
      .pure' (.ok true s')) (fun _ _ _ hevs => hevs) fun e s' evs hevs => ?_
    have hdead : Triple (pure false : RemoteProg Bool) s' fun r s'' evs' =>
        SetUp r s'' (evs ++ evs') := .pure' ⟨by simpa using hevs.1, by simp⟩
    cases e with
    | ftplib _ | os _ | fileNotFound _ => exact hdead
    | notFound _ | other _ => exact .throw' (by simpa using hevs)

theorem FTPHandler.setUp_session (conf : HostWithUserConfig) (s : Option String) :
    Triple (FTPHandler.session server conf) s SetUp := by
  refine setUp_bind (setUp_hasLiveSession s) fun alive s' => ?_
  split
  · exact .pure' (.ok () s')
  · refine setUp_bind (setUp_connect conf.host) fun _ s'' => ?_
    refine setUp_bind (.modify' (.ok _ _)) fun _ s₃ => ?_
    split
    · exact setUp_login conf.user conf.password
    · exact .pure' (.ok () s₃)

theorem SCPHandler.setUp_session (conf : HostWithUserConfig) (s : Option String) :
    Triple (SCPHandler.session server conf) s SetUp :=
  setUp_cached conf.netloc
    (fun _ => setUp_bind (setUp_connect conf.netloc) fun _ _ => setUp_login conf.user conf.password)
    s

theorem TFTPHandler.setUp_session (conf : HostConfig) (s : Option String) :
    Triple (TFTPHandler.session server conf) s SetUp :=
  setUp_cached conf.host (fun _ => setUp_connect conf.host) s

end

-- ---------------------------------------------------------------------------
-- Hosts with a path and hosts without
-- ---------------------------------------------------------------------------

end Remote

end ShellTests
