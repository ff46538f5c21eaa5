import ShellTests.Lib.Program
import ShellTests.Config

/-!
# Sessions with the CloudShell server

`SmbHandler` keeps one session: it tests it before each use, and opens a new
one where there is none that works. The OS user of a config may come with a
domain.
-/

namespace ShellTests.SmbSessions

open Prog

inductive Exn
  | notConnected
  | keyboardInterrupt
  | other (msg : String)
  deriving DecidableEq, Repr

inductive Value
  | text (s : String)
  | list (items : List String)
  deriving DecidableEq, Repr

structure SMBConnection where
  username : String
  password : String
  myName : String
  remoteName : String
  domain : String := ""
  isDirectTcp : Bool := false
  deriving DecidableEq, Repr

structure SmbHandler where
  domain : Value
  username : String
  password : String
  client : String
  serverIp : String
  serverName : String
  share : String
  session : Option SMBConnection := none
  deriving DecidableEq, Repr

/-- Without a port the call takes the library's own. -/
inductive Event
  | echo (session : SMBConnection) (r : Except Exn Unit)
  | connect (session : SMBConnection) (ip : String) (port : Option Nat) (r : Except Exn Unit)

structure Server where
  echo : List Event → SMBConnection → Except Exn Unit
  connect : List Event → SMBConnection → (ip : String) → (port : Option Nat) → Except Exn Unit

abbrev SmbProg (α : Type) := Prog SmbHandler Exn Event α

/-- `username.split("\\")` -/
def splitUser (username : String) : List String :=
  (username.toList.splitOn '\\').map String.ofList

/-- `__init__`, on a client of this name. -/
def SmbHandler.init (client username password ip serverName share : String) : SmbHandler where
  domain := if '\\' ∈ username.toList then .list (splitUser username) else .text ""
  username := username
  password := password
  client := client
  serverIp := ip
  serverName := serverName
  share := share

def CloudShellSmbHandler.init (client : String) (conf : CloudShellConfig) : SmbHandler :=
  .init client conf.osUser conf.osPassword conf.host "User-PC" "C$"

section
variable (server : Server)

def echo (s : SMBConnection) : SmbProg Unit := Prog.call (server.echo · s) (.echo s)

def connect (s : SMBConnection) (ip : String) (port : Option Nat) : SmbProg Unit :=
  Prog.call (server.connect · s ip port) (.connect s ip port)

/-- The session that is there is dropped when it fails its test. -/
def testSession : SmbProg Unit := do
  match (← get).session with
  | some s => tryCatch (echo server s) fun e => match e with
    | .keyboardInterrupt => throw e
    | _ => modify fun h => { h with session := none }
  | none => pure ()

/-- `self._session = s` and then `connect`. -/
def openSession (s : SMBConnection) (port : Option Nat) : SmbProg Unit := do
  modify fun h => { h with session := some s }
  connect server s (← get).serverIp port

def session : SmbProg SMBConnection := do
  testSession server
  let h ← get
  match h.session with
  | some s => pure s
  | none =>
    let s : SMBConnection :=
      { username := h.username, password := h.password, myName := h.client,
        remoteName := h.serverName }
    tryCatch
      (do
        openSession server s none
        pure s)
      fun e => match e with
        | .notConnected => do
          let s := { s with isDirectTcp := true }
          openSession server s (some 445)
          pure s
        | _ => throw e

def uses (n : Nat) : SmbProg Unit :=
  sweep (fun _ => do let _ ← session server) (List.replicate n ())

end

-- ---------------------------------------------------------------------------
-- Whom a session authenticates
-- ---------------------------------------------------------------------------

def Event.OpensAs (domain username : String) : Event → Prop
  | .connect s _ _ _ => s.username = username ∧ s.domain = domain
  | .echo .. => True

/-- A handler that logs in as this user of this domain, however often its
session has to be opened. -/
structure LogsInAs (server : Server) (h : SmbHandler) (domain username : String) : Prop where
  hasDomain : h.domain = .text domain
  hasUsername : h.username = username
  sessions : ∀ n, ∀ ev ∈ (uses server n h []).2.2, ev.OpensAs domain username

section
variable {server : Server} {username : String}

/-- The handler has the user name of the config, and every session is of that
name without a domain. -/
def Invariant (username : String) (h : SmbHandler) (log : List Event) : Prop :=
  h.username = username ∧ ∀ ev ∈ log, ev.OpensAs "" username

theorem openSession_keeps {s : SMBConnection} (hs : s.username = username ∧ s.domain = "")
    (port : Option Nat) :
    Hoare (Invariant username) (openSession server s port) fun _ => Invariant username := by
  intro h log ⟨hname, hlog⟩
  refine ⟨_, _, [.connect s h.serverIp port (server.connect log s h.serverIp port)], rfl, hname,
    fun ev hev => ?_⟩
  rcases List.mem_append.mp hev with hev | hev
  · exact hlog ev hev
  · rw [List.mem_singleton.mp hev]
    exact hs

theorem get_keeps :
    Hoare (Invariant username) (get : SmbProg SmbHandler) fun r h log =>
      Invariant username h log ∧ r = .ok h :=
  .get' fun _ _ hinv => ⟨hinv, rfl⟩

theorem opened_keeps {s : SMBConnection} (hs : s.username = username ∧ s.domain = "")
    (port : Option Nat) :
    Hoare (Invariant username) (do openSession server s port; pure s) fun _ =>
      Invariant username :=
  .bind (openSession_keeps hs port) (fun _ => .pure' fun _ _ hinv => hinv) fun _ _ _ hinv => hinv

theorem testSession_keeps :
    Hoare (Invariant username) (testSession server) fun _ => Invariant username := by
  refine .bind get_keeps (fun h => ?_) fun _ _ _ hinv => hinv.1
  split
  next s _ =>
    refine .tryCatch' (Q := fun _ => Invariant username) ?_ (fun _ _ _ hinv => hinv) fun e => ?_
    · rintro h' log ⟨⟨hname, hlog⟩, -⟩
      refine ⟨_, _, [.echo s (server.echo log s)], rfl, hname, fun ev hev => ?_⟩
      rcases List.mem_append.mp hev with hev | hev
      · exact hlog ev hev
      · rw [List.mem_singleton.mp hev]
        trivial
    · split
      · exact .throw' fun _ _ hinv => hinv
      · exact .modify' fun _ _ hinv => hinv
  next => exact .pure' fun _ _ hinv => hinv.1

theorem session_keeps :
    Hoare (Invariant username) (session server) fun _ => Invariant username := by
  refine .bind testSession_keeps (fun _ => ?_) fun _ _ _ hinv => hinv
  refine .bind get_keeps (fun h => ?_) fun _ _ _ hinv => hinv.1
  split
  next => exact .pure' fun _ _ hinv => hinv.1
  next =>
    by_cases hname : h.username = username
    · refine .tryCatch' (Q := fun _ => Invariant username) ?_ (fun _ _ _ hinv => hinv) fun e => ?_
      · exact fun h' log hp => opened_keeps ⟨hname, rfl⟩ none h' log hp.1
      · split
        · exact opened_keeps ⟨hname, rfl⟩ (some 445)
        · exact .throw' fun _ _ hinv => hinv
    · rintro h' log ⟨⟨hname', -⟩, heq⟩
      cases heq
      exact absurd hname' hname

theorem uses_keeps (n : Nat) :
    Hoare (Invariant username) (uses server n) fun _ => Invariant username := by
  refine .each' fun _ _ => .tryCatch' (Q := fun _ => Invariant username) ?_
    (fun _ _ _ hinv => hinv) fun _ => .pure' fun _ _ hinv => hinv
  exact .bind session_keeps (fun _ => .pure' fun _ _ hinv => hinv) fun _ _ _ hinv => hinv

theorem sessions_whole (server : Server) (client : String) (conf : CloudShellConfig) (n : Nat) :
    ∀ ev ∈ (uses server n (CloudShellSmbHandler.init client conf) []).2.2,
      ev.OpensAs "" conf.osUser := by
  have hstart : Invariant conf.osUser (CloudShellSmbHandler.init client conf) [] := ⟨rfl, nofun⟩
  obtain ⟨r, h', evs, hrun, hinv⟩ := uses_keeps n _ [] hstart
  rw [hrun]
  exact hinv.2

end

def Splits (server : Server) (client : String) (conf : CloudShellConfig) : Prop :=
  (∀ domain username, conf.osUser = domain ++ "\\" ++ username →
    LogsInAs server (CloudShellSmbHandler.init client conf) domain username) ∧
  ('\\' ∉ conf.osUser.toList →
    LogsInAs server (CloudShellSmbHandler.init client conf) "" conf.osUser)

theorem exists_sides {text : String} (h : '\\' ∈ text.toList) :
    ∃ left right, text = left ++ "\\" ++ right := by
  obtain ⟨left, right, hsplit⟩ := List.mem_iff_append.mp h
  refine ⟨String.ofList left, String.ofList right, ?_⟩
  rw [← String.toList_inj, hsplit]
  simp

/-- It is exactly when it has no backslash. -/
theorem splits_iff (server : Server) (client : String) (conf : CloudShellConfig) :
    Splits server client conf ↔ '\\' ∉ conf.osUser.toList := by
  constructor
  · rintro ⟨hsides, -⟩ hmem
    obtain ⟨domain, username, heq⟩ := exists_sides hmem
    have hdomain := (hsides domain username heq).hasDomain
    rw [CloudShellSmbHandler.init, SmbHandler.init, if_pos hmem] at hdomain
    cases hdomain
  · intro hno
    refine ⟨fun domain username heq => absurd (by simp [heq]) hno, fun _ => ?_⟩
    exact ⟨if_neg hno, rfl, sessions_whole server client conf⟩

def Server.direct : Server where
  echo _ _ := .ok ()
  connect _ _ _ port := if port = some 445 then .ok () else .error .notConnected

def domainConfig : CloudShellConfig :=
  { host := "10.0.0.3", user := "admin", password := "admin", osUser := "CORP\\tester",
    osPassword := "pass" }

/-- The domain is a list, and the session is of a user `CORP\tester` of no domain. -/
theorem splits_not :
    let h := CloudShellSmbHandler.init "client" domainConfig
    h.domain = .list ["CORP", "tester"] ∧ h.username = "CORP\\tester" ∧
      (uses Server.direct 1 h []).2.1.session = some
        { username := "CORP\\tester", password := "pass", myName := "client",
          remoteName := "User-PC", domain := "", isDirectTcp := true } ∧
      ¬ Splits Server.direct "client" domainConfig := by
  refine ⟨by decide, rfl, rfl, fun h => ?_⟩
  have hdomain := (h.1 "CORP" "tester" rfl).hasDomain
  revert hdomain
  decide

end ShellTests.SmbSessions
