import ShellTests.Lib.Machine
import ShellTests.RemoteFiles

/-!
# Sessions with the file servers

A handler keeps one session over all the tests that read and delete files with
it. `Handler.next` says which call may come next, from where the session
stands: an FTP session is listed before each use and made anew if that fails,
the others are made once. Every log is a run of it, whatever the server
answers.
-/

namespace ShellTests.Remote

open Prog Machine

inductive Phase
  | closed
  -- connected, and not logged in
  | opened
  | ready
  -- there is one, which is to be listed first
  | idle
  | dead
  deriving DecidableEq, Repr

def Phase.on (ok bad : Phase) : Except Exn α → Phase
  | .ok _ => ok
  | .error _ => bad

namespace Handler

/-- The answers to LIST that are taken for a session that is not alive. -/
def notAlive : Exn → Bool
  | .ftplib _ | .os _ | .fileNotFound _ => true
  | _ => false

/-- With a user and a password the login comes next. -/
def connected (conf : HostWithUserConfig) : Phase :=
  if conf.user.getD "" ≠ "" ∧ conf.password.getD "" ≠ "" then .opened else .ready

/-- The phase after a call, and `none` for a call that does not come there. -/
def next : Handler → Phase → Event → Option Phase
  | .ftp conf, .closed, .connect address r =>
    if address = conf.host then some (.on (connected conf) .closed r) else none
  | .ftp conf, .dead, .connect address r =>
    if address = conf.host then some (.on (connected conf) .idle r) else none
  | .ftp conf, .opened, .login user password r =>
    if user = conf.user ∧ password = conf.password then some (.on .ready .idle r) else none
  | .ftp _, .idle, .list (.ok _) => some .ready
  | .ftp _, .idle, .list (.error e) => some (if notAlive e then .dead else .idle)
  | .ftp _, .ready, .read _ _ | .ftp _, .ready, .delete _ _ => some .idle
  | .scp conf, .closed, .connect address r =>
    if address = conf.netloc then some (.on .opened .closed r) else none
  | .scp conf, .opened, .login user password r =>
    if user = conf.user ∧ password = conf.password then some (.on .ready .closed r) else none
  | .scp _, .ready, .read _ _ | .scp _, .ready, .delete _ _ => some .ready
  | .tftp conf, .closed, .connect address r =>
    if address = conf.host then some (.on .ready .closed r) else none
  | .tftp _, .ready, .read _ _ => some .ready
  | _, _, _ => none

/-- Between two uses: the phase of what the handler keeps. -/
def rest : Handler → Option String → Phase
  | _, none => .closed
  | .ftp _, some _ => .idle
  | .scp _, some _ | .tftp _, some _ => .ready

end Handler

inductive Op
  | read (fileName : String)
  | delete (fileName : String)
  deriving DecidableEq, Repr

def Op.run (server : Server) (h : Handler) : Op → RemoteProg Unit
  | .read fileName => do
    let _ ← h.readFile server fileName
  | .delete fileName => h.deleteFile server fileName

-- ---------------------------------------------------------------------------
-- Every log is a run
-- ---------------------------------------------------------------------------

def At (h : Handler) (phase : Phase) (log : List Event) : Prop :=
  run h.next .closed log = some phase

def AtRest (h : Handler) (kept : Option String) (log : List Event) : Prop :=
  At h (h.rest kept) log

section
variable {server : Server} {h : Handler} {phase : Phase} {α : Type}

theorem At.snoc (hat : At h phase log) (hnext : h.next phase e = some phase') :
    At h phase' (log ++ [e]) := by
  rw [At, run_append, hat]
  simp [run, hnext]

theorem call_at (h : Handler) (phase : Phase) (reply : List Event → Except Exn α)
    (event : Except Exn α → Event) (after : Except Exn α → Phase)
    (hnext : ∀ r, h.next phase (event r) = some (after r)) (K : Option String → Prop) :
    Hoare (fun kept log => K kept ∧ At h phase log) (Prog.call reply event) fun r kept log =>
      K kept ∧ At h (after r) log := by
  refine .of_triple (fun kept => .call' (Q := fun r kept' evs => kept' = kept ∧ evs = [event r])
    fun r => ⟨rfl, rfl⟩) ?_
  rintro kept log r _ _ ⟨hK, hat⟩ ⟨rfl, rfl⟩
  exact ⟨hK, hat.snoc (hnext r)⟩

def Opens (h : Handler) : Except Exn Unit → Option String → List Event → Prop
  | .ok _, kept, log => kept.isSome ∧ At h .ready log
  | .error _, kept, log => AtRest h kept log

def Lists (h : Handler) : Except Exn Bool → Option String → List Event → Prop
  | .ok true, kept, log => kept.isSome ∧ At h .ready log
  | .ok false, kept, log => kept = none ∧ At h .closed log ∨ kept.isSome ∧ At h .dead log
  | .error _, kept, log => AtRest h kept log

def Connects (conf : HostWithUserConfig) : Except Exn Unit → Option String → List Event → Prop
  | .ok _, _, log => At (.ftp conf) (Handler.connected conf) log
  | .error _, kept, log => AtRest (.ftp conf) kept log

def afterList : Except Exn Unit → Phase
  | .ok _ => .ready
  | .error e => if Handler.notAlive e then .dead else .idle

theorem atRest_ftp (conf : HostWithUserConfig) {kept : Option String} {log : List Event}
    (hkept : kept.isSome) (hat : At (.ftp conf) .idle log) : AtRest (.ftp conf) kept log := by
  obtain ⟨address, rfl⟩ := Option.isSome_iff_exists.mp hkept
  exact hat

theorem isSessionAlive_at (conf : HostWithUserConfig) :
    Hoare (fun kept log => kept.isSome ∧ At (.ftp conf) .idle log)
      (FTPHandler.isSessionAlive server) (Lists (.ftp conf)) := by
  have hlist : Hoare (fun kept log => kept.isSome ∧ At (.ftp conf) .idle log)
      (do
        Prog.call server.list .list
        pure true : RemoteProg Bool) fun r kept log =>
          kept.isSome ∧ At (.ftp conf) (afterList (r.map fun _ => ())) log ∧ r ≠ .ok false := by
    refine .bind (call_at (.ftp conf) .idle _ _ afterList (fun r => by cases r <;> rfl) (·.isSome))
      ?_ ?_
    · exact fun _ => .pure' fun kept log h => ⟨h.1, h.2, by simp⟩
    · exact fun e kept log h => ⟨h.1, h.2, by simp⟩
  refine .tryCatch' hlist ?_ fun e => ?_
  · rintro (_ | _) kept log ⟨hkept, hat, hne⟩
    · exact absurd rfl hne
    · exact ⟨hkept, hat⟩
  · cases e with
    | ftplib _ | os _ | fileNotFound _ => exact .pure' fun kept log h => .inr ⟨h.1, h.2.1⟩
    | notFound _ | other _ => exact .throw' fun kept log h => atRest_ftp conf h.1 h.2.1

theorem hasLiveSession_at (conf : HostWithUserConfig) :
    Hoare (AtRest (.ftp conf)) (FTPHandler.hasLiveSession server) (Lists (.ftp conf)) := by
  refine .bind (Q := fun r kept log => r = .ok kept ∧ AtRest (.ftp conf) kept log)
    (.get' fun kept log h => ⟨rfl, h⟩) (fun kept => ?_) (by rintro _ _ _ ⟨⟨⟩, -⟩)
  cases kept with
  | none =>
    refine .pure' ?_
    rintro _ log ⟨⟨⟩, hat⟩
    exact .inl ⟨rfl, hat⟩
  | some address =>
    rintro _ log ⟨⟨⟩, hat⟩
    exact isSessionAlive_at conf (some address) log ⟨rfl, hat⟩

theorem connect_at (conf : HostWithUserConfig) :
    Hoare (Lists (.ftp conf) (.ok false)) (connect server conf.host) (Connects conf) := by
  rintro kept log (⟨rfl, hat⟩ | ⟨hkept, hat⟩)
  · obtain ⟨r, _, evs, hrun, rfl, hat'⟩ := call_at (.ftp conf) .closed
      (server.connect · conf.host) (.connect conf.host) (.on (Handler.connected conf) .closed)
      (fun _ => if_pos rfl) (· = none) none log ⟨rfl, hat⟩
    exact ⟨r, none, evs, hrun, by cases r <;> exact hat'⟩
  · obtain ⟨r, kept', evs, hrun, hkept', hat'⟩ := call_at (.ftp conf) .dead
      (server.connect · conf.host) (.connect conf.host) (.on (Handler.connected conf) .idle)
      (fun _ => if_pos rfl) (·.isSome) kept log ⟨hkept, hat⟩
    refine ⟨r, kept', evs, hrun, ?_⟩
    cases r with
    | ok _ => exact hat'
    | error e => exact atRest_ftp conf hkept' hat'

theorem FTPHandler.session_at (conf : HostWithUserConfig) :
    Hoare (AtRest (.ftp conf)) (FTPHandler.session server conf) (Opens (.ftp conf)) := by
  refine .bind (hasLiveSession_at conf) (fun alive => ?_) fun _ _ _ h => h
  cases alive with
  | true => exact .pure' fun kept log h => h
  | false =>
    refine .bind (connect_at conf) (fun _ => ?_) fun _ _ _ h => h
    refine .bind (Q := fun r kept log =>
        r = .ok ⟨⟩ ∧ kept.isSome ∧ At (.ftp conf) (Handler.connected conf) log)
      (.modify' fun kept log hat => ⟨rfl, rfl, hat⟩) (fun _ => ?_) (by rintro _ _ _ ⟨⟨⟩, -⟩)
    split
    · rename_i hcreds
      rintro kept log ⟨-, hkept, hat⟩
      rw [Handler.connected, if_pos hcreds] at hat
      obtain ⟨r, kept', evs, hrun, hkept', hat'⟩ := call_at (.ftp conf) .opened
        (server.login · conf.user conf.password) (.login conf.user conf.password)
        (.on .ready .idle) (fun _ => if_pos ⟨rfl, rfl⟩) (·.isSome) kept log ⟨hkept, hat⟩
      refine ⟨r, kept', evs, hrun, ?_⟩
      cases r with
      | ok _ => exact ⟨hkept', hat'⟩
      | error e => exact atRest_ftp conf hkept' hat'
    · rename_i hcreds
      refine .pure' ?_
      rintro kept log ⟨-, hkept, hat⟩
      rw [Handler.connected, if_neg hcreds] at hat
      exact ⟨hkept, hat⟩

theorem cachedSession_at {create : RemoteProg Unit} (address : String)
    (hready : ∀ address, h.rest (some address) = .ready)
    (hcreate : Hoare (fun kept log => kept = none ∧ At h .closed log) create fun r kept log =>
      kept = none ∧ At h (.on .ready .closed r) log) :
    Hoare (AtRest h) (cachedSession address create) (Opens h) := by
  have hnone : h.rest none = .closed := by cases h <;> rfl
  refine .bind (Q := fun r kept log => r = .ok kept ∧ AtRest h kept log)
    (.get' fun kept log hat => ⟨rfl, hat⟩) (fun kept => ?_) (by rintro _ _ _ ⟨⟨⟩, -⟩)
  cases kept with
  | some kept =>
    refine .pure' ?_
    rintro _ log ⟨⟨⟩, hat⟩
    rw [AtRest, hready] at hat
    exact ⟨rfl, hat⟩
  | none =>
    have hmade : Hoare (fun kept log => kept = none ∧ At h .closed log)
        (do create; modify fun _ => some address : RemoteProg Unit) (Opens h) := by
      refine .bind hcreate (fun _ => .modify' fun _ log hat => ⟨rfl, hat.2⟩) ?_
      rintro e _ log ⟨rfl, hat⟩
      rw [Opens, AtRest, hnone]
      exact hat
    rintro _ log ⟨⟨⟩, hat⟩
    rw [AtRest, hnone] at hat
    exact hmade none log ⟨rfl, hat⟩

theorem SCPHandler.session_at (conf : HostWithUserConfig) :
    Hoare (AtRest (.scp conf)) (SCPHandler.session server conf) (Opens (.scp conf)) := by
  have hconnect := call_at (.scp conf) .closed (server.connect · conf.netloc)
    (.connect conf.netloc) (.on .opened .closed) (fun _ => if_pos rfl) (· = none)
  have hlogin := call_at (.scp conf) .opened (server.login · conf.user conf.password)
    (.login conf.user conf.password) (.on .ready .closed) (fun _ => if_pos ⟨rfl, rfl⟩) (· = none)
  exact cachedSession_at conf.netloc (fun _ => rfl)
    (.bind hconnect (fun _ => hlogin) fun _ _ _ hat => hat)

theorem TFTPHandler.session_at (conf : HostConfig) :
    Hoare (AtRest (.tftp conf)) (TFTPHandler.session server conf) (Opens (.tftp conf)) :=
  cachedSession_at conf.host (fun _ => rfl) <|
    call_at (.tftp conf) .closed (server.connect · conf.host) (.connect conf.host)
      (.on .ready .closed) (fun _ => if_pos rfl) (· = none)

theorem accessFile_at {session : RemoteProg Unit} {missing : Exn → Bool}
    {op : String → RemoteProg α} (hsession : Hoare (AtRest h) session (Opens h))
    (hop : Hoare (fun kept log => kept.isSome ∧ At h .ready log) (op filePath) fun _ => AtRest h) :
    Hoare (AtRest h) (accessFile session missing op filePath) fun _ => AtRest h := by
  refine retry_hoare ?_ _ (fun _ _ _ hat _ => hat) 9
  refine .tryCatch' (.bind hsession (fun _ => hop) fun _ _ _ hat => hat) (fun _ _ _ hat => hat)
    fun e => ?_
  split
  · exact .throw' fun _ _ hat => hat
  · exact .throw' fun _ _ hat => hat

theorem op_at {reply : List Event → Except Exn α} {event : Except Exn α → Event}
    (hnext : ∀ r, ∀ address, h.next .ready (event r) = some (h.rest (some address))) :
    Hoare (fun kept log => kept.isSome ∧ At h .ready log) (Prog.call reply event) fun _ =>
      AtRest h := by
  intro kept log hat
  obtain ⟨address, hkept⟩ := Option.isSome_iff_exists.mp hat.1
  obtain ⟨r, kept', evs, hrun, rfl, hat'⟩ :=
    call_at h .ready reply event _ (fun r => hnext r address) (· = some address) kept log
      ⟨hkept, hat.2⟩
  exact ⟨r, _, evs, hrun, hat'⟩

theorem op_run_at (op : Op) : Hoare (AtRest h) (op.run server h) fun _ => AtRest h := by
  cases op with
  | read fileName =>
    refine .bind (Q := fun _ => AtRest h) ?_ (fun _ => .pure' fun _ _ hat => hat)
      fun _ _ _ hat => hat
    cases h with
    | ftp conf => exact accessFile_at (FTPHandler.session_at conf) (op_at fun _ _ => rfl)
    | scp conf => exact accessFile_at (SCPHandler.session_at conf) (op_at fun _ _ => rfl)
    | tftp conf => exact accessFile_at (TFTPHandler.session_at conf) (op_at fun _ _ => rfl)
  | delete fileName =>
    cases h with
    | ftp conf => exact accessFile_at (FTPHandler.session_at conf) (op_at fun _ _ => rfl)
    | scp conf => exact accessFile_at (SCPHandler.session_at conf) (op_at fun _ _ => rfl)
    | tftp conf => exact .pure' fun _ _ hat => hat

/-- The log of the tests of a run, as far as one handler goes. -/
def uses (server : Server) (h : Handler) (ops : List Op) : List Event :=
  newEvents (sweep (Op.run server h) ops) none []

theorem uses_run (server : Server) (h : Handler) (ops : List Op) :
    ∃ phase, At h phase (uses server h ops) := by
  have hsweep : Hoare (AtRest h) (sweep (Op.run server h) ops) fun _ => AtRest h :=
    .each' fun op _ => .tryCatch' (op_run_at op) (fun _ _ _ hat => hat) fun _ =>
      .pure' fun _ _ hat => hat
  have hstart : AtRest h none [] := by cases h <;> rfl
  obtain ⟨r, kept, evs, hrun, hat⟩ := hsweep none [] hstart
  rw [uses, newEvents_of_run hrun]
  exact ⟨_, hat⟩

end

-- ---------------------------------------------------------------------------
-- What that means for the calls
-- ---------------------------------------------------------------------------

namespace Handler

def opens : Handler → Event → Bool
  | .ftp conf, .connect _ (.ok _) => connected conf = .ready
  | .ftp _, .login _ _ (.ok _) | .ftp _, .list (.ok _) => true
  | .scp _, .login _ _ (.ok _) => true
  | .tftp _, .connect _ (.ok _) => true
  | _, _ => false

/-- The session can be used: an FTP session by the last answer, the others
since some answer. -/
def Live : Handler → List Event → Prop
  | .ftp conf, log => ∃ pre e, log = pre ++ [e] ∧ opens (.ftp conf) e
  | h, log => ∃ e ∈ log, h.opens e

/-- There is no session yet, or an FTP session has just failed to answer. -/
def Lacking : Handler → List Event → Prop
  | .ftp _, log => (∀ address, .connect address (.ok ()) ∉ log) ∨
      ∃ pre e, log = pre ++ [.list (.error e)] ∧ notAlive e
  | h, log => ∀ e ∈ log, h.opens e = false

def Connected (log : List Event) : Prop := ∃ address, .connect address (.ok ()) ∈ log

def JustConnected (log : List Event) : Prop :=
  ∃ pre address, log = pre ++ [.connect address (.ok ())]

def address : Handler → String
  | .ftp conf => conf.host
  | .scp conf => conf.netloc
  | .tftp conf => conf.host

/-- The call is in its place after these. -/
def InPlace : Handler → List Event → Event → Prop
  | h, log, .connect address _ => address = h.address ∧ h.Lacking log
  | .ftp conf, log, .login user password _ | .scp conf, log, .login user password _ =>
    user = conf.user ∧ password = conf.password ∧ JustConnected log
  | .ftp _, log, .list _ => Connected log
  | .tftp _, _, .login .. | .scp _, _, .list _ | .tftp _, _, .list _ => False
  | h, log, .read _ _ | h, log, .delete _ _ => h.Live log

def Facts : Handler → Phase → List Event → Prop
  | .ftp _, .closed, log => ∀ address, .connect address (.ok ()) ∉ log
  | .ftp _, .opened, log => JustConnected log
  | .ftp conf, .ready, log => Live (.ftp conf) log ∧ Connected log
  | .ftp _, .idle, log => Connected log
  | .ftp _, .dead, log => (∃ pre e, log = pre ++ [.list (.error e)] ∧ notAlive e) ∧ Connected log
  | h, .ready, log => h.Live log
  | h, .opened, log => h.Lacking log ∧ JustConnected log
  | h, _, log => h.Lacking log

variable {conf : HostWithUserConfig} {h : Handler}

theorem facts_on {event : Except Exn Unit → Event} (hok : h.Facts ok (log ++ [event (.ok ())]))
    (hbad : ∀ e, h.Facts bad (log ++ [event (.error e)])) (r : Except Exn Unit) :
    h.Facts (.on ok bad r) (log ++ [event r]) := by
  cases r with
  | ok _ => exact hok
  | error e => exact hbad e

theorem Connected.append (hc : Connected log) (evs : List Event) : Connected (log ++ evs) := by
  obtain ⟨address, hmem⟩ := hc
  exact ⟨address, List.mem_append_left _ hmem⟩

theorem JustConnected.connected (hc : JustConnected log) : Connected log := by
  obtain ⟨pre, address, rfl⟩ := hc
  exact ⟨address, by simp⟩

theorem justConnected_snoc (log : List Event) (address : String) :
    JustConnected (log ++ [.connect address (.ok ())]) := ⟨log, address, rfl⟩

theorem connected_facts (conf : HostWithUserConfig) (log : List Event) (address : String) :
    Facts (.ftp conf) (connected conf) (log ++ [.connect address (.ok ())]) := by
  have hjust := justConnected_snoc log address
  by_cases hcreds : conf.user.getD "" ≠ "" ∧ conf.password.getD "" ≠ ""
  · rw [connected, if_pos hcreds]
    exact hjust
  · rw [connected, if_neg hcreds]
    exact ⟨⟨log, _, rfl, decide_eq_true (if_neg hcreds)⟩, hjust.connected⟩

theorem ftp_facts_step (hf : Facts (.ftp conf) phase log)
    (hs : next (.ftp conf) phase e = some phase') : Facts (.ftp conf) phase' (log ++ [e]) := by
  cases phase with
  | closed =>
    cases e with
    | connect address r =>
      obtain ⟨-, ⟨⟩⟩ := Option.ite_none_right_eq_some.mp hs
      refine facts_on (connected_facts conf log address) (fun e => ?_) r
      simpa [Facts] using hf
    | _ => cases hs
  | dead =>
    cases e with
    | connect address r =>
      obtain ⟨-, ⟨⟩⟩ := Option.ite_none_right_eq_some.mp hs
      refine facts_on (connected_facts conf log address) (fun e => ?_) r
      exact hf.2.append _
    | _ => cases hs
  | opened =>
    cases e with
    | login user password r =>
      obtain ⟨-, ⟨⟩⟩ := Option.ite_none_right_eq_some.mp hs
      refine facts_on ?_ (fun e => ?_) r
      · exact ⟨⟨log, _, rfl, rfl⟩, hf.connected.append _⟩
      · exact hf.connected.append _
    | _ => cases hs
  | idle =>
    cases e with
    | list r =>
      cases r with
      | ok _ =>
        obtain rfl := Option.some.inj hs
        exact ⟨⟨log, _, rfl, rfl⟩, hf.append _⟩
      | error e =>
        obtain rfl := Option.some.inj hs
        split
        · exact ⟨⟨log, e, rfl, ‹_›⟩, hf.append _⟩
        · exact hf.append _
    | _ => cases hs
  | ready =>
    cases e with
    | read _ _ | delete _ _ =>
      obtain rfl := Option.some.inj hs
      exact hf.2.append _
    | _ => cases hs

theorem lacking_snoc (hl : ∀ e ∈ log, h.opens e = false) (he : h.opens e = false) :
    ∀ e' ∈ log ++ [e], h.opens e' = false := by
  intro e' hmem
  rcases List.mem_append.mp hmem with hmem | hmem
  · exact hl e' hmem
  · rw [List.mem_singleton.mp hmem]
    exact he

theorem live_snoc (log : List Event) (he : h.opens e) : ∃ e' ∈ log ++ [e], h.opens e' :=
  ⟨e, by simp, he⟩

theorem live_append (hl : ∃ e ∈ log, h.opens e) (evs : List Event) :
    ∃ e ∈ log ++ evs, h.opens e := by
  obtain ⟨e, hmem, he⟩ := hl
  exact ⟨e, List.mem_append_left _ hmem, he⟩

theorem scp_facts_step (hf : Facts (.scp conf) phase log)
    (hs : next (.scp conf) phase e = some phase') : Facts (.scp conf) phase' (log ++ [e]) := by
  cases phase with
  | closed =>
    cases e with
    | connect address r =>
      obtain ⟨-, ⟨⟩⟩ := Option.ite_none_right_eq_some.mp hs
      refine facts_on ?_ (fun e => ?_) r
      · exact ⟨lacking_snoc hf rfl, justConnected_snoc log address⟩
      · exact lacking_snoc hf rfl
    | _ => cases hs
  | opened =>
    cases e with
    | login user password r =>
      obtain ⟨-, ⟨⟩⟩ := Option.ite_none_right_eq_some.mp hs
      refine facts_on ?_ (fun e => ?_) r
      · exact live_snoc log rfl
      · exact lacking_snoc hf.1 rfl
    | _ => cases hs
  | ready =>
    cases e with
    | read _ _ | delete _ _ =>
      obtain rfl := Option.some.inj hs
      exact live_append hf _
    | _ => cases hs
  | dead | idle => cases hs

theorem tftp_facts_step {conf : HostConfig} (hf : Facts (.tftp conf) phase log)
    (hs : next (.tftp conf) phase e = some phase') : Facts (.tftp conf) phase' (log ++ [e]) := by
  cases phase with
  | closed =>
    cases e with
    | connect address r =>
      obtain ⟨-, ⟨⟩⟩ := Option.ite_none_right_eq_some.mp hs
      refine facts_on ?_ (fun e => ?_) r
      · exact live_snoc log rfl
      · exact lacking_snoc hf rfl
    | _ => cases hs
  | ready =>
    cases e with
    | read _ _ =>
      obtain rfl := Option.some.inj hs
      exact live_append hf _
    | _ => cases hs
  | opened | dead | idle => cases hs

theorem facts_step (hf : h.Facts phase log) (hs : h.next phase e = some phase') :
    h.Facts phase' (log ++ [e]) := by
  cases h with
  | ftp conf => exact ftp_facts_step hf hs
  | scp conf => exact scp_facts_step hf hs
  | tftp conf => exact tftp_facts_step hf hs

theorem inPlace_of_next (hf : h.Facts phase log) (hs : h.next phase e = some phase') :
    h.InPlace log e := by
  unfold next at hs
  split at hs
  · exact ⟨(Option.ite_none_right_eq_some.mp hs).1, .inl hf⟩
  · exact ⟨(Option.ite_none_right_eq_some.mp hs).1, .inr hf.1⟩
  · obtain ⟨⟨huser, hpassword⟩, -⟩ := Option.ite_none_right_eq_some.mp hs
    exact ⟨huser, hpassword, hf⟩
  · exact hf
  · exact hf
  · exact hf.1
  · exact hf.1
  · exact ⟨(Option.ite_none_right_eq_some.mp hs).1, hf⟩
  · obtain ⟨⟨huser, hpassword⟩, -⟩ := Option.ite_none_right_eq_some.mp hs
    exact ⟨huser, hpassword, hf.2⟩
  · exact hf
  · exact hf
  · exact ⟨(Option.ite_none_right_eq_some.mp hs).1, hf⟩
  · exact hf
  · cases hs

end Handler

/-- However the server answers and whichever files the tests read and delete,
one after the other, each call is in its place. Threads that share a handler do
so without a lock, and are not covered. -/
theorem calls_in_place (server : Server) (h : Handler) (ops : List Op) (pre post : List Event)
    (e : Event) (huses : uses server h ops = pre ++ e :: post) : h.InPlace pre e := by
  obtain ⟨phase, hrun⟩ := uses_run server h ops
  rw [huses, At, run_append] at hrun
  obtain ⟨phase₁, hpre, hrun⟩ := Option.bind_eq_some_iff.mp hrun
  obtain ⟨phase₂, hnext, -⟩ := Option.bind_eq_some_iff.mp hrun
  have hstart : h.Facts .closed [] := by cases h <;> simp [Handler.Facts, Handler.Lacking]
  have hstep (log : List Event) (phase : Phase) (e : Event) (phase' : Phase)
      (hf : h.Facts phase log) (hs : h.next phase e = some phase') :
      h.Facts phase' (log ++ [e]) := Handler.facts_step hf hs
  have hfacts : h.Facts phase₁ ([] ++ pre) := run_invariant hstep hstart hpre
  exact Handler.inPlace_of_next hfacts hnext

theorem calls_in_place_ftp :
    Handler.InPlace (.ftp ⟨⟨"ftp"⟩, some "user", some "password"⟩)
      [.connect "ftp" (.ok ()), .login (some "user") (some "password") (.ok ()),
        .read "a" (.ok [0]), .list (.ok ())]
      (.delete "a" (.ok ())) :=
  calls_in_place .obliging _ [.read "a", .delete "a"] _ [] _ rfl

end ShellTests.Remote

