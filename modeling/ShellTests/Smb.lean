import Mathlib.Logic.Function.Basic
import ShellTests.CloudShell

/-!
# Files on the share of the CloudShell server

`SmbHandler` reads and writes files of the share, each method again on a
transient failure. A call that fails may have done a part of its work: a
failing `storeFile` has taken something out of the file object it was given.
What such a call did is part of the answer.
-/

namespace ShellTests.Smb

open Prog

abbrev Bytes := List UInt8

inductive Exn
  | notReady
  | smbTimeout
  | operationFailure (msg : String)
  | recursion
  | other (msg : String)
  deriving DecidableEq, Repr

/-- `str(e)`; the check of `create_dir` and `put_file_obj` comes after it. -/
def Exn.failedWith (text : String) : Exn → Bool
  | .operationFailure msg => mentions text msg
  | _ => false

/-- `_retry_on` -/
def retryOn : Exn → Bool
  | .notReady | .smbTimeout => true
  | _ => false

inductive Event
  | createDirectory (path : String) (r : Except Exn Unit)
  | storeFile (path : String) (r : Except Exn Unit)
  | retrieveFile (path : String) (r : Except Exn Unit)

def Event.isStoreFile : Event → Bool
  | .storeFile .. => true
  | _ => false

/-- A call that raises has read some of the file object, and leaves something
or nothing at the remote path. -/
inductive StoreReply
  | stored
  | raised (e : Exn) (consumed : Nat) (left : Option Bytes)

/-- A call that raises may have written some of the file to the buffer. -/
inductive RetrieveReply
  | retrieved
  | raised (e : Exn) (written : Nat)

/-- The answers to the calls, in the light of what was called before. A
session that cannot be opened counts as a call that raises and does nothing. -/
structure Server where
  createDirectory : List Event → String → Except Exn Unit
  storeFile : List Event → String → StoreReply
  retrieveFile : List Event → String → RetrieveReply

/-- The files of the share, what is left to read in the file object of
`put_file_obj`, and the buffer of `get_r_file`. -/
structure State where
  share : String → Option Bytes
  fileObj : Bytes := []
  buffer : Bytes := []

/-- A method of `SmbHandler`. -/
abbrev SmbProg (α : Type) := Prog State Exn Event α

variable (server : Server)

def createDirectory (path : String) : SmbProg Unit :=
  Prog.call (server.createDirectory · path) (.createDirectory path)

/-- Reads the file object to its end and puts what it read in place of the
remote file. -/
def storeFile (path : String) : SmbProg Unit := fun s log =>
  match server.storeFile log path with
  | .stored =>
    (.ok (), { s with share := Function.update s.share path (some s.fileObj), fileObj := [] },
      log ++ [.storeFile path (.ok ())])
  | .raised e consumed left =>
    (.error e, { s with share := Function.update s.share path left,
                        fileObj := s.fileObj.drop consumed },
      log ++ [.storeFile path (.error e)])

/-- Appends the remote file to the buffer. -/
def retrieveFile (path : String) : SmbProg Unit := fun s log =>
  match s.share path, server.retrieveFile log path with
  | some content, .retrieved =>
    (.ok (), { s with buffer := s.buffer ++ content }, log ++ [.retrieveFile path (.ok ())])
  | content?, .raised e written =>
    (.error e, { s with buffer := s.buffer ++ (content?.getD []).take written },
      log ++ [.retrieveFile path (.error e)])
  | none, .retrieved =>
    let e := .operationFailure "Unable to open file"
    (.error e, s, log ++ [.retrieveFile path (.error e)])

/-- The group of `re.search(r"^(.*)[\\/](.*?)$", path)`, or nothing: what comes
before the last separator, in a path of one line. -/
def getDirPath (path : String) : String :=
  let chars := path.toList
  let line := if chars.getLast? = some '\n' then chars.dropLast else chars
  if '\n' ∈ line then ""
  else
    let upTo := (line.reverse.dropWhile fun c => c ≠ '/' ∧ c ≠ '\\').drop 1
    String.ofList upTo.reverse

/-- `create_dir`, to a depth at which Python gives up the recursion. -/
def createDir : (depth : Nat) → (path : String) → (parents : Bool) → SmbProg Unit
  | 0, _, _ => throw .recursion
  | depth + 1, path, parents =>
    retry retryOn
      (tryCatch (createDirectory server path) fun e =>
        if parents && e.failedWith "Create failed" then do
          createDir depth (getDirPath path) parents
          createDirectory server path
        else throw e)
      9

def putFileObjOnce (depth : Nat) (path : String) (createDirs : Bool) : SmbProg Unit :=
  tryCatch (storeFile server path) fun e =>
    if createDirs && e.failedWith "Unable to open file" then do
      createDir server depth (getDirPath path) true
      storeFile server path
    else throw e

def putFileObj (depth : Nat) (path : String) (createDirs : Bool := false) : SmbProg Unit :=
  retry retryOn (putFileObjOnce server depth path createDirs) 9

def getRFileOnce (path : String) : SmbProg Bytes := do
  modify fun s => { s with buffer := [] }
  retrieveFile server path
  let s ← get
  pure s.buffer

def getRFile (path : String) : SmbProg Bytes := retry retryOn (getRFileOnce server path) 9

-- ---------------------------------------------------------------------------
-- Uploads that fail and are tried again
-- ---------------------------------------------------------------------------

def StoreReply.consumed : StoreReply → Nat
  | .stored => 0
  | .raised _ consumed _ => consumed

def Server.storing (pattern : Nat → StoreReply) : Server :=
  { server with storeFile := fun log _ => pattern (log.countP Event.isStoreFile) }

def consumedBy (pattern : Nat → StoreReply) : Nat → Nat
  | 0 => 0
  | n + 1 => consumedBy pattern n + (pattern n).consumed

/-- The failures before the first call that does its work read nothing. -/
def FailsUnread (pattern : Nat → StoreReply) : Prop :=
  ∀ i, (∀ j ≤ i, pattern j ≠ .stored) → (pattern i).consumed = 0

/-- All calls of `storeFile` so far failed, and between them left that much of `c`. -/
structure Unsent (pattern : Nat → StoreReply) (c : Bytes) (s : State) (log : List Event) :
    Prop where
  rest : s.fileObj = c.drop (consumedBy pattern (log.countP Event.isStoreFile))
  failed : ∀ i < log.countP Event.isStoreFile, pattern i ≠ .stored

def Sent (pattern : Nat → StoreReply) (path : String) (c : Bytes) (s : State) : Prop :=
  ∃ n, (∀ i < n, pattern i ≠ .stored) ∧ pattern n = .stored ∧
    s.share path = some (c.drop (consumedBy pattern n))

def SentOrNot (pattern : Nat → StoreReply) (path : String) (c : Bytes) :
    Except Exn Unit → State → List Event → Prop
  | .ok _, s, _ => Sent pattern path c s
  | .error _, s, log => Unsent pattern c s log

variable {server : Server} {pattern : Nat → StoreReply} {path : String} {c : Bytes}

theorem storeFile_of_stored (h : server.storeFile log path = .stored) :
    storeFile server path s log =
      (.ok (), { s with share := Function.update s.share path (some s.fileObj), fileObj := [] },
        log ++ [.storeFile path (.ok ())]) := by
  simp only [storeFile, h]

theorem storeFile_of_raised (h : server.storeFile log path = .raised e consumed left) :
    storeFile server path s log =
      (.error e, { s with share := Function.update s.share path left,
                          fileObj := s.fileObj.drop consumed },
        log ++ [.storeFile path (.error e)]) := by
  simp only [storeFile, h]

theorem storeFile_stored (h : pattern (log.countP Event.isStoreFile) = .stored) :
    storeFile (server.storing pattern) path s log =
      (.ok (), { s with share := Function.update s.share path (some s.fileObj), fileObj := [] },
        log ++ [.storeFile path (.ok ())]) :=
  storeFile_of_stored h

theorem storeFile_raised
    (h : pattern (log.countP Event.isStoreFile) = .raised e consumed left) :
    storeFile (server.storing pattern) path s log =
      (.error e, { s with share := Function.update s.share path left,
                          fileObj := s.fileObj.drop consumed },
        log ++ [.storeFile path (.error e)]) :=
  storeFile_of_raised h

theorem storeFile_sends : Hoare (Unsent pattern c) (storeFile (server.storing pattern) path)
    (SentOrNot pattern path c) := by
  intro s log ⟨hrest, hfailed⟩
  cases hp : pattern (log.countP Event.isStoreFile) with
  | stored =>
    refine ⟨_, _, _, storeFile_stored hp, ?_⟩
    exact ⟨_, hfailed, hp, by simp [hrest]⟩
  | raised e consumed left =>
    refine ⟨_, _, _, storeFile_raised hp, ?_, fun i hi => ?_⟩
    · simp [hrest, consumedBy, hp, StoreReply.consumed, Event.isStoreFile]
    · obtain hi | rfl := Nat.lt_succ_iff_lt_or_eq.mp (by simpa [Event.isStoreFile] using hi)
      · exact hfailed i hi
      · simp [hp]

theorem createDir_emits (depth : Nat) (path : String) (parents : Bool) :
    Emits (fun e => e.isStoreFile = false) (createDir server depth path parents) := by
  induction depth generalizing path with
  | zero => exact .throw' _
  | succ depth ih =>
    have hcreate : Emits (fun e => e.isStoreFile = false) (createDirectory server path) :=
      .call' fun _ => rfl
    refine retry_emits (.tryCatch' hcreate fun e => ?_) _ _
    split
    · exact .bind (ih _) fun _ => hcreate
    · exact .throw' e

theorem createDir_unsent (depth : Nat) (dir : String) (parents : Bool) :
    Hoare (Unsent pattern c) (createDir server depth dir parents)
      fun _ => Unsent pattern c := by
  refine .of_triple (createDir_emits depth dir parents) fun s log r s' evs hp ⟨hs, hevs⟩ => ?_
  have hcount : evs.countP Event.isStoreFile = 0 := List.countP_eq_zero.mpr (by simpa using hevs)
  subst hs
  constructor
  · simpa [hcount] using hp.rest
  · simpa [hcount] using hp.failed

theorem putFileObj_sends (depth : Nat) (createDirs : Bool) :
    Hoare (Unsent pattern c) (putFileObj (server.storing pattern) depth path createDirs)
      (SentOrNot pattern path c) := by
  refine retry_hoare (.tryCatch' storeFile_sends (fun _ _ _ h => h) fun e => ?_) _
    (fun _ _ _ h _ => h) 9
  change Hoare (Unsent pattern c) _ _
  split
  · exact .bind (createDir_unsent depth _ true) (fun _ => storeFile_sends) fun _ _ _ h => h
  · exact .throw' fun _ _ h => h

theorem consumedBy_eq_zero (n : Nat) :
    consumedBy pattern n = 0 ↔ ∀ i < n, (pattern i).consumed = 0 := by
  induction n with
  | zero => simp [consumedBy]
  | succ n ih => rw [consumedBy, Nat.add_eq_zero_iff, ih, Nat.forall_lt_succ_right]

theorem failsUnread_iff {n : Nat} (hfailed : ∀ i < n, pattern i ≠ .stored)
    (hn : pattern n = .stored) : FailsUnread pattern ↔ consumedBy pattern n = 0 := by
  rw [consumedBy_eq_zero]
  constructor
  · exact fun h i hi => h i fun j hj => hfailed j (by omega)
  · intro h i hi
    have hin : i < n := by
      by_contra hge
      exact hi n (by omega) hn
    exact h i hin

theorem retrieveFile_reads {content : Option Bytes} :
    Hoare (fun s _ => s.share path = content ∧ s.buffer = []) (retrieveFile server path)
      fun r s _ => s.share path = content ∧ (r = .ok () → content = some s.buffer) := by
  rintro s log ⟨hs, hb⟩
  unfold retrieveFile
  split
  · rename_i content' hc _
    exact ⟨_, _, _, rfl, hs, fun _ => by simp [hb, ← hs, hc]⟩
  · exact ⟨_, _, _, rfl, hs, by simp⟩
  · exact ⟨_, _, _, rfl, hs, by simp⟩

theorem getRFile_reads {content : Option Bytes} :
    Hoare (fun s _ => s.share path = content) (getRFile server path)
      fun r s _ => s.share path = content ∧ ∀ d, r = .ok d → content = some d := by
  refine retry_hoare ?_ _ (fun e s log h _ => h.1) 9
  have hnew : Hoare (fun (s : State) (_ : List Event) => s.share path = content)
      (modify fun s => { s with buffer := [] } : SmbProg Unit)
      fun _ s _ => s.share path = content ∧ s.buffer = [] :=
    .modify' fun s log h => ⟨h, rfl⟩
  refine hnew.bind (fun _ => retrieveFile_reads.bind (fun _ => ?_) ?_) ?_
  · refine .bind (Q := fun r s _ => s.share path = content ∧ content = some s.buffer ∧ r = .ok s)
      (.get' fun s log h => ⟨h.1, h.2 rfl, rfl⟩) (fun s => ?_) (by simp)
    exact .pure' fun s' log h => by simp_all
  · simp_all
  · simp_all

variable {share : String → Option Bytes}

/-- The upload is as it was meant: the remote file holds `c`, and so does what
any later read of it returns. -/
def Uploaded (path : String) (c : Bytes) (s : State) : Prop :=
  s.share path = some c ∧
    ∀ (server : Server) (t : State) log d t' log', t.share path = s.share path →
      getRFile server path t log = (.ok d, t', log') → d = c

/-- An upload that returns stored all of the content if and only if no attempt
before the one that went well had read any of it. -/
theorem putFileObj_uploads (server : Server) (pattern : Nat → StoreReply) (depth : Nat)
    (path : String) (createDirs : Bool) (c : Bytes) (share : String → Option Bytes)
    (h : putFileObj (server.storing pattern) depth path createDirs { share, fileObj := c } [] =
      (.ok (), s', log')) :
    Uploaded path c s' ↔ c = [] ∨ FailsUnread pattern := by
  have hbegin : Unsent pattern c { share, fileObj := c } [] := ⟨rfl, by simp⟩
  obtain ⟨r, s, evs, hrun, hsent⟩ := putFileObj_sends depth createDirs _ _ hbegin
  rw [h] at hrun
  obtain ⟨rfl, rfl, -⟩ : r = .ok () ∧ s = s' ∧ _ := by simpa [eq_comm] using hrun
  obtain ⟨n, hfailed, hn, hs⟩ := hsent
  have hwhole : c.drop (consumedBy pattern n) = c ↔ c = [] ∨ consumedBy pattern n = 0 := by
    constructor
    · intro hd
      have := congrArg List.length hd
      rw [← List.length_eq_zero_iff]
      simp only [List.length_drop] at this
      omega
    · rintro (rfl | h0) <;> simp [*]
  rw [failsUnread_iff hfailed hn, ← hwhole]
  constructor
  · exact fun hup => by simpa [hs] using hup.1
  · intro hd
    rw [hd] at hs
    refine ⟨hs, fun server' t log d t' log' ht hget => ?_⟩
    have hreads : Hoare (fun t _ => t.share path = some c) (getRFile server' path) _ :=
      getRFile_reads
    obtain ⟨r, s₁, evs, hrun, -, hd'⟩ := hreads t log (ht.trans hs)
    rw [hget] at hrun
    obtain ⟨rfl, -⟩ : r = .ok d ∧ _ := by simpa [eq_comm] using hrun
    exact (Option.some.inj (hd' d rfl)).symm

def Server.obliging : Server where
  createDirectory _ _ := .ok ()
  storeFile _ _ := .stored
  retrieveFile _ _ := .retrieved

def oneTimeout (consumed : Nat) : Nat → StoreReply
  | 0 => .raised .smbTimeout consumed none
  | _ => .stored

theorem putFileObj_stores_rest : ∃ s' log',
    putFileObj (Server.obliging.storing (oneTimeout 2)) 0 "pkg.zip" false
      { share := fun _ => none, fileObj := [80, 75, 3] } [] = (.ok (), s', log') ∧
    s'.share "pkg.zip" = some [3] ∧ ¬ Uploaded "pkg.zip" [80, 75, 3] s' := by
  refine ⟨_, _, rfl, rfl, fun h => ?_⟩
  exact absurd h.1 (by decide)

theorem putFileObj_uploads_after_timeout : ∃ s' log',
    putFileObj (Server.obliging.storing (oneTimeout 0)) 0 "pkg.zip" false
      { share := fun _ => none, fileObj := [80, 75, 3] } [] = (.ok (), s', log') ∧
    Uploaded "pkg.zip" [80, 75, 3] s' := by
  refine ⟨_, _, rfl, (putFileObj_uploads .obliging (oneTimeout 0) 0 "pkg.zip" false [80, 75, 3]
    (fun _ => none) rfl).mpr (.inr fun i hi => ?_)⟩
  cases i with
  | zero => rfl
  | succ i => exact absurd rfl (hi (i + 1) (by omega))

theorem putFileObjOnce_stored (h : pattern (log.countP Event.isStoreFile) = .stored) :
    ∃ s' log', putFileObjOnce (server.storing pattern) depth path createDirs s log =
      (.ok (), s', log') :=
  ⟨_, _, by rw [putFileObjOnce, run_tryCatch, storeFile_stored h]⟩

theorem putFileObjOnce_transient
    (h : pattern (log.countP Event.isStoreFile) = .raised e consumed left) (hr : retryOn e) :
    ∃ s', putFileObjOnce (server.storing pattern) depth path createDirs s log =
      (.error e, s', log ++ [.storeFile path (.error e)]) := by
  have hnot : e.failedWith "Unable to open file" = false := by
    cases e <;> simp_all [Exn.failedWith, retryOn]
  rw [putFileObjOnce, run_tryCatch, storeFile_raised h]
  exact ⟨_, by simp only [hnot, Bool.and_false]; rfl⟩

/-- Up to nine transient failures are got over. -/
theorem putFileObj_returns (server : Server) (depth : Nat) (createDirs : Bool) (s : State)
    (hn : n ≤ 9) (hstored : pattern n = .stored)
    (hfailed : ∀ i < n, ∃ e consumed left, pattern i = .raised e consumed left ∧ retryOn e) :
    ∃ s' log', putFileObj (server.storing pattern) depth path createDirs s [] =
      (.ok (), s', log') := by
  suffices h : ∀ k s log, log.countP Event.isStoreFile ≤ n →
      n ≤ log.countP Event.isStoreFile + k →
      ∃ s' log', retry retryOn (putFileObjOnce (server.storing pattern) depth path createDirs) k
        s log = (.ok (), s', log') from
    h 9 s [] (by simp) (by simpa using hn)
  intro k
  induction k with
  | zero =>
    intro s log hle hge
    have hcount : log.countP Event.isStoreFile = n := by omega
    exact putFileObjOnce_stored (hcount ▸ hstored)
  | succ k ih =>
    intro s log hle hge
    obtain hcount | hlt := Nat.eq_or_lt_of_le hle
    · obtain ⟨s', log', h⟩ : ∃ s' log', putFileObjOnce (server.storing pattern) depth path
          createDirs s log = (.ok (), s', log') := putFileObjOnce_stored (hcount ▸ hstored)
      exact ⟨s', log', by rw [retry, run_tryCatch, h]⟩
    · obtain ⟨e, consumed, left, he, hr⟩ := hfailed _ hlt
      obtain ⟨s₁, h⟩ := putFileObjOnce_transient he hr
      obtain ⟨s', log', hrest⟩ := ih s₁ (log ++ [.storeFile path (.error e)])
        (by simp [Event.isStoreFile]; omega)
        (by simp [Event.isStoreFile]; omega)
      exact ⟨s', log', by rw [retry, run_tryCatch, h]; simpa [hr] using hrest⟩

end ShellTests.Smb
