import ShellTests.RemoteFiles

/-!
# Attempts at a file

A file that is not found is tried for ten times, and each attempt may make the
session anew. What ends an attempt tells what becomes of the use.
-/

namespace ShellTests.Remote

open Prog

/-- Calls for the session, of which the last one ends all if it fails, and else
one call about the file. `raise` is what is made of an error. -/
inductive Attempt (raise : Exn → Exn) (event : Except Exn α → Event) :
    Except Exn α → List Event → Prop
  | onFile (evs : List Event) (r : Except Exn α) : (∀ e ∈ evs, e.onFile = false) →
    Attempt raise event (r.mapError raise) (evs ++ [event r])
  | noSession (evs : List Event) (last : Event) (e : Exn) :
    (∀ e ∈ evs ++ [last], e.onFile = false) → last.raised = some e →
    Attempt raise event (.error (raise e)) (evs ++ [last])

def Attempted (raise : Exn → Exn) (event : Except Exn α → Event) :
    Except Exn α → List Event → Prop :=
  Retried Exn.isNotFound (Attempt raise event) 9

namespace Handler

def missing : Handler → Exn → Bool
  | .ftp _ => FTPHandler.missing
  | .scp _ => SCPHandler.missing
  | .tftp _ => TFTPHandler.missing

def raise (h : Handler) (filePath : String) (e : Exn) : Exn :=
  if h.missing e then .notFound filePath else e

/-- The attempts to delete a file, which are none on a TFTP server. -/
def Deletes (h : Handler) (filePath : String) (r : Except Exn Unit) (evs : List Event) : Prop :=
  match h with
  | .ftp _ | .scp _ => Attempted (h.raise filePath) (.delete filePath) r evs
  | .tftp _ => r = .ok () ∧ evs = []

end Handler

theorem accessFile_attempted {raise : Exn → Exn} {session : RemoteProg Unit} {missing : Exn → Bool}
    {op : String → RemoteProg α} {event : Except Exn α → Event} {filePath : String}
    (hsession : ∀ s, Triple session s SetUp)
    (hop : ∀ s, Triple (op filePath) s fun r _ evs => evs = [event r])
    (hraise : ∀ e, raise e = if missing e then .notFound filePath else e) (s : Option String) :
    Triple (accessFile session missing op filePath) s fun r _ evs =>
      Attempted raise event r evs := by
  refine retry_retried (fun s => ?_) 9 s
  have hturn : Triple (do session; op filePath) s fun r _ evs =>
      Attempt raise event (r.mapError raise) evs := by
    refine .bind (hsession s) (fun _ s' evs hevs => ?_) fun e s' evs hevs => ?_
    · refine (hop s').mono fun r _ evs' hevs' => ?_
      rw [hevs']
      exact .onFile evs r hevs.1
    · obtain ⟨pre, last, rfl, hlast⟩ := hevs.2 e rfl
      exact .noSession pre last e hevs.1 hlast
  refine .tryCatch' hturn (fun _ _ _ h => h) fun e s' evs hevs => ?_
  have hraised : Attempt raise event (.error (raise e)) (evs ++ []) := by
    rw [List.append_nil]
    exact hevs
  rw [hraise] at hraised
  split
  · rename_i he
    rw [if_pos he] at hraised
    exact .throw' hraised
  · rename_i he
    rw [if_neg he] at hraised
    exact .throw' hraised

/-- What a use of a file comes to is what its last attempt came to: the content
that the server gave then, `notFound` after ten attempts of which each found no
file, or any other error, which is not tried again. -/
theorem files_attempted (server : Server) (h : Handler) (fileName : String) (s : Option String) :
    Triple (h.readFile server fileName) s (fun r _ evs =>
      Attempted (h.raise (h.getFilePath fileName)) (.read (h.getFilePath fileName)) r evs) ∧
    Triple (h.deleteFile server fileName) s (fun r _ evs =>
      h.Deletes (h.getFilePath fileName) r evs) := by
  have hread (path : String) (s : Option String) :
      Triple (readOp server path) s fun r _ evs => evs = [.read path r] := .call' fun _ => rfl
  have hdelete (path : String) (s : Option String) :
      Triple (deleteOp server path) s fun r _ evs => evs = [.delete path r] := .call' fun _ => rfl
  cases h with
  | ftp conf =>
    exact ⟨accessFile_attempted (FTPHandler.setUp_session conf) (hread _) (fun _ => rfl) s,
      accessFile_attempted (FTPHandler.setUp_session conf) (hdelete _) (fun _ => rfl) s⟩
  | scp conf =>
    exact ⟨accessFile_attempted (SCPHandler.setUp_session conf) (hread _) (fun _ => rfl) s,
      accessFile_attempted (SCPHandler.setUp_session conf) (hdelete _) (fun _ => rfl) s⟩
  | tftp conf =>
    exact ⟨accessFile_attempted (TFTPHandler.setUp_session conf) (hread _) (fun _ => rfl) s,
      .pure' ⟨rfl, rfl⟩⟩

end ShellTests.Remote
