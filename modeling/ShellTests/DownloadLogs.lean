import ShellTests.SmbDownload

/-!
# Downloading the logs

`download_logs` empties a local directory and downloads three directories of
the share to it, each with a filter. The logs of the autoloads are below those
of the shells on both sides, so that the directory of the shells' logs is not
empty when these are downloaded.
-/

namespace ShellTests.Smb.Download

open Prog

section
variable (server : Server) (depth : Nat) (pathToSave : LocalPath) (startTime : Int)
  (reservationIds : List String)

end

-- ---------------------------------------------------------------------------
-- What is not below a path
-- ---------------------------------------------------------------------------

/-- The disk is as it was wherever the path does not lead. -/
def SameOutside (fs₀ : Local) (l : LocalPath) (fs : Local) (_ : List Event) : Prop :=
  ∀ p, ¬ l <+: p → fs p = fs₀ p

/-- What the program does to the disk it does below the path. -/
def StaysBelow (l : LocalPath) (m : DownloadProg α) : Prop :=
  ∀ fs₀, Hoare (SameOutside fs₀ l) m fun _ => SameOutside fs₀ l

section
variable {l l' : LocalPath} {server : Server}

theorem StaysBelow.bind {m : DownloadProg α} {f : α → DownloadProg β} (hm : StaysBelow l m)
    (hf : ∀ a, StaysBelow l (f a)) : StaysBelow l (m >>= f) :=
  fun fs₀ => Hoare.bind (hm fs₀) (fun a => hf a fs₀) fun _ _ _ h => h

theorem StaysBelow.pure (a : α) : StaysBelow l (pure a) := fun _ => .pure' fun _ _ h => h

theorem StaysBelow.throw (e : Exn) : StaysBelow l (throw e : DownloadProg α) :=
  fun _ => .throw' fun _ _ h => h

theorem StaysBelow.tryCatch {m : DownloadProg α} {h : Exn → DownloadProg α}
    (hm : StaysBelow l m) (hh : ∀ e, StaysBelow l (h e)) : StaysBelow l (tryCatch m h) :=
  fun fs₀ => Hoare.tryCatch' (hm fs₀) (fun _ _ _ h => h) fun e => hh e fs₀

theorem SameOutside.update (h : SameOutside fs₀ l fs log) (hl : l <+: l')
    (entry : Option LocalEntry) (log' : List Event) :
    SameOutside fs₀ l (Function.update fs l' entry) log' := by
  intro p hp
  have hne : p ≠ l' := by
    rintro rfl
    exact hp hl
  rw [Function.update_of_ne hne, h p hp]

end

-- ---------------------------------------------------------------------------
-- A directory that is not empty
-- ---------------------------------------------------------------------------

section
variable {fs : Local} {l : LocalPath} {entries : Entries} {take : String → Bool}

end

section
variable {root : Node} {server : Server} {path : String} {entries : Entries} {fs : Local}
  {l : LocalPath} {filterFn : Option (SharedFile → Bool)}

end

-- ---------------------------------------------------------------------------
-- The directory of the logs
-- ---------------------------------------------------------------------------

section
variable {fs : Local} {l : LocalPath}

variable {installation shells autoloads : Entries} {reservationIds : List String}
  {startTime : Int}

end

end ShellTests.Smb.Download
