import Mathlib.Data.List.Basic
import ShellTests.Handlers

/-!
# HandlerStorage

The storage that builds the handlers lazily and finishes them, from
`handler_storage.py`. Here it is read by one thread; the threads that read it
together are in `StorageThreads`.
-/

namespace ShellTests

open Prog

/-- The memo fields of the storage: `none` until the first read of a property. -/
structure HandlerStorage where
  conf : MainConfig
  shellMemo : Option (List ShellHandler) := none
  resourceMemo : Option (List ResourceHandler) := none
  sandboxMemo : Option (List SandboxHandler) := none
  hasVcenter : Bool := false
  deriving DecidableEq, Repr

namespace HandlerStorage

/-- `if memo is not None: for h in memo: f h`. -/
def eachHeld (f : α → Cs σ Unit) : Option (List α) → Cs σ Unit
  | none => pure ()
  | some handlers => each f handlers

def finish (api : Api) : Cs HandlerStorage Unit := do
  let st ← get
  eachHeld (SandboxHandler.finish api ·) st.sandboxMemo
  eachHeld (ResourceHandler.finish api) st.resourceMemo
  eachHeld (ShellHandler.finish api st.conf.hasCsSmb) st.shellMemo
  if st.hasVcenter then Prog.call api.disconnectVcenter .disconnectVcenter

-- ---------------------------------------------------------------------------
-- Reading a property
-- ---------------------------------------------------------------------------

/-- How the tasks of one executor go: the answers that each task gets, and the
order in which the set of its futures is iterated. -/
structure Pool (η : Type) where
  api : Nat → Api
  iterate : List (Except Exn η) → List (Except Exn η)
  perm : ∀ futures, (iterate futures).Perm futures

structure World where
  api : Api
  shells : Pool ShellHandler
  resources : Pool ResourceHandler
  sandboxes : Pool SandboxHandler

def World.of (api : Api) : World where
  api
  shells := { api := fun _ => api, iterate := id, perm := fun _ => .refl _ }
  resources := { api := fun _ => api, iterate := id, perm := fun _ => .refl _ }
  sandboxes := { api := fun _ => api, iterate := id, perm := fun _ => .refl _ }

/-- A lazy property of the storage: its memo field, its confs, and what it
looks up before it submits the creation for one of them. -/
structure Section (κ ρ η : Type) where
  memo : HandlerStorage → Option (List η)
  setMemo : List η → HandlerStorage → HandlerStorage
  confs : MainConfig → List κ
  lookup : κ → Cs HandlerStorage ρ
  create : Api → HandlerStorage → κ → ρ → Cs Unit η

variable {κ ρ η : Type}

/-- The set comprehension that submits the tasks. The executor runs them at the
same time, in any order; here each is done before the next lookup. Results for
which the order matters (two confs of one name) are stated for different names
or over `StorageThreads`, where a task ends at any time. A lookup that raises
leaves the earlier tasks run. -/
def Section.submit (p : Section κ ρ η) (api : Nat → Api) : Nat → List κ →
    Cs HandlerStorage (List (Except Exn η))
  | _, [] => pure []
  | i, conf :: confs => do
    let needed ← p.lookup conf
    let st ← get
    let future ← spawn (p.create (api i) st conf needed)
    let futures ← p.submit api (i + 1) confs
    pure (future :: futures)

def handlersOf (futures : List (Except Exn η)) : List η := futures.filterMap Except.toOption

/-- The exception that the loop over the futures is left with. -/
def lastException : List (Except Exn η) → Option Exn
  | [] => none
  | .ok _ :: futures => lastException futures
  | .error e :: futures => some ((lastException futures).getD e)

def Section.read (p : Section κ ρ η) (api : Api) (pool : Pool η) : Cs HandlerStorage (List η) := do
  match p.memo (← get) with
  | some handlers => pure handlers
  | none =>
    modify (p.setMemo [])
    let futures ← p.submit pool.api 0 (p.confs (← get).conf)
    let done := pool.iterate futures
    modify (p.setMemo (handlersOf done))
    match lastException done with
    | some e => do
      finish api
      throw e
    | none => pure (handlersOf done)

def shells : Section ShellConfig Unit ShellHandler where
  memo st := st.shellMemo
  setMemo handlers st := { st with shellMemo := some handlers }
  confs conf := conf.shellsConf
  lookup _ := pure ()
  create api st conf _ := ShellHandler.create api st.conf.hasCsSmb conf

def shellHandlers (w : World) : Cs HandlerStorage (List ShellHandler) := shells.read w.api w.shells

/-- `_get_handlers_dict(handlers)[name]`: the last handler of the name. -/
def shellNamed (name : String) (handlers : List ShellHandler) : Option ShellHandler :=
  handlers.reverse.find? (·.conf.name = name)

def lookupShell (w : World) (conf : ResourceConfig) : Cs HandlerStorage ShellHandler := do
  match shellNamed conf.shellName (← shellHandlers w) with
  | some shell => pure shell
  | none => throw (.key conf.shellName)

def resources (w : World) : Section ResourceConfig ShellHandler ResourceHandler where
  memo st := st.resourceMemo
  setMemo handlers st := { st with resourceMemo := some handlers }
  confs conf := conf.resourcesConf
  lookup := lookupShell w
  create api _ conf shell := ResourceHandler.create api conf shell

def resourceHandlers (w : World) : Cs HandlerStorage (List ResourceHandler) :=
  (resources w).read w.api w.resources

def sandboxes : Section SandboxConfig Unit SandboxHandler where
  memo st := st.sandboxMemo
  setMemo handlers st := { st with sandboxMemo := some handlers }
  confs conf := conf.sandboxesConf
  lookup _ := pure ()
  create api _ conf _ := SandboxHandler.create api conf

def sandboxHandlers (w : World) : Cs HandlerStorage (List SandboxHandler) :=
  sandboxes.read w.api w.sandboxes

end HandlerStorage

end ShellTests
