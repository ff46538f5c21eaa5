import Mathlib.Data.List.Infix
import ShellTests.Lib.Program
import ShellTests.Lib.PyRepr
import ShellTests.Config

/-!
# The CloudShell that the handlers talk to

Exceptions, the remote calls with their answers, and the part of
`CloudShellHandler` that creates and releases things. A call is logged as an
`Event` with its answer; `Api` holds the answers.
-/

namespace ShellTests

/-- The exceptions that the code tells apart. Only `KeyboardInterrupt` is not
an `Exception`. -/
inductive Exn
  | keyboardInterrupt
  | baseAutomation (msg : String)
  | creationReservation (msg : String)
  | csIsNotAlive
  | deploymentResourceNotFound (msg : String)
  | cloudShellApi (code : String) (message : String)
  | shellNotFound
  | key (name : String)
  | attribute (msg : String)
  | assertion (msg : String)
  | os (msg : String)
  | maxRetry (msg : String)
  | other (msg : String)
  deriving DecidableEq, Repr

/-- What `except Exception` catches. -/
def Exn.isException : Exn → Bool
  | .keyboardInterrupt => false
  | _ => true

/-- `str(e)`. The `KeyError` shows its key as `repr` does, with the characters
beyond ASCII taken for printable ones. -/
def Exn.str : Exn → String
  | .keyboardInterrupt | .csIsNotAlive | .shellNotFound => ""
  | .cloudShellApi code message => "CloudShell API error " ++ code ++ ": " ++ message
  | .key name => String.ofList (PyRepr.reprString (fun _ => true) name)
  | .baseAutomation msg | .creationReservation msg | .deploymentResourceNotFound msg
  | .attribute msg | .assertion msg | .os msg | .maxRetry msg | .other msg => msg

/-- `e.args[0] if e.args else ""`, where that is a text: an `OSError` comes with
its number, or with the exception that it wraps. -/
def Exn.firstArg : Exn → Option String
  | .os _ => none
  | .cloudShellApi code _ => some code
  | .key name => some name
  | e => some e.str

def mentions (needle text : String) : Bool := decide (needle.toList <:+: text.toList)

abbrev ReservationId := String

structure ReservationStatus where
  provisioningStatus : String
  status : String
  deriving DecidableEq, Repr

structure ResourceInfo where
  address : String
  attributes : List (String × String)
  deriving DecidableEq, Repr

inductive Event
  | createResource (family model name address parent : String) (r : Except Exn Unit)
  | setAttributesValues (resource : String) (attributes : List (String × String))
      (r : Except Exn Unit)
  | deleteResource (name : String) (r : Except Exn Unit)
  | createImmediateReservation (name : String) (duration : Nat) (r : Except Exn ReservationId)
  | createImmediateTopologyReservation (name topology : String) (duration : Nat)
      (globalInputs : List (String × String)) (r : Except Exn ReservationId)
  | getReservationStatus (rid : ReservationId) (r : Except Exn ReservationStatus)
  | getReservationErrors (rid : ReservationId) (r : Except Exn (List (String × String)))
  | endReservation (rid : ReservationId) (r : Except Exn Unit)
  | addShell (path : String) (r : Except Exn Unit)
  | updateShell (path name : String) (r : Except Exn Unit)
  | deleteShell (name : String) (r : Except Exn Unit)
  | addDependenciesToOfflinePypi (path : String) (r : Except Exn Unit)
  | addExtraStandards (paths : List String) (r : Except Exn Unit)
  | clearOfflinePypi (r : Except Exn Unit)
  | disconnectVcenter (r : Except Exn Unit)
  | getTopologiesByCategory (category : String) (r : Except Exn (List String))
  | getTopologyDetails (topology : String) (r : Except Exn (List String))
  | getReservationResourcesPositions (rid : ReservationId) (r : Except Exn (List String))
  | getResourceDetails (name : String) (r : Except Exn ResourceInfo)
  | connect (host : String) (r : Except Exn Unit)

structure Api where
  createResource : List Event → (family model name address parent : String) → Except Exn Unit
  setAttributesValues : List Event → String → List (String × String) → Except Exn Unit
  deleteResource : List Event → String → Except Exn Unit
  createImmediateReservation : List Event → String → Nat → Except Exn ReservationId
  createImmediateTopologyReservation :
    List Event → String → String → Nat → List (String × String) → Except Exn ReservationId
  getReservationStatus : List Event → ReservationId → Except Exn ReservationStatus
  getReservationErrors : List Event → ReservationId → Except Exn (List (String × String))
  endReservation : List Event → ReservationId → Except Exn Unit
  addShell : List Event → String → Except Exn Unit
  updateShell : List Event → String → String → Except Exn Unit
  deleteShell : List Event → String → Except Exn Unit
  addDependenciesToOfflinePypi : List Event → String → Except Exn Unit
  addExtraStandards : List Event → List String → Except Exn Unit
  clearOfflinePypi : List Event → Except Exn Unit
  disconnectVcenter : List Event → Except Exn Unit
  getTopologiesByCategory : List Event → String → Except Exn (List String)
  getTopologyDetails : List Event → String → Except Exn (List String)
  getReservationResourcesPositions : List Event → ReservationId → Except Exn (List String)
  getResourceDetails : List Event → String → Except Exn ResourceInfo
  connect : List Event → String → Except Exn Unit

def Api.obliging : Api where
  createResource _ _ _ _ _ _ := .ok ()
  setAttributesValues _ _ _ := .ok ()
  deleteResource _ _ := .ok ()
  createImmediateReservation _ name _ := .ok name
  createImmediateTopologyReservation _ name _ _ _ := .ok name
  getReservationStatus _ _ := .ok ⟨"Ready", "Completed"⟩
  getReservationErrors _ _ := .ok []
  endReservation _ _ := .ok ()
  addShell _ _ := .ok ()
  updateShell _ _ _ := .ok ()
  deleteShell _ _ := .ok ()
  addDependenciesToOfflinePypi _ _ := .ok ()
  addExtraStandards _ _ := .ok ()
  clearOfflinePypi _ := .ok ()
  disconnectVcenter _ := .ok ()
  getTopologiesByCategory _ _ := .ok []
  getTopologyDetails _ _ := .ok []
  getReservationResourcesPositions _ _ := .ok []
  getResourceDetails _ _ := .ok ⟨"", []⟩
  connect _ _ := .ok ()

abbrev Cs (σ α : Type) := Prog σ Exn Event α

/-- `try: m except Exception as e: h e`. -/
def exceptException (m : Cs σ α) (h : Exn → Cs σ α) : Cs σ α :=
  tryCatch m fun e => if e.isException then h e else throw e

/-- The `retry` decorator, with so many attempts after the first one. -/
def retry (again : ε → Bool) (m : Prog σ ε ν α) : Nat → Prog σ ε ν α
  | 0 => m
  | n + 1 => tryCatch m fun e => if again e then retry again m n else throw e

section
open Prog

/-- The rule of `retry`: a description that a retried attempt does not spoil. -/
theorem retry_triple {Q : Except ε α → σ → List ν → Prop} {again : ε → Bool} {m : Prog σ ε ν α}
    (hm : ∀ s, Triple m s Q)
    (hagain : ∀ e s evs r s' evs', Q (.error e) s evs → again e → Q r s' evs' →
      Q r s' (evs ++ evs'))
    (n : Nat) (s : σ) : Triple (retry again m n) s Q := by
  induction n generalizing s with
  | zero => exact hm s
  | succ n ih =>
    refine .tryCatch' (hm s) (fun _ _ _ h => h) fun e s' evs hevs => ?_
    split
    · rename_i he
      exact (ih s').mono fun r s'' evs' hevs' => hagain e s' evs r s'' evs' hevs he hevs'
    · exact .throw' (by simpa using hevs)

theorem retry_hoare {P : σ → List ν → Prop} {Q : Except ε α → σ → List ν → Prop}
    {m : Prog σ ε ν α} (hm : Hoare P m Q) (again : ε → Bool)
    (hagain : ∀ e s log, Q (.error e) s log → again e → P s log) (n : Nat) :
    Hoare P (retry again m n) Q := by
  induction n with
  | zero => exact hm
  | succ n ih =>
    refine .tryCatch' hm (fun _ _ _ h => h) fun e s log hq => ?_
    split
    · rename_i he
      exact ih s log (hagain e s log hq he)
    · exact Hoare.throw' (P := Q (.error e)) (fun _ _ h => h) s log hq

theorem retry_emits {P : ν → Prop} {m : Prog σ ε ν α} (hm : Emits P m) (again : ε → Bool)
    (n : Nat) : Emits P (retry again m n) := by
  induction n with
  | zero => exact hm
  | succ n ih =>
    refine .tryCatch' hm fun e => ?_
    split
    · exact ih
    · exact .throw' e

theorem retry_run {again : ε → Bool} {m : Prog σ ε ν α} (h : m s log = (r, s', log'))
    (hr : ∀ e, r = .error e → again e = false) (n : Nat) :
    retry again m n s log = (r, s', log') := by
  cases n with
  | zero => exact h
  | succ n =>
    rw [retry, run_tryCatch, h]
    cases r with
    | ok _ => rfl
    | error e => simp [hr e rfl]

theorem retry_logs {P : ν → Prop} {m : Prog σ ε ν α} (hm : Logs P m) (again : ε → Bool) (n : Nat) :
    Logs P (retry again m n) := by
  induction n with
  | zero => exact hm
  | succ n ih =>
    refine .tryCatch' hm fun e => ?_
    split
    · exact ih
    · exact .throw' e

/-- Events of at most `n` attempts that raised what is retried, and of one that
decides, which comes after `n` others if it raised that as well. -/
def Retried (again : ε → Bool) (Q : Except ε α → List ν → Prop) (n : Nat) (r : Except ε α)
    (evs : List ν) : Prop :=
  ∃ (missed : List (List ν)) (last : List ν), evs = missed.flatten ++ last ∧ missed.length ≤ n ∧
    (∀ attempt ∈ missed, ∃ e, again e ∧ Q (.error e) attempt) ∧ Q r last ∧
    ∀ e, r = .error e → again e → missed.length = n

theorem Retried.one {Q : Except ε α → List ν → Prop} {again : ε → Bool} (hq : Q r evs)
    (hr : ∀ e, r = .error e → again e → n = 0) : Retried again Q n r evs :=
  ⟨[], evs, rfl, by simp, by simp, hq, fun e he hagain => (hr e he hagain).symm⟩

theorem Retried.again {Q : Except ε α → List ν → Prop} {again : ε → Bool}
    (h : Retried again Q n r evs') (he : again e) (hq : Q (.error e) evs) :
    Retried again Q (n + 1) r (evs ++ evs') := by
  obtain ⟨missed, last, rfl, hn, hmissed, hlast, hused⟩ := h
  refine ⟨evs :: missed, last, by simp, by simpa using hn, ?_, hlast, fun e hr he => ?_⟩
  · intro attempt hmem
    rcases List.mem_cons.mp hmem with rfl | hmem
    · exact ⟨e, he, hq⟩
    · exact hmissed attempt hmem
  · simp [hused e hr he]

theorem retry_retried {Q : Except ε α → List ν → Prop} {again : ε → Bool} {m : Prog σ ε ν α}
    (hm : ∀ s, Triple m s fun r _ evs => Q r evs) (n : Nat) (s : σ) :
    Triple (retry again m n) s fun r _ evs => Retried again Q n r evs := by
  induction n generalizing s with
  | zero => exact (hm s).mono fun r _ evs hq => .one hq fun _ _ _ => rfl
  | succ n ih =>
    refine .tryCatch' (hm s) (fun a _ evs hq => .one hq (by simp)) fun e s' evs hq => ?_
    split
    · rename_i he
      exact (ih s').mono fun r _ evs' hr => hr.again he hq
    · rename_i he
      refine .throw' ?_
      rw [List.append_nil]
      refine .one hq ?_
      rintro _ ⟨⟩ hagain
      exact absurd hagain he

end

-- The longest non-empty text without a line break that `tail` comes after.
def greedyBefore (tail : List Char) : List Char → Option (List Char)
  | [] => none
  | c :: cs =>
    if c = '\n' then none
    else match greedyBefore tail cs with
      | some name => some (c :: name)
      | none => if tail.isPrefixOf cs then some [c] else none

def searchBetween (head tail : List Char) : List Char → Option (List Char)
  | [] => none
  | c :: cs =>
    match if head.isPrefixOf (c :: cs) then greedyBefore tail ((c :: cs).drop head.length)
        else none with
    | some name => some name
    | none => searchBetween head tail cs

/-- The group of `re.search("named '(?P<name>.+)' already exists", text)`. -/
def existingShellName (text : String) : Option String :=
  (searchBetween "named '".toList "' already exists".toList text.toList).map String.ofList

namespace CloudShellHandler

variable {σ : Type} (api : Api)

def createReservation (name : String) (duration : Nat) : Cs σ ReservationId :=
  Prog.call (api.createImmediateReservation · name duration)
    (.createImmediateReservation name duration)

def createTopologyReservation (name topologyName : String) (duration : Nat)
    (specificVersion : Option String) : Cs σ ReservationId :=
  let globalInputs := match specificVersion with
    | none | some "" => []
    | some version => [("Version", version)]
  Prog.call (api.createImmediateTopologyReservation · name topologyName duration globalInputs)
    (.createImmediateTopologyReservation name topologyName duration globalInputs)

def getReservationStatus (rid : ReservationId) : Cs σ ReservationStatus :=
  Prog.call (api.getReservationStatus · rid) (.getReservationStatus rid)

def ReservationStatus.isStarted (status : ReservationStatus) : Bool :=
  status.provisioningStatus == "Ready" ||
    status.provisioningStatus == "Not Run" && status.status == "Started"

def waitStartedLoop (rid : ReservationId) : Nat → Cs σ Unit
  | 0 => throw (.creationReservation s!"The reservation {rid} doesn't started")
  | n + 1 => do
    let status ← getReservationStatus api rid
    if ReservationStatus.isStarted status then
      pure ()
    else if status.provisioningStatus == "Error" then
      let errors ← Prog.call (api.getReservationErrors · rid) (.getReservationErrors rid)
      throw (.creationReservation (toString errors))
    else
      waitStartedLoop rid n

def waitReservationIsStarted (rid : ReservationId) : Cs σ Unit := waitStartedLoop api rid 60

def waitCompletedLoop (rid : ReservationId) : Nat → Cs σ Unit
  | 0 => throw (.baseAutomation "Can't end reservation")
  | n + 1 => do
    let status ← getReservationStatus api rid
    if status.status == "Completed" then pure () else waitCompletedLoop rid n

def endReservation (rid : ReservationId) (wait : Bool := true) : Cs σ Unit := do
  Prog.call (api.endReservation · rid) (.endReservation rid)
  if wait then waitCompletedLoop api rid 30

/-- `create_resource` as its callers here call it, without
`create_new_resources_if_exists`: a taken name (code 114) ends the loop like a
created one. -/
def createResource (name model address family parentPath : String) : Cs σ String :=
  tryCatch
    (do
      Prog.call (api.createResource · family model name address parentPath)
        (.createResource family model name address parentPath)
      pure name)
    fun e => match e with
      | .cloudShellApi code _ => if code ≠ "114" then throw e else pure name
      | _ => throw e

def setResourceAttributes (resourceName ns : String) (attributes : List (String × String)) :
    Cs σ Unit :=
  let ns := if ns = "" then "" else ns ++ "."
  let attributes := attributes.map fun (key, value) => (ns ++ key, value)
  Prog.call (api.setAttributesValues · resourceName attributes)
    (.setAttributesValues resourceName attributes)

def deleteResource (name : String) : Cs σ Unit :=
  Prog.call (api.deleteResource · name) (.deleteResource name)

def installShellOnce (shellPath : String) : Cs σ Unit :=
  exceptException (Prog.call (api.addShell · shellPath) (.addShell shellPath)) fun e =>
    match e.firstArg with
    -- the `in` of the next line is a TypeError
    | none => throw (.other "argument is not iterable")
    | some errMsg =>
      if mentions "already exists" errMsg then
        match existingShellName errMsg with
        | some name => Prog.call (api.updateShell · shellPath name) (.updateShell shellPath name)
        | none => throw (.attribute "'NoneType' object has no attribute 'group'")
      else throw e

def retryOnInvalidDriver (e : Exn) : Bool := mentions "invalid driver" e.str.toLower

def installShell (shellPath : String) : Cs σ Unit :=
  retry retryOnInvalidDriver (installShellOnce api shellPath) 6

def removeShell (name : String) : Cs σ Unit :=
  Prog.call (api.deleteShell · name) (.deleteShell name)

/-- `except (OSError, MaxRetryError)` -/
def noConnection : Exn → Bool
  | .os _ | .maxRetry _ => true
  | _ => false

def waitForCsLoop (host : String) : Nat → Cs σ Unit
  | 0 => throw .csIsNotAlive
  | n + 1 => tryCatch (Prog.call (api.connect · host) (.connect host)) fun e =>
    if noConnection e then waitForCsLoop host n else throw e

def waitForCsIsStarted (host : String) : Cs σ Unit := waitForCsLoop api host 10

def getTopologiesByCategory (category : String) : Cs σ (List String) :=
  Prog.call (api.getTopologiesByCategory · category) (.getTopologiesByCategory category)

/-- The names of the apps of a topology. -/
def getTopologyDetails (topology : String) : Cs σ (List String) :=
  Prog.call (api.getTopologyDetails · topology) (.getTopologyDetails topology)

def getResourcesNamesInReservation (rid : ReservationId) : Cs σ (List String) :=
  Prog.call (api.getReservationResourcesPositions · rid) (.getReservationResourcesPositions rid)

def getResourceDetails (name : String) : Cs σ ResourceInfo :=
  Prog.call (api.getResourceDetails · name) (.getResourceDetails name)

end CloudShellHandler

end ShellTests
