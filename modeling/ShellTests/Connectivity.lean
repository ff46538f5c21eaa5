import Mathlib.Logic.Function.Basic
import ShellTests.Handlers
import ShellTests.ResourceTree

/-!
# The device under test of a connectivity test

`TestConnectivity` borrows another resource of its sandbox: it adds it to the
reservation, runs the test, and removes it again, whatever it was before.
-/

namespace ShellTests.Connectivity

open Prog
open ResourceTree (Resource findPorts)

structure ResourceHandler where
  id : Nat
  confName : String
  name : String
  autoloadFinished : Bool
  isAutoloadSuccess : Bool
  deriving DecidableEq, Repr

inductive Event
  | addResources (rid : ReservationId) (name : String) (r : Except Exn Unit)
  | removeResources (rid : ReservationId) (name : String) (r : Except Exn Unit)
  | getResourceDetails (name : String) (r : Except Exn Resource)
  | updatePhysicalConnection (port1 port2 : String) (r : Except Exn Unit)
  | setConnectors (rid : ReservationId) (port1 port2 connector : String) (r : Except Exn Unit)
  | connectRoutes (rid : ReservationId) (ports : List String) (r : Except Exn Unit)
  | disconnectRoutes (rid : ReservationId) (ports : List String) (r : Except Exn Unit)
  | removeConnectors (rid : ReservationId) (ports : List String) (r : Except Exn Unit)

/-- The answers to the calls. A device is added and removed by one call each. -/
structure Api where
  addResources : ReservationId → String → Except Exn Unit
  removeResources : ReservationId → String → Except Exn Unit
  getResourceDetails : List Event → String → Except Exn Resource
  updatePhysicalConnection : List Event → String → String → Except Exn Unit
  setConnectors : List Event → ReservationId → String → String → String → Except Exn Unit
  connectRoutes : List Event → ReservationId → List String → Except Exn Unit
  disconnectRoutes : List Event → ReservationId → List String → Except Exn Unit
  removeConnectors : List Event → ReservationId → List String → Except Exn Unit

structure State where
  sandboxHandler : Nat → Option SandboxHandler
  members : ReservationId × String → Bool

abbrev ConnProg (α : Type) := Prog State Exn Event α

variable (api : Api)

/-- A call that puts a resource into a reservation or takes it out, if it does not raise. -/
def callMembership (answer : ReservationId → String → Except Exn Unit)
    (event : ReservationId → String → Except Exn Unit → Event) (member : Bool)
    (rid : ReservationId) (name : String) : ConnProg Unit := fun s log =>
  match answer rid name with
  | .ok () =>
    (.ok (), { s with members := Function.update s.members (rid, name) member },
      log ++ [event rid name (.ok ())])
  | .error e => (.error e, s, log ++ [event rid name (.error e)])

def setSandboxHandler (h : ResourceHandler) (sandbox : Option SandboxHandler) : ConnProg Unit :=
  modify fun s => { s with sandboxHandler := Function.update s.sandboxHandler h.id sandbox }

def addResourceToReservation (sandbox : SandboxHandler) (h : ResourceHandler) : ConnProg Unit := do
  callMembership api.addResources .addResources true sandbox.reservationId h.name
  setSandboxHandler h (some sandbox)

def removeResourceFromReservation (sandbox : SandboxHandler) (h : ResourceHandler) :
    ConnProg Unit := do
  callMembership api.removeResources .removeResources false sandbox.reservationId h.name
  setSandboxHandler h none

def addPhysicalConnection (port1 port2 : String) : ConnProg Unit :=
  Prog.call (api.updatePhysicalConnection · port1 port2) (.updatePhysicalConnection port1 port2)

def connectPortsWithConnector (sandbox : SandboxHandler) (port1 port2 connector : String) :
    ConnProg Unit := do
  let rid := sandbox.reservationId
  Prog.call (api.setConnectors · rid port1 port2 connector)
    (.setConnectors rid port1 port2 connector)
  Prog.call (api.connectRoutes · rid [port1, port2]) (.connectRoutes rid [port1, port2])

def removeConnector (sandbox : SandboxHandler) (port1 port2 : String) : ConnProg Unit := do
  let rid := sandbox.reservationId
  Prog.call (api.disconnectRoutes · rid [port1, port2]) (.disconnectRoutes rid [port1, port2])
  Prog.call (api.removeConnectors · rid [port1, port2]) (.removeConnectors rid [port1, port2])

-- ---------------------------------------------------------------------------
-- TestConnectivity
-- ---------------------------------------------------------------------------

def getDetails (h : ResourceHandler) : ConnProg Resource :=
  Prog.call (api.getResourceDetails · h.name) (.getResourceDetails h.name)

def getPortNamesForConnectivity (info : Resource) : ConnProg (String × String) :=
  match findPorts info with
  | port1 :: port2 :: _ => pure (port1.name, port2.name)
  | ports => throw (.baseAutomation
      (s!"Resource {info.name} has too few ports for " ++ s!"connectivity {ports.length}"))

-- `self.handler_storage.resource_handlers`, and `self.handler`
variable (handlers : List ResourceHandler) (tester : ResourceHandler)

/-- `self.handler.sandbox_handler` -/
def testerSandbox : ConnProg SandboxHandler := do
  let s ← get
  match s.sandboxHandler tester.id with
  | some sandbox => pure sandbox
  | none => throw (.baseAutomation "You have to add Sandbox Handler")

def otherDevice (sandbox : SandboxHandler) : Option ResourceHandler :=
  (handlers.filter fun h => h.confName ∈ sandbox.conf.resourceNames).find? fun h => h.id ≠ tester.id

def getOtherDeviceForConnectivity : ConnProg ResourceHandler := do
  let sandbox ← testerSandbox tester
  match otherDevice handlers tester sandbox with
  | some other => pure other
  | none => throw (.baseAutomation
      (s!"You have to add an additional resource to the sandbox " ++
        s!"{sandbox.conf.name} for connectivity tests"))

/-- `with self.dut_handler() as dut_handler: body` -/
def withDutHandler (body : ResourceHandler → ConnProg Unit) : ConnProg Unit := do
  let dut ← getOtherDeviceForConnectivity handlers tester
  let sandbox ← testerSandbox tester
  addResourceToReservation api sandbox dut
  withFinally (body dut) do
    let sandbox ← testerSandbox tester
    removeResourceFromReservation api sandbox dut

def checkAutoload (h : ResourceHandler) : ConnProg Unit :=
  if h.autoloadFinished ∧ h.isAutoloadSuccess then pure ()
  else throw (.baseAutomation
    (s!"Autoload doesn't finish for the {h.name} resource," ++ " so skip testing connectivity"))

/-- `_test_connectivity` -/
def connectPorts (dut : ResourceHandler) : ConnProg Unit := do
  each checkAutoload [tester, dut]
  let resInfo ← getDetails api tester
  let dutInfo ← getDetails api dut
  let (resPort1, resPort2) ← getPortNamesForConnectivity resInfo
  let (dutPort1, dutPort2) ← getPortNamesForConnectivity dutInfo
  let sandbox ← testerSandbox tester
  addPhysicalConnection api resPort1 dutPort1
  addPhysicalConnection api resPort2 dutPort2
  connectPortsWithConnector api sandbox dutPort1 dutPort2 "connector"
  removeConnector api sandbox dutPort1 dutPort2

def testConnectivity : ConnProg Unit :=
  withDutHandler api handlers tester (connectPorts api tester)

/-- The device is bound, and a member of the reservation, as it was. -/
def Restored (sandbox : SandboxHandler) (dut : ResourceHandler) (s s' : State) : Prop :=
  s'.sandboxHandler dut.id = s.sandboxHandler dut.id ∧
    s'.members (sandbox.reservationId, dut.name) = s.members (sandbox.reservationId, dut.name)

/-- The state in which the context is left: removed, or still added where the
removal raises. -/
def leave (sandbox : SandboxHandler) (dut : ResourceHandler) (s : State) : State :=
  match api.removeResources sandbox.reservationId dut.name with
  | .ok () =>
    { sandboxHandler := Function.update s.sandboxHandler dut.id none
      members := Function.update s.members (sandbox.reservationId, dut.name) false }
  | .error _ =>
    { sandboxHandler := Function.update s.sandboxHandler dut.id (some sandbox)
      members := Function.update s.members (sandbox.reservationId, dut.name) true }

section
variable {api : Api} {handlers : List ResourceHandler} {tester : ResourceHandler}

theorem testerSandbox_emits : Emits (fun _ => True) (testerSandbox tester) := by
  refine .bind .get' fun s => ?_
  split
  · exact .pure' _
  · exact .throw' _

theorem checkAutoload_emits (h : ResourceHandler) : Emits (fun _ => True) (checkAutoload h) := by
  unfold checkAutoload
  split
  · exact .pure' ()
  · exact .throw' _

theorem getPortNames_emits (info : Resource) :
    Emits (fun _ => True) (getPortNamesForConnectivity info) := by
  unfold getPortNamesForConnectivity
  split
  · exact .pure' _
  · exact .throw' _

theorem connectPorts_emits (dut : ResourceHandler) :
    Emits (fun _ => True) (connectPorts api tester dut) := by
  have hcheck : Emits (fun _ => True) (each checkAutoload [tester, dut]) :=
    .bind (checkAutoload_emits tester) fun _ => .bind (checkAutoload_emits dut) fun _ => .pure' ()
  refine .bind hcheck fun _ => .bind (.call' fun _ => trivial) fun resInfo => ?_
  refine .bind (.call' fun _ => trivial) fun dutInfo => .bind (getPortNames_emits _) fun ports => ?_
  refine .bind (getPortNames_emits _) fun ports' => .bind testerSandbox_emits fun sandbox => ?_
  refine .bind (.call' fun _ => trivial) fun _ => .bind (.call' fun _ => trivial) fun _ => ?_
  refine .bind (.bind (.call' fun _ => trivial) fun _ => .call' fun _ => trivial) fun _ => ?_
  exact .bind (.call' fun _ => trivial) fun _ => .call' fun _ => trivial

theorem otherDevice_ne (h : otherDevice handlers tester sandbox = some dut) :
    dut.id ≠ tester.id := by
  simpa using List.find?_some h

-- ---------------------------------------------------------------------------
-- One context
-- ---------------------------------------------------------------------------

section
variable {sandbox : SandboxHandler} {dut : ResourceHandler} {s : State}

theorem testerSandbox_run (h : s.sandboxHandler tester.id = some sandbox) (log : List Event) :
    testerSandbox tester s log = (.ok sandbox, s, log) := by
  simp [testerSandbox, run_bind, h]

theorem getOtherDevice_run (hsandbox : s.sandboxHandler tester.id = some sandbox)
    (hdut : otherDevice handlers tester sandbox = some dut) (log : List Event) :
    getOtherDeviceForConnectivity handlers tester s log = (.ok dut, s, log) := by
  rw [getOtherDeviceForConnectivity, run_bind_ok (testerSandbox_run hsandbox log)]
  simp [hdut]

def enter (sandbox : SandboxHandler) (dut : ResourceHandler) (s : State) : State :=
  { sandboxHandler := Function.update s.sandboxHandler dut.id (some sandbox)
    members := Function.update s.members (sandbox.reservationId, dut.name) true }

theorem addResource_run (hadd : api.addResources sandbox.reservationId dut.name = .ok ())
    (log : List Event) :
    ∃ log', addResourceToReservation api sandbox dut s log =
      (.ok (), enter sandbox dut s, log') := by
  have hcall : callMembership api.addResources .addResources true sandbox.reservationId dut.name s
      log = (.ok (), { s with members := (enter sandbox dut s).members },
        log ++ [.addResources sandbox.reservationId dut.name (.ok ())]) := by
    rw [callMembership, hadd]
    rfl
  exact ⟨_, run_bind_ok hcall⟩

theorem removeResource_run (log : List Event) :
    ∃ r log', removeResourceFromReservation api sandbox dut (enter sandbox dut s) log =
      (r, leave api sandbox dut s, log') := by
  unfold leave
  cases hremove : api.removeResources sandbox.reservationId dut.name with
  | ok _ =>
    have hcall : callMembership api.removeResources .removeResources false sandbox.reservationId
        dut.name (enter sandbox dut s) log =
        (.ok (), { enter sandbox dut s with
            members := Function.update s.members (sandbox.reservationId, dut.name) false },
          log ++ [.removeResources sandbox.reservationId dut.name (.ok ())]) := by
      rw [callMembership, hremove]
      simp [enter]
    have hset : removeResourceFromReservation api sandbox dut (enter sandbox dut s) log = _ :=
      run_bind_ok hcall
    simp only [setSandboxHandler, run_modify, enter, Function.update_idem] at hset
    exact ⟨_, _, hset⟩
  | error e =>
    have hcall : callMembership api.removeResources .removeResources false sandbox.reservationId
        dut.name (enter sandbox dut s) log = (.error e, enter sandbox dut s,
          log ++ [.removeResources sandbox.reservationId dut.name (.error e)]) := by
      rw [callMembership, hremove]
    exact ⟨.error e, _, run_bind_error hcall⟩

/-- Whatever the body comes to, the context is left in the state `leave`. -/
theorem withDutHandler_run {body : ResourceHandler → ConnProg Unit}
    (hsandbox : s.sandboxHandler tester.id = some sandbox)
    (hdut : otherDevice handlers tester sandbox = some dut)
    (hadd : api.addResources sandbox.reservationId dut.name = .ok ())
    (hbody : Emits (fun _ => True) (body dut)) (log : List Event) :
    ∃ r log', withDutHandler api handlers tester body s log =
      (r, leave api sandbox dut s, log') := by
  obtain ⟨log₁, hadded⟩ := addResource_run (s := s) hadd log
  obtain ⟨rbody, s₁, evs, hrun, rfl, -⟩ := hbody (enter sandbox dut s) log₁
  have hbound : (enter sandbox dut s).sandboxHandler tester.id = some sandbox := by
    simp only [enter]
    rw [Function.update_of_ne (otherDevice_ne hdut).symm, hsandbox]
  have hexit : ∃ r log', (do
      let sandbox ← testerSandbox tester
      removeResourceFromReservation api sandbox dut : ConnProg Unit) (enter sandbox dut s)
        (log₁ ++ evs) = (r, leave api sandbox dut s, log') := by
    rw [run_bind_ok (testerSandbox_run hbound _)]
    exact removeResource_run _
  obtain ⟨rexit, log₂, hexit⟩ := hexit
  refine ⟨(do rexit; rbody), log₂, ?_⟩
  rw [withDutHandler, run_bind_ok (getOtherDevice_run hsandbox hdut log),
    run_bind_ok (testerSandbox_run hsandbox log), run_bind_ok hadded]
  exact run_withFinally hrun hexit

theorem restored_leave_iff (api : Api) (sandbox : SandboxHandler) (dut : ResourceHandler)
    (s : State) :
    Restored sandbox dut s (leave api sandbox dut s) ↔
      (api.removeResources sandbox.reservationId dut.name = .ok () ∧
          s.sandboxHandler dut.id = none ∧
          s.members (sandbox.reservationId, dut.name) = false) ∨
        (api.removeResources sandbox.reservationId dut.name ≠ .ok () ∧
          s.sandboxHandler dut.id = some sandbox ∧
          s.members (sandbox.reservationId, dut.name) = true) := by
  unfold Restored leave
  cases api.removeResources sandbox.reservationId dut.name with
  | ok _ => simp [@eq_comm _ none, @eq_comm _ false]
  | error e => simp [@eq_comm _ (some sandbox), @eq_comm _ true]

/-- A context that was entered restores the device's place if and only if the
removal undoes the adding: from a device that was in no sandbox, or with a
removal that fails for one that was in this one. -/
theorem testConnectivity_restores_iff {log : List Event}
    (hsandbox : s.sandboxHandler tester.id = some sandbox)
    (hdut : otherDevice handlers tester sandbox = some dut)
    (hadd : api.addResources sandbox.reservationId dut.name = .ok ()) :
    Restored sandbox dut s (testConnectivity api handlers tester s log).2.1 ↔
      (api.removeResources sandbox.reservationId dut.name = .ok () ∧
          s.sandboxHandler dut.id = none ∧
          s.members (sandbox.reservationId, dut.name) = false) ∨
        (api.removeResources sandbox.reservationId dut.name ≠ .ok () ∧
          s.sandboxHandler dut.id = some sandbox ∧
          s.members (sandbox.reservationId, dut.name) = true) := by
  obtain ⟨r, log', hrun⟩ :=
    withDutHandler_run hsandbox hdut hadd (connectPorts_emits dut) log
  rw [testConnectivity, hrun]
  exact restored_leave_iff api sandbox dut s

end

end

def Api.twoPorts : Api where
  addResources _ _ := .ok ()
  removeResources _ _ := .ok ()
  getResourceDetails _ name := .ok (.mk name "CS_Switch"
    (.cons (.mk "p1" "CS_Port" .nil) (.cons (.mk "p2" "CS_Port" .nil) .nil)))
  updatePhysicalConnection _ _ _ := .ok ()
  setConnectors _ _ _ _ _ := .ok ()
  connectRoutes _ _ _ := .ok ()
  disconnectRoutes _ _ _ := .ok ()
  removeConnectors _ _ _ := .ok ()

def pairSandbox : SandboxHandler := ⟨{ name := "sandbox", resourceNames := ["r0", "r1"] }, "rid"⟩

def pairHandlers : List ResourceHandler :=
  [⟨0, "r0", "r0", true, true⟩, ⟨1, "r1", "r1", true, true⟩]

def testerOnly : State where
  sandboxHandler id := if id = 0 then some pairSandbox else none
  members member := member = ("rid", "r0")

def bothMembers : State where
  sandboxHandler _ := some pairSandbox
  members _ := true

theorem testConnectivity_restores_testerOnly :
    Restored pairSandbox ⟨1, "r1", "r1", true, true⟩ testerOnly
      (testConnectivity .twoPorts pairHandlers ⟨0, "r0", "r0", true, true⟩ testerOnly []).2.1 :=
  Iff.mpr (testConnectivity_restores_iff rfl rfl rfl) (.inl ⟨rfl, rfl, by decide⟩)

/-- The other resource runs tests of its own in the same sandbox: afterwards it
is bound to none and in no reservation. -/
theorem testConnectivity_takes_member :
    let s' :=
      (testConnectivity .twoPorts pairHandlers ⟨0, "r0", "r0", true, true⟩ bothMembers []).2.1
    (testConnectivity .twoPorts pairHandlers ⟨0, "r0", "r0", true, true⟩ bothMembers []).1 =
        .ok () ∧
      s'.sandboxHandler 1 = none ∧ s'.members ("rid", "r1") = false ∧
      ¬ Restored pairSandbox ⟨1, "r1", "r1", true, true⟩ bothMembers s' := by
  have hbinding : (testConnectivity .twoPorts pairHandlers ⟨0, "r0", "r0", true, true⟩ bothMembers
      []).2.1.sandboxHandler 1 = none := rfl
  refine ⟨rfl, hbinding, rfl, fun h => ?_⟩
  have hbound := h.1
  rw [hbinding] at hbound
  cases hbound

end ShellTests.Connectivity
