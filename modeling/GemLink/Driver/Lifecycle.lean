import GemLink.Driver.Reactor

/-!
The life of a driver: it is started, stopped, restarted, given another model, asked to write and
waited for. Each start that is not refused begins a new reactor; a call that waits for a reactor is
pending, and is looked at again until it has what it waits for.
-/

namespace GemLink

/-- A driver. -/
structure Driver where
  /-- The machine. -/
  machine : Machine
  /-- Whether the driver has been started before and so knows where values go. -/
  hasSink : Bool := false
  /-- The task of its reactor, if it has one. -/
  running : Option Nat := none

/-- A driver and everything around it. -/
structure Site where
  /-- What reactors act on. -/
  surroundings : Surroundings
  /-- The driver, unless it has been dropped. -/
  driver : Option Driver := none
  /-- The tasks of all reactors, the first one first. -/
  tasks : List ReactorTask := []
  /-- The ticket of the next write. -/
  nextTicket : Nat := 0

/-- A call of the driver. -/
inductive Call where
  /-- Starts it. -/
  | start
  /-- Stops it. -/
  | stop
  /-- Stops and starts it. -/
  | restart
  /-- Waits for its end. -/
  | wait
  /-- Gives it another model and restarts it. -/
  | updateModel (model : Model)
  /-- Writes a variable. -/
  | write (name : String) (value : Value)

/-- What a call waits for. -/
inductive Pending where
  /-- For the end of a task that has been told to stop, after which the driver may start again. -/
  | stopping (task : Nat) (thenStart : Bool)
  /-- For the end of a task. -/
  | ending (task : Nat)
  /-- For the answer of a task to a write. -/
  | writing (task : Nat) (ticket : Nat)
  deriving DecidableEq, Repr

/-- How far a call has come. -/
inductive Progress where
  /-- It has returned. -/
  | finished (result : Except LinkError Unit)
  /-- It waits. -/
  | pending (p : Pending)

namespace Site

/-- Acts on the surroundings. -/
def onSurroundings (site : Site) (f : Surroundings → Surroundings) : Site :=
  { site with surroundings := f site.surroundings }

/-- Changes the driver. -/
def onDriver (site : Site) (f : Driver → Driver) : Site :=
  { site with driver := site.driver.map f }

/-- Changes the reactor of a task, if it runs. -/
def onReactor (site : Site) (task : Nat) (f : Reactor → Reactor) : Site :=
  { site with tasks := site.tasks.modify task fun
      | ReactorTask.running r => ReactorTask.running (f r)
      | ReactorTask.ended outcome => ReactorTask.ended outcome }

/-- Lets everything happen to one task that can happen now. A reactor reads at least one byte at a
time, and at one instant few other things happen to it. -/
def settleTask (site : Site) (task : Nat) : Site :=
  match site.tasks[task]? with
  | some (.running r) =>
    let (surroundings, after) :=
      Reactor.settle (64 + site.surroundings.network.waiting) site.surroundings r
    { site with surroundings, tasks := site.tasks.set task after }
  | _ => site

/-- Lets everything happen that can happen now. -/
def settle (site : Site) : Site :=
  (List.range site.tasks.length).foldl settleTask site

/-- Stores the connection status of the driver's machine. -/
def storeStatus (site : Site) (d : Driver) (connected : Bool) : Site :=
  site.onSurroundings fun w => w.storeStatus d.machine.statusPath connected

/-- A site with a new driver: the templates are loaded and the machine is not connected. -/
def ofMachine (network : Network) (machine : Machine) : Site :=
  let d : Driver := { machine }
  let w : Surroundings := { network }
  let w := w.onHost fun h => h.load (AlertKey.templates machine.info.name)
  { surroundings := w, driver := some d : Site }.storeStatus d false

/-- Tells the host what is wrong with the variables of a machine, or that nothing is. -/
def reportCatalog (machine : String) (w : Surroundings) :
    Except LinkError Catalog → Surroundings
  | .ok catalog =>
    let w := w.onHost fun h => h.clear AlertKey.numericIdMissing.text
    if catalog.unreported.isEmpty then
      w.onHost fun h => h.clear AlertKey.eventIdRequired.text
    else
      catalog.unreported.foldl (fun w v =>
        w.onHost fun h => h.raise (AlertKey.eventIdRequired.alert machine (some v.name))) w
  | .error (.missingNumericId name) =>
    w.onHost fun h => h.raise (AlertKey.numericIdMissing.alert machine (some name))
  | .error _ => w

/-- Starts a driver that is not running. -/
def begin (site : Site) (d : Driver) : Site × Except LinkError Unit :=
  let d := { d with hasSink := true, running := none }
  let site := { site with driver := some d }.storeStatus d false
  if !d.machine.model.enable then (site, .ok ())
  else
    let name := d.machine.info.name
    let catalog := Catalog.ofVariables d.machine.vars
    let site := site.onSurroundings fun w => reportCatalog name w catalog
    match catalog with
    | .error fault => (site, .error fault)
    | .ok catalog =>
      let session := (Session.ofCatalog name d.machine.model catalog).launch
      let r : Reactor := { session, machine := name, statusPath := d.machine.statusPath }
      ({ site with
          tasks := site.tasks ++ [ReactorTask.running r]
          driver := some { d with running := some site.tasks.length } }, .ok ())

/-- Ends a stop: all alerts are cleared and the machine is not connected. -/
def finishStop (site : Site) (d : Driver) : Site × Except LinkError Unit :=
  let (host, result) := site.surroundings.host.clearAll
  let site := site.onSurroundings fun w => { w with host }
  match result with
  | .ok () => (site.storeStatus d false, .ok ())
  | .error fault => (site, .error (.host fault))

/-- Ends a stop and starts again, if so wanted and the stop did not fail. -/
def afterStop (site : Site) (d : Driver) (thenStart : Bool) : Site × Progress :=
  match site.finishStop d with
  | (site, .error fault) => (site, .finished (.error fault))
  | (site, .ok ()) =>
    if thenStart then
      let (site, result) := site.begin d
      (site, .finished result)
    else (site, .finished (.ok ()))

/-- Looks again at a call that waits. -/
def look (site : Site) (p : Pending) : Site × Progress :=
  match site.driver with
  | none => (site, .finished (.error .notRunning))
  | some d =>
    match p with
    | .stopping task thenStart =>
      match site.tasks[task]? with
      | some (.running _) => (site, .pending p)
      | _ => site.afterStop d thenStart
    | .ending task =>
      match site.tasks[task]? with
      | some (.running _) => (site, .pending p)
      | some (.ended outcome) =>
        (site.onDriver fun d => { d with running := none }, .finished outcome)
      | none => (site, .finished (.ok ()))
    | .writing task ticket =>
      match site.surroundings.answers.lookup ticket with
      | some result => (site, .finished result)
      | none =>
        match site.tasks[task]? with
        | some (.running _) => (site, .pending p)
        | _ => (site, .finished (.error .channelClosed))

/-- Gives a command to the reactor of a task. -/
def tell (site : Site) (task : Nat) (c : Command) : Site :=
  site.onReactor task fun r => { r with inbox := r.inbox ++ [c] }

/-- Stops a driver, to start it again if so wanted. -/
def halt (site : Site) (d : Driver) (thenStart : Bool) : Site × Progress :=
  match d.running with
  | none => site.afterStop d thenStart
  | some task =>
    let site := { site with driver := some { d with running := none } }
    (site.tell task .stop, .pending (.stopping task thenStart))

/-- Calls the driver: the call returns, or it waits for a reactor. -/
def issue (site : Site) (c : Call) : Site × Progress :=
  match site.driver with
  | none => (site, .finished (.error .notRunning))
  | some d =>
    match c with
    | .start =>
      if d.running.isSome then site.halt d true
      else
        let (site, result) := site.begin d
        (site, .finished result)
    | .stop => site.halt d false
    | .restart =>
      if d.hasSink then site.halt d true else (site, .finished (.error .notRunning))
    | .wait =>
      match d.running with
      | none => (site, .finished (.ok ()))
      | some task => (site, .pending (.ending task))
    | .updateModel model =>
      let d := { d with machine := { d.machine with model } }
      let site := { site with driver := some d }
      if d.hasSink then site.halt d true else (site, .finished (.ok ()))
    | .write name value =>
      match d.running with
      | none => (site, .finished (.error .notRunning))
      | some task =>
        match site.tasks[task]? with
        | some (.running _) =>
          let ticket := site.nextTicket
          let site := { site with nextTicket := ticket + 1 }
          (site.tell task (.write ticket name value), .pending (.writing task ticket))
        | _ => (site, .finished (.error .channelClosed))

/-- Lets the driver go; its reactor learns that no more commands will come. -/
def release (site : Site) : Site :=
  let closed := match site.driver.bind Driver.running with
    | some task => site.onReactor task fun r => { r with inboxClosed := true }
    | none => site
  { closed with driver := none }

/-! ## What then can happen, happens -/

/-- Looks again at a call that waits. -/
def resume (site : Site) (p : Pending) : Site × Progress :=
  let (site, progress) := site.look p
  (site.settle, progress)

/-- Calls the driver, and looks at the call again if it waits. -/
def call (site : Site) (c : Call) : Site × Progress :=
  match site.issue c with
  | (site, .finished result) => (site.settle, .finished result)
  | (site, .pending p) => site.settle.resume p

/-- Drops the driver. -/
def drop (site : Site) : Site :=
  site.release.settle

/-- Moves the clock on. -/
def advance (site : Site) (milliseconds : Nat) : Site :=
  (site.onSurroundings fun w => { w with now := w.now + milliseconds }).settle

/-- Changes the network. -/
def onNetwork (site : Site) (f : Network → Network) : Site :=
  (site.onSurroundings fun w => { w with network := f w.network }).settle

end Site

end GemLink
