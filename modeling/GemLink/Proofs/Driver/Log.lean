import GemLink.Proofs.Driver.Calls

/-!
What happens at a site, written down. Calls to write may be made while others wait, and every call
has a ticket; the log says which calls wait for an answer, which writes a reactor has carried out,
with its session as it was, and which actions a reactor has taken (`Happening`). A run is any row of
steps with its log (`Site.Run`). It may order them in any way, and calls may be made and looked at
at any time; all steps of a scene are among them (`Scene.Steps.run`).

What is not a step of a reactor leaves the answers and the sessions alone, and adds no write to an
inbox but that of a call that is made (`Site.Quiet`).
-/

namespace GemLink

/-- An action that a reactor has taken, and what was around before and after. -/
structure Taking where
  /-- The action. -/
  action : Action
  /-- The reactor, before it has taken the action. -/
  reactor : Reactor
  /-- What was around before. -/
  before : Surroundings
  /-- What was around after. -/
  after : Surroundings

/-- What happens at a site, as far as it concerns writes and actions. -/
inductive Happening where
  /-- A call to write has been made, and waits for the answer of a task to its ticket. -/
  | called (task ticket : Nat) (name : String) (value : Value)
  /-- The write of a call has been carried out at a time, by a session as it was before. -/
  | wrote (task ticket : Nat) (name : String) (value : Value) (session : Session) (now : Nat)
  /-- The reactor of a task has taken an action. -/
  | took (task : Nat) (taking : Taking)
  /-- Something else. -/
  | other

namespace Happening

/-- The ticket of a call that is made. -/
def called? : Happening → Option Nat
  | .called _ ticket _ _ => some ticket
  | _ => none

/-- The ticket of a write that is carried out. -/
def wrote? : Happening → Option Nat
  | .wrote _ ticket _ _ _ _ => some ticket
  | _ => none

/-- The action that the reactor of a task takes. -/
def took? (task : Nat) : Happening → Option Taking
  | .took j taking => if j = task then some taking else none
  | _ => none

end Happening

/-- The actions that the reactor of a task has taken. -/
def takings (task : Nat) (log : List Happening) : List Taking :=
  log.filterMap (Happening.took? task)

namespace Reactor

variable {w w' : Surroundings} {r r' : Reactor} {after : ReactorTask} {task : Nat}
  {happening : Happening}

/-- What is written down when something happens to a reactor. -/
def noted (r : Reactor) (task now : Nat) : ReactorEvent → Happening
  | .command =>
    match r.inbox with
    | .write ticket name value :: _ => .wrote task ticket name value r.session now
    | _ => .other
  | _ => .other

theorem noted_cases (r : Reactor) (task now : Nat) (event : ReactorEvent) :
    r.noted task now event = .other ∨
      ∃ ticket name value, r.noted task now event = .wrote task ticket name value r.session now := by
  cases event with
  | command =>
    unfold noted
    dsimp only
    split
    · exact .inr ⟨_, _, _, rfl⟩
    · exact .inl rfl
  | _ => exact .inl rfl

/-- One step of the reactor of a task, written down. -/
inductive Does (task : Nat) (w : Surroundings) (r : Reactor) :
    Happening → Surroundings → ReactorTask → Prop
  /-- An action is taken. -/
  | act {a : Action} {rest : List Action} {w' : Surroundings} {after : ReactorTask}
      (ho : r.session.outbox = a :: rest) (h : r.take? w = some (w', after)) :
      Does task w r (.took task ⟨a, r, w, w'⟩) w' after
  /-- No action is left, and the answers are given. -/
  | answer (ho : r.session.outbox = []) : Does task w r .other (r.answer w).1 (r.answer w).2
  /-- No action and no answer is left, and something happens to the reactor. -/
  | handle (event : ReactorEvent) {w' : Surroundings} {r' : Reactor} (ho : r.session.outbox = [])
      (ha : r.replies = []) (h : r.handle w event = some (w', r')) :
      Does task w r (r.noted task w.now event) w' (.running r')

theorem Does.step (h : r.Does task w happening w' after) :
    r.Step w w' after := by
  cases h with
  | act _ h => exact .act h
  | answer ho => exact .answer ho
  | handle event ho ha h => exact .handle event ho ha h

theorem Step.does (h : r.Step w w' after) (task : Nat) :
    ∃ happening, r.Does task w happening w' after := by
  cases h with
  | act h =>
    obtain ⟨a, rest, ho, -⟩ := take?_eq_some h
    exact ⟨_, .act ho h⟩
  | answer ho => exact ⟨_, .answer ho⟩
  | handle event ho ha h => exact ⟨_, .handle event ho ha h⟩

/-- A reactor makes no calls. -/
theorem Does.called (h : r.Does task w happening w' after) : happening.called? = none := by
  cases h with
  | act _ _ | answer _ => rfl
  | handle event _ _ _ =>
    rcases r.noted_cases task w.now event with hn | ⟨_, _, _, hn⟩ <;> rw [hn] <;> rfl

/-- A step of a reactor is none of another. -/
theorem Does.took?_of_ne (h : r.Does task w happening w' after) {j : Nat} (hj : j ≠ task) :
    happening.took? j = none := by
  cases h with
  | act _ _ => exact if_neg (Ne.symm hj)
  | answer _ => rfl
  | handle event _ _ _ =>
    rcases r.noted_cases task w.now event with hn | ⟨_, _, _, hn⟩ <;> rw [hn] <;> rfl

end Reactor

namespace Site

/-- What is written down when the driver is called. -/
def noted (site : Site) (c : Call) : Happening :=
  match c, (site.issue c).2 with
  | .write name value, .pending (.writing task ticket) => .called task ticket name value
  | _, _ => .other

/-- One step at a site, written down. -/
inductive Step : Site → Happening → Site → Prop
  /-- A reactor takes a step. -/
  | react {site : Site} {task : Nat} {r : Reactor} {happening : Happening}
      {surroundings : Surroundings} {after : ReactorTask} (hr : site.Runs task r)
      (h : r.Does task site.surroundings happening surroundings after) :
      Step site happening { site with surroundings, tasks := site.tasks.set task after }
  /-- The driver is called. -/
  | issue {site : Site} (c : Call) : Step site (site.noted c) (site.issue c).1
  /-- A call that waits is looked at again. -/
  | look {site : Site} (p : Pending) : Step site .other (site.look p).1
  /-- The driver is dropped. -/
  | drop {site : Site} : Step site .other site.release
  /-- Time passes. -/
  | clock {site : Site} (milliseconds : Nat) :
      Step site .other (site.onSurroundings fun w => { w with now := w.now + milliseconds })
  /-- The network changes. -/
  | network {site : Site} {network : Network} (h : site.surroundings.network.Disturbed network) :
      Step site .other (site.onSurroundings fun w => { w with network })
  /-- The host changes. -/
  | host {site : Site} (host : Host) :
      Step site .other (site.onSurroundings fun w => { w with host })

/-- A row of steps from a site, with all that has been written down. -/
inductive Run (start : Site) : List Happening → Site → Prop
  /-- Nothing has happened. -/
  | start : Run start [] start
  /-- One more step. -/
  | step {log : List Happening} {site site' : Site} {happening : Happening}
      (h : Run start log site) (hs : Step site happening site') :
      Run start (log ++ [happening]) site'

end Site

/-- A step of a scene can be written down. -/
theorem Scene.Step.written {scene scene' : Scene} (h : Scene.Step scene scene') :
    ∃ happening, Site.Step scene.site happening scene'.site := by
  cases h with
  | react hruns h =>
    obtain ⟨happening, hdoes⟩ := h.does _
    exact ⟨happening, .react hruns hdoes⟩
  | issue _ c =>
    rw [Scene.ofProgress_eq]
    exact ⟨_, .issue c⟩
  | look p =>
    rw [Scene.ofProgress_eq]
    exact ⟨_, .look p⟩
  | abandon _ => exact ⟨_, .clock 0⟩
  | drop => exact ⟨_, .drop⟩
  | clock milliseconds => exact ⟨_, .clock milliseconds⟩
  | network h => exact ⟨_, .network h⟩
  | host host => exact ⟨_, .host host⟩

theorem Scene.Steps.run {scene scene' : Scene} (h : Scene.Steps scene scene') {start : Site}
    {log : List Happening} (hr : start.Run log scene.site) :
    ∃ more, start.Run (log ++ more) scene'.site := by
  induction h with
  | refl => exact ⟨[], by rwa [List.append_nil]⟩
  | tail _ hs ih =>
    obtain ⟨more, hr⟩ := ih
    obtain ⟨happening, hs⟩ := hs.written
    exact ⟨more ++ [happening], by rw [← List.append_assoc]; exact hr.step hs⟩

/-! ## Steps that are not a reactor's -/

namespace Site

variable {site site' site'' : Site} {task : Nat} {r : Reactor} {d : Driver}

/-- What a call that gives no write to a reactor leaves as it was, and what it does to the
reactors: one may have been told to stop, or a new one have begun. -/
structure Governed (site site' : Site) : Prop where
  answers : site'.surroundings.answers = site.surroundings.answers
  tickets : site'.nextTicket = site.nextTicket
  tasks : site'.tasks = site.tasks ∨
    (∃ task, site'.tasks = (site.tell task .stop).tasks) ∨
    ∃ name path model catalog,
      site'.tasks = site.tasks ++ [.running (Reactor.fresh name path model catalog)]

namespace Governed

theorem still (ha : site'.surroundings.answers = site.surroundings.answers)
    (hn : site'.nextTicket = site.nextTicket) (ht : site'.tasks = site.tasks) :
    Governed site site' :=
  ⟨ha, hn, .inl ht⟩

theorem refl (site : Site) : Governed site site :=
  still rfl rfl rfl

/-- What is done before, without touching a reactor, does not count. -/
theorem after (ha : site'.surroundings.answers = site.surroundings.answers)
    (hn : site'.nextTicket = site.nextTicket) (ht : site'.tasks = site.tasks)
    (h : Governed site' site'') : Governed site site'' := by
  refine ⟨h.answers.trans ha, h.tickets.trans hn, ?_⟩
  have htell : ∀ task, (site'.tell task .stop).tasks = (site.tell task .stop).tasks := by
    intro task
    simp only [tell, onReactor, ht]
  simpa only [htell, ht] using h.tasks

end Governed

theorem answers_reportCatalog (machine : String) (w : Surroundings)
    (catalog : Except LinkError Catalog) :
    (reportCatalog machine w catalog).answers = w.answers :=
  reportCatalog_keeps (P := fun w' => w'.answers = w.answers) (fun _ _ => id) (fun _ _ => id) rfl
    machine catalog

theorem governed_begin (site : Site) (d : Driver) : Governed site (site.begin d).1 := by
  unfold begin
  dsimp only
  split
  · exact .still rfl rfl rfl
  · split
    · exact .still ((answers_reportCatalog _ _ _).trans rfl) rfl rfl
    · exact ⟨(answers_reportCatalog _ _ _).trans rfl, rfl, .inr (.inr ⟨_, _, _, _, rfl⟩)⟩

theorem governed_finishStop (site : Site) (d : Driver) :
    (site.finishStop d).1.surroundings.answers = site.surroundings.answers ∧
      (site.finishStop d).1.nextTicket = site.nextTicket ∧
      (site.finishStop d).1.tasks = site.tasks := by
  unfold finishStop
  dsimp only
  split
  · exact ⟨rfl, rfl, rfl⟩
  · exact ⟨rfl, rfl, rfl⟩

theorem governed_afterStop (site : Site) (d : Driver) (thenStart : Bool) :
    Governed site (site.afterStop d thenStart).1 := by
  obtain ⟨ha, hn, ht⟩ := governed_finishStop site d
  unfold afterStop
  split
  · next hfinish =>
    rw [hfinish] at ha hn ht
    exact .still ha hn ht
  · next site' hfinish =>
    rw [hfinish] at ha hn ht
    split
    · exact .after ha hn ht (governed_begin site' d)
    · exact .still ha hn ht

theorem governed_halt (site : Site) (d : Driver) (thenStart : Bool) :
    Governed site (site.halt d thenStart).1 := by
  unfold halt
  split
  · exact governed_afterStop site d thenStart
  · next task _ => exact ⟨rfl, rfl, .inr (.inl ⟨task, rfl⟩)⟩

theorem governed_look (site : Site) (p : Pending) : Governed site (site.look p).1 := by
  unfold look
  split
  · exact .refl site
  next d _ =>
  cases p with
  | stopping task thenStart =>
    dsimp only
    split
    · exact .refl site
    · exact governed_afterStop site d thenStart
  | ending task =>
    dsimp only
    split
    · exact .refl site
    · exact .still rfl rfl rfl
    · exact .refl site
  | writing task ticket =>
    dsimp only
    split
    · exact .refl site
    · split <;> exact .refl site

/-- What a call to write does: it returns at once, or gives the command to the reactor that the
driver knows, with a ticket of its own. -/
theorem issue_write (site : Site) (name : String) (value : Value) :
    ((site.issue (.write name value)).1 = site ∧ site.noted (.write name value) = .other) ∨
      ∃ task r, site.Runs task r ∧
        (site.issue (.write name value)).1 =
          { site with nextTicket := site.nextTicket + 1 }.tell task
            (.write site.nextTicket name value) ∧
        site.noted (.write name value) = .called task site.nextTicket name value := by
  unfold noted issue
  cases site.driver with
  | none => exact .inl ⟨rfl, rfl⟩
  | some d =>
    dsimp only
    cases d.running with
    | none => exact .inl ⟨rfl, rfl⟩
    | some task =>
      dsimp only
      cases ht : site.tasks[task]? with
      | none => exact .inl ⟨rfl, rfl⟩
      | some t =>
        cases t with
        | running r => exact .inr ⟨task, r, ht, rfl, rfl⟩
        | ended outcome => exact .inl ⟨rfl, rfl⟩

theorem governed_issue (site : Site) {c : Call} (hc : ∀ name value, c ≠ .write name value) :
    Governed site (site.issue c).1 ∧ site.noted c = .other := by
  have hnoted : site.noted c = .other := by
    cases c with
    | write name value => exact absurd rfl (hc name value)
    | _ => rfl
  refine ⟨?_, hnoted⟩
  unfold issue
  split
  · exact .refl site
  next d _ =>
  cases c with
  | start =>
    dsimp only
    split
    · exact governed_halt site d true
    · exact governed_begin site d
  | stop => exact governed_halt site d false
  | restart =>
    dsimp only
    split
    · exact governed_halt site d true
    · exact .refl site
  | wait =>
    dsimp only
    split <;> exact .refl site
  | updateModel model =>
    dsimp only
    split
    · refine .after ?_ ?_ ?_ (governed_halt _ _ true)
      · rfl
      · rfl
      · rfl
    · exact .still rfl rfl rfl
  | write name value => exact absurd rfl (hc name value)

/-- Where a reactor that runs comes from that has not taken the step itself: it has been given no
command, one to stop, or the write of the call that was made; or it has just begun. -/
inductive Heir (site : Site) (task : Nat) (happening : Happening) (r : Reactor) : Prop
  | same (r₀ : Reactor) (h : site.Runs task r₀) (closed : Bool)
      (hr : r = { r₀ with inboxClosed := closed })
  | stopped (r₀ : Reactor) (h : site.Runs task r₀)
      (hr : r = { r₀ with inbox := r₀.inbox ++ [.stop] })
  | told (r₀ : Reactor) (h : site.Runs task r₀) (name : String) (value : Value)
      (hr : r = { r₀ with inbox := r₀.inbox ++ [.write site.nextTicket name value] })
      (hh : happening = .called task site.nextTicket name value)
  | begun (name path : String) (model : Model) (catalog : Catalog)
      (hr : r = Reactor.fresh name path model catalog)

/-- A reactor that has not taken the step itself is as it was, or has just begun. -/
theorem Heir.kept {happening : Happening} (h : site.Heir task happening r) :
    (∃ r₀, site.Runs task r₀ ∧ r.session = r₀.session ∧ r.socket = r₀.socket ∧
      r.attempt = r₀.attempt ∧ r.replies = r₀.replies) ∨
    ∃ name path model catalog, r = Reactor.fresh name path model catalog := by
  cases h with
  | same r₀ h₀ _ hr | stopped r₀ h₀ hr | told r₀ h₀ _ _ hr _ =>
    exact .inl ⟨r₀, h₀, by rw [hr], by rw [hr], by rw [hr], by rw [hr]⟩
  | begun name path model catalog hr => exact .inr ⟨name, path, model, catalog, hr⟩

/-- What a step that is not a reactor's leaves as it was. -/
structure Quiet (site : Site) (happening : Happening) (site' : Site) : Prop where
  answers : site'.surroundings.answers = site.surroundings.answers
  note : (happening = .other ∧ site'.nextTicket = site.nextTicket) ∨
    ∃ task name value, happening = .called task site.nextTicket name value ∧
      site'.nextTicket = site.nextTicket + 1
  heir : ∀ {task r}, site'.Runs task r → site.Heir task happening r

theorem Governed.quiet (h : Governed site site') : Quiet site .other site' := by
  refine ⟨h.answers, .inl ⟨rfl, h.tickets⟩, fun {task r} hr => ?_⟩
  rcases h.tasks with ht | ⟨j, ht⟩ | ⟨name, path, model, catalog, ht⟩
  · exact .same r (by rwa [Runs, ht] at hr) _ rfl
  · have hr : (site.tell j .stop).Runs task r := by rwa [Runs, ht] at hr
    obtain ⟨r₀, h₀, hr⟩ := runs_onReactor.mp hr
    split at hr
    · exact .stopped r₀ h₀ hr
    · exact .same r₀ h₀ _ hr
  · rw [Runs, ht] at hr
    rcases runs_concat hr with hr | ⟨-, rfl⟩
    · exact .same r hr _ rfl
    · exact .begun name path model catalog rfl

theorem quiet_issue (site : Site) (c : Call) : Quiet site (site.noted c) (site.issue c).1 := by
  by_cases hc : ∀ name value, c ≠ .write name value
  · obtain ⟨hgoverned, hnoted⟩ := governed_issue site hc
    rw [hnoted]
    exact hgoverned.quiet
  · obtain ⟨name, value, rfl⟩ : ∃ name value, c = .write name value := by
      simpa using hc
    rcases issue_write site name value with ⟨hsite, hnoted⟩ | ⟨task, -, -, hsite, hnoted⟩
    · rw [hsite, hnoted]
      exact (Governed.refl site).quiet
    · rw [hsite, hnoted]
      refine ⟨rfl, .inr ⟨task, name, value, rfl, rfl⟩, fun {j r} hr => ?_⟩
      obtain ⟨r₀, h₀, hr⟩ := runs_onReactor.mp hr
      split at hr
      · next hj => exact .told r₀ h₀ name value hr (by rw [hj])
      · exact .same r₀ h₀ _ hr

theorem quiet_release (site : Site) : Quiet site .other site.release := by
  have hanswers := congrArg Surroundings.answers site.surroundings_release
  unfold release at *
  dsimp only at *
  split
  · next known _ =>
    refine ⟨rfl, .inl ⟨rfl, rfl⟩, fun {task r} hr => ?_⟩
    have hr : (site.onReactor known fun r => { r with inboxClosed := true }).Runs task r := hr
    obtain ⟨r₀, h₀, hr⟩ := runs_onReactor.mp hr
    split at hr
    · exact .same r₀ h₀ _ hr
    · exact .same r₀ h₀ _ hr
  · exact ⟨rfl, .inl ⟨rfl, rfl⟩, fun hr => .same _ hr _ rfl⟩

/-- A step is one of a reactor, or is quiet. -/
theorem Step.quiet {happening : Happening} (h : Step site happening site') :
    (∃ task r surroundings after, site.Runs task r ∧
      r.Does task site.surroundings happening surroundings after ∧
      site' = { site with surroundings, tasks := site.tasks.set task after }) ∨
    Quiet site happening site' := by
  cases h with
  | react hr h => exact .inl ⟨_, _, _, _, hr, h, rfl⟩
  | issue c => exact .inr (quiet_issue site c)
  | look p => exact .inr (governed_look site p).quiet
  | drop => exact .inr (quiet_release site)
  | clock _ | network _ | host _ => exact .inr (Governed.quiet ⟨rfl, rfl, .inl rfl⟩)

end Site

end GemLink
