import GemLink.Proofs.Driver.Calls
import GemLink.Proofs.Driver.Rest

/-!
A call to stop comes to its end in time, as long as the equipment reads. A site that is left to
itself goes on until nothing is left to do, and then waits for the next timer of a reactor
(`Scene.Advances`); what takes no more time than that is prompt (`Scene.PromptStep`). While a call
to stop waits, the command to stop is still to be carried out and no time has passed, or the time
that the stop grants an open question is running (`Scene.StopsBy`); the time for which a reactor is
held up by a connection that takes nothing comes on top. So the call cannot wait for longer than
that, and its end is inevitable: whatever the order in which things are done, they lead to it, or to
a reactor that is held up (`Scene.Leads`).

When it returns and the host works, it has succeeded: no alert is active, the machine is stored as
not connected, and no reactor that there has been will ever act again (`stop_completes`). The host
is called in no time. Equipment that asks for answers and reads none makes a stop wait for ever
(`not_stopsInTime_deafSite`): nothing limits the time for which a reactor is held up.
-/

namespace GemLink

/-! ## Looking at a call to stop -/

namespace Site

variable {site : Site} {d : Driver}

/-- When a reactor has ended, what is left of a stop is done at once. -/
theorem afterStop_finished (site : Site) (d : Driver) (thenStart : Bool) :
    ∃ site' result, site.afterStop d thenStart = (site', .finished result) := by
  unfold afterStop
  split
  · exact ⟨_, _, rfl⟩
  · split
    · exact ⟨_, _, rfl⟩
    · exact ⟨_, _, rfl⟩

/-- A call that stops a reactor waits exactly as long as the reactor runs. -/
theorem look_stopping (hd : site.driver = some d) (task : Nat) (thenStart : Bool) :
    (∃ r, site.Runs task r ∧
      site.look (.stopping task thenStart) = (site, .pending (.stopping task thenStart))) ∨
    (∀ r, ¬ site.Runs task r) ∧
      site.look (.stopping task thenStart) = site.afterStop d thenStart := by
  unfold look
  rw [hd]
  dsimp only
  split
  · next r hr => exact .inl ⟨r, hr, rfl⟩
  · next hnot => exact .inr ⟨hnot, rfl⟩

theorem Runs.unique {task : Nat} {r r' : Reactor} (h : site.Runs task r)
    (h' : site.Runs task r') : r = r' := by
  unfold Runs at h h'
  rw [h] at h'
  exact ReactorTask.running.inj (Option.some.inj h')

end Site

namespace Scene

/-! ## What a site does by itself -/

/-- A step that a site takes by itself: a reactor gets something done, or a call that waits
returns. -/
inductive Proceeds : Scene → Scene → Prop
  | react {site : Site} {pending : Option Pending} {task : Nat} {r : Reactor}
      {surroundings : Surroundings} {after : ReactorTask}
      (hr : site.tasks[task]? = some (.running r))
      (h : r.Proceeds site.surroundings surroundings after) :
      Proceeds ⟨site, pending⟩
        ⟨{ site with surroundings, tasks := site.tasks.set task after }, pending⟩
  | look {site site' : Site} {p : Pending} {result : Except LinkError Unit}
      (h : site.look p = (site', .finished result)) : Proceeds ⟨site, some p⟩ ⟨site', none⟩

/-- Whether nothing is left to do before the clock moves on, or something comes from outside. -/
def Rests (scene : Scene) : Prop :=
  ∀ next, ¬ scene.Proceeds next

/-- Whether a reactor is held up. -/
def HeldUp (scene : Scene) : Prop :=
  ∃ task r, scene.site.Runs task r ∧ r.isHeldUp scene.site.surroundings = true

/-- Whether no timer expires before a time of a reactor that looks at its timers. -/
def Until (scene : Scene) (time : Nat) : Prop :=
  ∀ task r deadline, scene.site.Runs task r → r.isHeldUp scene.site.surroundings = false →
    r.session.timers.next? = some deadline → time ≤ deadline

/-- A step that takes no more time than it must: the clock moves on only when nothing is left to do,
and no further than to the next timer. -/
def PromptStep (scene scene' : Scene) : Prop :=
  Step scene scene' ∧ (scene.clock < scene'.clock → scene.Rests ∧ scene.Until scene'.clock)

/-- What a site does that is left to itself: it takes a step, or nothing is left to do and the clock
moves on to the next timer. -/
inductive Advances : Scene → Scene → Prop
  | proceeds {scene scene' : Scene} (h : scene.Proceeds scene') : Advances scene scene'
  | waits {site : Site} {pending : Option Pending} {task : Nat} {r : Reactor} {deadline : Nat}
      (hrest : Rests ⟨site, pending⟩) (hr : site.Runs task r)
      (hfree : r.isHeldUp site.surroundings = false)
      (hd : r.session.timers.next? = some deadline) (hfirst : Until ⟨site, pending⟩ deadline) :
      Advances ⟨site, pending⟩
        ⟨site.onSurroundings fun w => { w with now := deadline }, pending⟩

/-- A site that is left to itself comes to a scene of some kind, whatever the order in which it does
what there is to do. -/
inductive Leads (goal : Scene → Prop) : Scene → Prop
  | there {scene : Scene} (h : goal scene) : Leads goal scene
  | onward {scene : Scene} (hs : ∃ next, scene.Advances next)
      (h : ∀ next, scene.Advances next → Leads goal next) : Leads goal scene

theorem Leads.mono {goal goal' : Scene → Prop} (h : ∀ scene, goal scene → goal' scene)
    {scene : Scene} (hl : Leads goal scene) : Leads goal' scene := by
  induction hl with
  | there hg => exact .there (h _ hg)
  | onward hs _ ih => exact .onward hs ih

/-- A call to stop that was made at the time `since`, whatever had happened since `start`, waits,
and all that has happened since then was prompt; for the time `held` of it a reactor was held up. -/
inductive StopWaits (start : Scene) (since : Nat) : Nat → Scene → Prop
  /-- It has just been made, and does not return at once. -/
  | made {site site' : Site} {d : Driver} {p : Pending} (h : Steps start ⟨site, none⟩)
      (hd : site.driver = some d) (hi : site.issue .stop = (site', .pending p))
      (hc : site.surroundings.now = since) : StopWaits start since 0 ⟨site', some p⟩
  /-- Something has happened, but it still waits. Time has passed only if no reactor is held up. -/
  | longer {held : Nat} {scene scene' : Scene} (h : StopWaits start since held scene)
      (hs : scene.PromptStep scene') (hfree : scene.clock < scene'.clock → ¬ scene.HeldUp)
      (hw : scene'.pending.isSome = true) : StopWaits start since held scene'
  /-- Time has passed for which a reactor is held up. -/
  | heldUp {held : Nat} {site : Site} {p : Pending} (milliseconds : Nat)
      (h : StopWaits start since held ⟨site, some p⟩) (hheld : HeldUp ⟨site, some p⟩)
      (hs : PromptStep ⟨site, some p⟩
        ⟨site.onSurroundings fun w => { w with now := w.now + milliseconds }, some p⟩) :
      StopWaits start since (held + milliseconds)
        ⟨site.onSurroundings fun w => { w with now := w.now + milliseconds }, some p⟩

variable {scene scene' : Scene} {site site' : Site} {pending : Option Pending} {task since : Nat}
  {r : Reactor}

/-- A call to stop waits when it has been made and is pending. -/
theorem StopWaits.of_pending {start : Scene} {p : Pending} (h : Steps start ⟨site, none⟩)
    (hd : site.driver.isSome = true) (hp : (ofProgress (site.issue .stop)).pending = some p)
    (hc : site.surroundings.now = since) :
    StopWaits start since 0 ⟨(site.issue .stop).1, some p⟩ := by
  obtain ⟨d, hd⟩ := Option.isSome_iff_exists.mp hd
  exact .made h hd (pending_of_some hp) hc

theorem Proceeds.step (h : scene.Proceeds scene') : Step scene scene' := by
  cases h with
  | react hr h => exact .react hr h.step
  | @look site site' p result h =>
    have hlook : Step ⟨site, some p⟩ (ofProgress (site.look p)) := .look p
    rwa [h] at hlook

/-- When nothing is left to do at a site, nothing is left to do for its reactors. -/
theorem Rests.resting (h : Rests ⟨site, pending⟩) (hr : site.Runs task r)
    (hfree : r.isHeldUp site.surroundings = false) : r.Resting site.surroundings :=
  Reactor.resting_of_not_proceeds hfree fun _ _ hp => h _ (.react hr hp)

theorem isHeldUp_of_not_heldUp (h : ¬ HeldUp ⟨site, pending⟩) (hr : site.Runs task r) :
    r.isHeldUp site.surroundings = false :=
  Bool.eq_false_iff.mpr fun hheld => h ⟨task, r, hr, hheld⟩

theorem exists_proceeds (h : ¬ scene.Rests) : ∃ next, scene.Proceeds next :=
  Classical.byContradiction fun hnone => h fun next hp => hnone ⟨next, hp⟩

theorem Proceeds.clock_eq (h : scene.Proceeds scene') : scene'.clock = scene.clock := by
  cases h with
  | react _ h => exact h.step.around.now
  | @look site _ p _ h =>
    have hmanaged := site.managed_look p
    rw [h] at hmanaged
    exact hmanaged.around.now

/-- What a site does that is left to itself is prompt. -/
theorem Advances.prompt (h : scene.Advances scene') : scene.PromptStep scene' := by
  cases h with
  | proceeds h =>
    refine ⟨h.step, fun hlt => ?_⟩
    rw [h.clock_eq] at hlt
    exact absurd hlt (Nat.lt_irrefl _)
  | @waits site pending task r deadline hrest hr hfree hd hfirst =>
    have hlater : site.surroundings.now < deadline := (hrest.resting hr hfree).lt_next hd
    have hstep : Step ⟨site, pending⟩ _ := .clock (deadline - site.surroundings.now)
    simp only [Site.onSurroundings, Nat.add_sub_cancel' (Nat.le_of_lt hlater)] at hstep
    exact ⟨hstep, fun _ => ⟨hrest, hfirst⟩⟩

/-! ## A call to stop that waits -/

/-- A call that was made at the time `since` to stop a reactor: the reactor has yet to carry the
command out, and no time has passed, or its session is being stopped, in time. -/
structure StopsBy (since task : Nat) (scene : Scene) : Prop where
  pending : scene.pending = some (.stopping task false)
  inTime : scene.clock ≤ since + stopGrace
  told : ∀ {r}, scene.site.Runs task r → (.stop ∈ r.inbox ∧ scene.clock = since) ∨
    ∃ deadline ≤ since + stopGrace, r.session.Halting deadline

/-- A step of the reactor keeps that. -/
theorem StopsBy.react {j : Nat} {w : Surroundings} {after : ReactorTask}
    (h : StopsBy since task ⟨site, pending⟩) (hu : Upheld ⟨site, pending⟩) (hr : site.Runs j r)
    (hs : r.Step site.surroundings w after) :
    StopsBy since task
      ⟨{ site with surroundings := w, tasks := site.tasks.set j after }, pending⟩ := by
  have hclock : w.now = site.surroundings.now := hs.around.now
  refine ⟨h.pending, Nat.le_trans (Nat.le_of_eq hclock) h.inTime, fun {r'} hr' => ?_⟩
  rcases runs_set hr hr' with ⟨rfl, rfl⟩ | ⟨-, hr'⟩
  · have hsteady := hu.steady hr
    have hdriven := hs.driven (hu.sound.orderly.owns hr).1
    rcases h.told hr with ⟨hstop, hsince⟩ | ⟨deadline, hd, hhalting⟩
    · rcases hs.heeds.stop_kept hstop with hstop | hstopping
      · exact .inl ⟨hstop, hclock.trans hsince⟩
      · -- The command has been carried out, at the time of the call.
        obtain ⟨deadline, hd, hhalting⟩ := (hsteady.driven hdriven).halting hstopping
        exact .inr ⟨deadline, hsince ▸ hd, hhalting⟩
    · exact .inr ⟨deadline, hd, hdriven.halting hsteady.consistent hhalting⟩
  · rcases h.told hr' with ⟨hstop, hsince⟩ | hhalting
    · exact .inl ⟨hstop, hclock.trans hsince⟩
    · exact .inr hhalting

/-- When nothing is left to do, nothing is held up and the call still waits, the stop has begun, and
its time runs. -/
theorem StopsBy.rests (h : StopsBy since task ⟨site, pending⟩) (hu : Upheld ⟨site, pending⟩)
    (hfree : ¬ HeldUp ⟨site, pending⟩) (hrest : Rests ⟨site, pending⟩) :
    ∃ r deadline, site.Runs task r ∧ r.session.timers.next? = some deadline ∧
      site.surroundings.now < deadline ∧ deadline ≤ since + stopGrace ∧
      ∃ grace ≤ since + stopGrace, r.session.Halting grace := by
  obtain rfl : pending = some (.stopping task false) := h.pending
  obtain ⟨d, hd, -⟩ := hu.sound.called rfl
  -- The reactor runs, or the call would return.
  obtain ⟨r, hr⟩ : ∃ r, site.Runs task r := by
    rcases Site.look_stopping hd task false with ⟨r, hr, -⟩ | ⟨-, hlook⟩
    · exact ⟨r, hr⟩
    · obtain ⟨site', result, hreturned⟩ := site.afterStop_finished d false
      exact absurd (.look (hlook.trans hreturned)) (hrest _)
  have hresting := hrest.resting hr (isHeldUp_of_not_heldUp hfree hr)
  have hinbox := hresting.inbox (hu.attended hr hd)
  obtain ⟨grace, hgrace, hhalting⟩ := (h.told hr).resolve_left fun htold => by
    rw [hinbox] at htold
    cases htold.1
  have hopened := (hu.steady hr).opened hresting.outbox
  obtain ⟨deadline, hnext, hle⟩ := Timers.next?_le (hhalting.grace hopened)
  exact ⟨r, deadline, hr, hnext, hresting.lt_next hnext, Nat.le_trans hle hgrace, grace, hgrace,
    hhalting⟩

/-- Any prompt step keeps that, as long as the call waits, unless time passes while a reactor is held
up. -/
theorem StopsBy.prompt (h : StopsBy since task scene) (hu : scene.Upheld)
    (hs : scene.PromptStep scene') (hfree : scene.clock < scene'.clock → ¬ scene.HeldUp)
    (hw : scene'.pending.isSome = true) : StopsBy since task scene' := by
  obtain ⟨hstep, hclock⟩ := hs
  cases hstep with
  | react hr hstep => exact h.react hu hr hstep
  | issue _ _ => cases h.pending
  | @look site p =>
    obtain rfl : p = .stopping task false := Option.some.inj h.pending
    obtain ⟨d, hd, -⟩ := hu.sound.called rfl
    rcases Site.look_stopping hd task false with ⟨_, -, hlook⟩ | ⟨-, hlook⟩
    · rw [hlook]
      exact h
    · obtain ⟨site', result, hreturned⟩ := site.afterStop_finished d false
      rw [hlook, hreturned] at hw
      cases hw
  | abandon _ => cases hw
  | drop => cases hw
  | @clock site pending ms =>
    rcases Nat.eq_zero_or_pos ms with rfl | hpos
    · exact h
    · obtain ⟨hrest, huntil⟩ := hclock (Nat.lt_add_of_pos_right hpos)
      have hfree := hfree (Nat.lt_add_of_pos_right hpos)
      obtain ⟨r, deadline, hr, hnext, -, hle, grace, hgrace, hhalting⟩ := h.rests hu hfree hrest
      have htime := huntil _ r deadline hr (isHeldUp_of_not_heldUp hfree hr) hnext
      refine ⟨h.pending, Nat.le_trans htime hle, fun {r'} hr' => ?_⟩
      obtain rfl : r = r' := hr.unique hr'
      exact .inr ⟨grace, hgrace, hhalting⟩
  | network _ => exact ⟨h.pending, h.inTime, h.told⟩
  | host _ => exact ⟨h.pending, h.inTime, h.told⟩

/-- Time for which a reactor is held up comes on top. -/
theorem StopsBy.heldUp (h : StopsBy since task ⟨site, pending⟩) (milliseconds : Nat) :
    StopsBy (since + milliseconds) task
      ⟨site.onSurroundings fun w => { w with now := w.now + milliseconds }, pending⟩ := by
  have hinTime : site.surroundings.now ≤ since + stopGrace := h.inTime
  refine ⟨h.pending, ?_, fun hr => (h.told hr).imp ?_ ?_⟩
  · change site.surroundings.now + milliseconds ≤ _
    omega
  · rintro ⟨hstop, hsince⟩
    exact ⟨hstop, congrArg (· + milliseconds) hsince⟩
  · rintro ⟨deadline, hd, hhalting⟩
    exact ⟨deadline, by omega, hhalting⟩

/-! ## What a call to stop leaves behind -/

/-- When the host works, a call to stop that returns has succeeded: no alert is active and the
machine is stored as not connected. -/
theorem afterStop_of_works {d : Driver} (hw : site.surroundings.host.Works) :
    ∃ site', site.afterStop d false = (site', .finished (.ok ())) ∧ site'.driver = site.driver ∧
      site'.surroundings.host.board.active = [] ∧
      site'.surroundings.host.config.get? d.machine.statusPath = some false := by
  have hclear : site.surroundings.host.clearAll =
      ({ site.surroundings.host.note .clearAll with
          board := site.surroundings.host.board.clearAll }, .ok ()) := by
    unfold Host.clearAll
    dsimp only
    rw [if_neg (by simp [hw.alerts])]
  unfold Site.afterStop Site.finishStop
  rw [hclear]
  refine ⟨_, rfl, rfl, ?_, ?_⟩
  · simp [Site.storeStatus, Site.onSurroundings, Surroundings.storeStatus, Surroundings.onHost,
      Host.store, Host.note, hw.config, AlertBoard.clearAll]
  · simp [Site.storeStatus, Site.onSurroundings, Surroundings.storeStatus, Surroundings.onHost,
      Host.store, Host.note, hw.config, Keyed.get?_insert_self]

theorem StopReturns.afterStop {result : Except LinkError Unit} (h : StopReturns scene result site')
    (hs : scene.Sound) : ∃ d, scene.site.driver = some d ∧ d.running = none ∧
      scene.site.afterStop d false = (site', .finished result) := by
  cases h with
  | @atOnce site _ d _ hd hi =>
    unfold Site.issue at hi
    rw [hd] at hi
    dsimp only at hi
    unfold Site.halt at hi
    split at hi
    · next hr => exact ⟨d, hd, hr, hi⟩
    · cases hi
  | @later site _ task _ hl =>
    obtain ⟨d, hd, hr⟩ := hs.called rfl
    rcases Site.look_stopping hd task false with ⟨_, -, hlook⟩ | ⟨-, hlook⟩
    · rw [hlook] at hl
      cases hl
    · exact ⟨d, hd, hr, hlook ▸ hl⟩

/-! ## The end is inevitable -/

/-- When the reactor has ended, the call returns. -/
theorem StopsBy.returns (h : StopsBy since task scene) (hu : scene.Upheld)
    (hw : scene.site.surroundings.host.Works) (hnot : ∀ r, ¬ scene.site.Runs task r) :
    ∃ site', scene.StopReturns (.ok ()) site' := by
  obtain ⟨site, pending⟩ := scene
  obtain rfl : pending = some (.stopping task false) := h.pending
  obtain ⟨d, hd, -⟩ := hu.sound.called rfl
  obtain ⟨site', hreturned, -⟩ := afterStop_of_works (d := d) hw
  rcases Site.look_stopping hd task false with ⟨r, hr, -⟩ | ⟨-, hlook⟩
  · exact absurd hr (hnot r)
  · exact ⟨site', .later (hlook.trans hreturned)⟩

/-- How far the call is from its end: the time that is left, and then how far the reactor is from
rest. -/
def distance (since task : Nat) (scene : Scene) : Nat × Nat × Nat × Nat :=
  (since + stopGrace - scene.clock,
    match scene.site.tasks[task]? with
    | some (.running r) => r.rank scene.site.surroundings
    | _ => (0, 0, 0))

theorem distance_of_runs (hr : site.Runs task r) : distance since task ⟨site, pending⟩ =
    (since + stopGrace - site.surroundings.now, r.rank site.surroundings) := by
  unfold distance
  rw [show site.tasks[task]? = some (.running r) from hr]
  rfl

/-- Whether the call is nearer to its end in a scene than in another. -/
def Nearer (since task : Nat) (next scene : Scene) : Prop :=
  Prod.Lex (· < ·) (Prod.Lex (· < ·) (Prod.Lex (· < ·) (· < ·)))
    (distance since task next) (distance since task scene)

theorem nearer_wf (since task : Nat) : WellFounded (Nearer since task) :=
  InvImage.wf (distance since task)
    (Prod.lex Nat.lt_wfRel (Prod.lex Nat.lt_wfRel (Prod.lex Nat.lt_wfRel Nat.lt_wfRel))).wf

theorem nearer_of_later {r' : Reactor} {site' : Site} {pending' : Option Pending}
    (hr : site.Runs task r) (hr' : site'.Runs task r')
    (hlater : site.surroundings.now < site'.surroundings.now)
    (hle : site'.surroundings.now ≤ since + stopGrace) :
    Nearer since task ⟨site', pending'⟩ ⟨site, pending⟩ := by
  unfold Nearer
  rw [distance_of_runs hr, distance_of_runs hr']
  refine .left _ _ ?_
  omega

theorem nearer_of_rank {r' : Reactor} {site' : Site} {pending' : Option Pending}
    (hr : site.Runs task r) (hr' : site'.Runs task r')
    (hnow : site'.surroundings.now = site.surroundings.now)
    (hrank : Prod.Lex (· < ·) (Prod.Lex (· < ·) (· < ·)) (r'.rank site'.surroundings)
      (r.rank site.surroundings)) :
    Nearer since task ⟨site', pending'⟩ ⟨site, pending⟩ := by
  unfold Nearer
  rw [distance_of_runs hr, distance_of_runs hr', hnow]
  exact .right _ hrank

/-- While the reactor runs and is not held up, something is to be done or waited for. -/
theorem StopsBy.exists_advances (h : StopsBy since task ⟨site, pending⟩)
    (hu : Upheld ⟨site, pending⟩) (hfree : ¬ HeldUp ⟨site, pending⟩) :
    ∃ next, Advances ⟨site, pending⟩ next := by
  by_cases hrest : Rests ⟨site, pending⟩
  · obtain ⟨r, deadline, hr, hd, -⟩ := h.rests hu hfree hrest
    have hheld := isHeldUp_of_not_heldUp hfree hr
    refine ⟨_, .waits hrest hr hheld hd fun j r' later hj _ hlater => ?_⟩
    -- No other reactor runs.
    obtain rfl := hu.sound.orderly.one hr hj
    obtain rfl := hr.unique hj
    exact Nat.le_of_eq (Option.some.inj (hd.symm.trans hlater))
  · obtain ⟨next, hp⟩ := exists_proceeds hrest
    exact ⟨next, .proceeds hp⟩

/-- What is not a site's to change: whether the host works, and whether the equipment reads. -/
structure Kept (scene next : Scene) : Prop where
  works : scene.site.surroundings.host.Works → next.site.surroundings.host.Works
  reads : scene.site.surroundings.network.Reads → next.site.surroundings.network.Reads

/-- A step that the site takes leaves the call waiting, and its reactor has ended or is nearer to its
end. -/
theorem StopsBy.proceeds (h : StopsBy since task ⟨site, pending⟩) (hu : Upheld ⟨site, pending⟩)
    (hr : site.Runs task r) {next : Scene} (hp : Proceeds ⟨site, pending⟩ next) :
    StopsBy since task next ∧ Kept ⟨site, pending⟩ next ∧
      ((∀ r', ¬ next.site.Runs task r') ∨ Nearer since task next ⟨site, pending⟩) := by
  obtain rfl : pending = some (.stopping task false) := h.pending
  cases hp with
  | @react _ _ j r' w after hr' hp =>
    obtain rfl := hu.sound.orderly.one hr hr'
    obtain rfl := hr.unique hr'
    have haround := hp.step.around
    have hlt : task < site.tasks.length := (List.getElem?_eq_some_iff.mp hr).1
    have hself : (site.tasks.set task after)[task]? = some after := List.getElem?_set_self hlt
    have hkept : Kept ⟨site, some (.stopping task false)⟩
        ⟨{ site with surroundings := w, tasks := site.tasks.set task after },
          some (.stopping task false)⟩ :=
      ⟨fun hw => ⟨haround.alerts.trans hw.alerts, haround.config.trans hw.config⟩, hp.step.reads⟩
    refine ⟨h.react hu hr hp.step, hkept, ?_⟩
    cases after with
    | ended outcome =>
      refine .inl fun r' hr' => ?_
      cases hself.symm.trans hr'
    | running r' =>
      exact .inr (nearer_of_rank hr hself haround.now (hp.rank_lt (hu.steady hr).spaced))
  | look hlook =>
    -- The call does not look up from a reactor that runs.
    obtain ⟨d, hd, -⟩ := hu.sound.called rfl
    rcases Site.look_stopping hd task false with ⟨_, -, hpending⟩ | ⟨hnot, -⟩
    · rw [hpending] at hlook
      cases hlook
    · exact absurd hr (hnot r)

/-- Whatever it is, the call still waits then, and its reactor has ended or is nearer to its end. -/
theorem StopsBy.advances (h : StopsBy since task ⟨site, pending⟩) (hu : Upheld ⟨site, pending⟩)
    (hfree : ¬ HeldUp ⟨site, pending⟩) (hr : site.Runs task r) {next : Scene}
    (hn : Advances ⟨site, pending⟩ next) :
    StopsBy since task next ∧ Kept ⟨site, pending⟩ next ∧
      ((∀ r', ¬ next.site.Runs task r') ∨ Nearer since task next ⟨site, pending⟩) := by
  cases hn with
  | proceeds hp => exact h.proceeds hu hr hp
  | @waits _ _ j r' deadline hrest hr' hheld hd hfirst =>
    obtain rfl := hu.sound.orderly.one hr hr'
    obtain rfl := hr.unique hr'
    obtain ⟨r', deadline', hr', hd', hlater, hle, -⟩ := h.rests hu hfree hrest
    obtain rfl := hr.unique hr'
    obtain rfl := Option.some.inj (hd.symm.trans hd')
    have hprompt := (Advances.waits hrest hr hheld hd hfirst).prompt
    refine ⟨h.prompt hu hprompt (fun _ => hfree) ?_, ⟨id, id⟩, .inr (nearer_of_later hr hr hlater hle)⟩
    exact Option.isSome_iff_exists.mpr ⟨_, h.pending⟩

/-- Left to itself, the site comes to the return of the call, unless the equipment does not read and
holds the reactor up. -/
theorem StopsBy.leads (h : StopsBy since task scene) (hu : scene.Upheld)
    (hw : scene.site.surroundings.host.Works) :
    scene.Leads fun later => later.clock ≤ since + stopGrace ∧
      ((∃ site', later.StopReturns (.ok ()) site') ∨
        later.HeldUp ∧ ¬ scene.site.surroundings.network.Reads) := by
  -- The induction goes on to other scenes: only what is known of the first stays fixed.
  suffices hall : ∀ reads : Prop, (reads → scene.site.surroundings.network.Reads) →
      scene.Leads fun later => later.clock ≤ since + stopGrace ∧
        ((∃ site', later.StopReturns (.ok ()) site') ∨ later.HeldUp ∧ ¬ reads) from hall _ id
  intro reads hreads
  induction scene using (nearer_wf since task).induction with
  | _ scene ih =>
  by_cases hruns : ∃ r, scene.site.Runs task r
  · obtain ⟨r, hr⟩ := hruns
    by_cases hheld : scene.HeldUp
    · refine .there ⟨h.inTime, .inr ⟨hheld, fun hread => ?_⟩⟩
      obtain ⟨_, r', -, hr'⟩ := hheld
      rw [Reactor.isHeldUp_of_reads (hreads hread)] at hr'
      cases hr'
    refine .onward (h.exists_advances hu hheld) fun next hnext => ?_
    obtain ⟨hstops, hkept, hnearer⟩ := h.advances hu hheld hr hnext
    have hunext := hnext.prompt.1.upheld hu
    rcases hnearer with hended | hless
    · exact .there ⟨hstops.inTime, .inl (hstops.returns hunext (hkept.works hw) hended)⟩
    · exact ih _ hless hstops hunext (hkept.works hw) fun hread => hkept.reads (hreads hread)
  · exact .there ⟨h.inTime, .inl (h.returns hu hw fun r hr => hruns ⟨r, hr⟩)⟩

/-! ## Calls to stop -/

/-- A call to stop that does not return at once has told the reactor to stop. -/
theorem stopsBy_issue {d : Driver} {p : Pending} (hd : site.driver = some d)
    (hi : site.issue .stop = (site', .pending p)) :
    ∃ task, StopsBy site.surroundings.now task ⟨site', some p⟩ := by
  unfold Site.issue at hi
  rw [hd] at hi
  dsimp only at hi
  unfold Site.halt at hi
  split at hi
  · obtain ⟨_, _, hreturned⟩ := site.afterStop_finished d false
    rw [hreturned] at hi
    cases hi
  · next task _ =>
    cases hi
    refine ⟨task, rfl, Nat.le_add_right _ _, fun hr => .inl ⟨?_, rfl⟩⟩
    obtain ⟨r₀, -, rfl⟩ := Site.runs_onReactor.mp hr
    rw [if_pos rfl]
    exact List.mem_append_right _ (List.mem_singleton_self _)

theorem StopWaits.stopsBy {start : Scene} {held : Nat} (h : StopWaits start since held scene)
    (hu : start.Upheld) : scene.Upheld ∧ ∃ task, StopsBy (since + held) task scene := by
  induction h with
  | @made site _ _ _ hp hd hi hc =>
    have hissue : Step ⟨site, none⟩ (ofProgress (site.issue .stop)) := .issue hd .stop
    rw [hi] at hissue
    exact ⟨hissue.upheld (hp.upheld hu), hc ▸ stopsBy_issue hd hi⟩
  | longer _ hs hfree hw ih =>
    obtain ⟨hu, task, hstops⟩ := ih
    exact ⟨hs.1.upheld hu, task, hstops.prompt hu hs hfree hw⟩
  | heldUp milliseconds _ _ hs ih =>
    obtain ⟨hu, task, hstops⟩ := ih
    exact ⟨hs.1.upheld hu, task, Nat.add_assoc _ _ _ ▸ hstops.heldUp milliseconds⟩

/-! ### A reactor that is held up -/

/-- While a reactor is held up, a call that has told it to stop has nothing to do but to wait, and
there is no other timer to wait for. -/
theorem Sound.rests_of_heldUp {thenStart : Bool}
    (h : Sound ⟨site, some (.stopping task thenStart)⟩)
    (hheld : HeldUp ⟨site, some (.stopping task thenStart)⟩) :
    Rests ⟨site, some (.stopping task thenStart)⟩ ∧
      ∀ time, Until ⟨site, some (.stopping task thenStart)⟩ time := by
  obtain ⟨j, r, hr, hheld⟩ := hheld
  obtain ⟨d, hd, hunknown⟩ := h.called rfl
  -- It is the reactor that the call waits for.
  obtain rfl : task = j := by
    rcases h.known hr hd with hknown | ⟨_, hp⟩
    · cases hunknown.symm.trans hknown
    · cases hp
      rfl
  refine ⟨fun next hp => ?_, fun time k r' deadline hr' hfree _ => ?_⟩
  · cases hp with
    | react hr' hp =>
      obtain rfl := h.orderly.one hr hr'
      obtain rfl := hr.unique hr'
      exact Reactor.not_proceeds_of_isHeldUp hheld hp
    | look hlook =>
      rcases Site.look_stopping hd task thenStart with ⟨_, -, hpending⟩ | ⟨hnot, -⟩
      · cases hpending.symm.trans hlook
      · exact hnot r hr
  · obtain rfl := h.orderly.one hr hr'
    obtain rfl := hr.unique hr'
    cases hheld.symm.trans hfree

/-- While a reactor is held up, a call to stop that waits can go on to wait for any time. -/
theorem StopWaits.goes_on {start : Scene} {held : Nat} {p : Pending}
    (h : StopWaits start since held ⟨site, some p⟩) (hu : start.Upheld)
    (hheld : HeldUp ⟨site, some p⟩) (milliseconds : Nat) :
    StopWaits start since (held + milliseconds)
      ⟨site.onSurroundings fun w => { w with now := w.now + milliseconds }, some p⟩ := by
  obtain ⟨hupheld, task, hstops⟩ := h.stopsBy hu
  obtain rfl : p = .stopping task false := Option.some.inj hstops.pending
  obtain ⟨hrests, huntil⟩ := hupheld.sound.rests_of_heldUp hheld
  exact .heldUp milliseconds h hheld ⟨.clock milliseconds, fun _ => ⟨hrests, huntil _⟩⟩

end Scene

/-- However a driver is called, and whatever happens to it, its equipment and the clock: a call to
stop that was made at the time `since`, and does not return at once, waits no longer than the time
that a stop grants an open question, and the time for which a reactor is held up by equipment that
reads nothing, as long as no time passes while something is left to do. As long as the host works the
site comes, left to itself, to the success of the call within that time, if the equipment reads; if
it does not, it comes to that or to a reactor that is held up. When a call to stop returns and the
host works, it has succeeded, the driver is not running, the machine is stored as not connected, and
no alert is active; and whatever happens afterwards, no reactor that there has been runs, so that
none of its alerts, values and states reaches the host any more. Every call to stop, to restart or
to change the model is waited for: one that is given up in the middle leaves a reactor behind that
still runs. -/
theorem stop_completes (reachable listening : Bool) (machine : Machine) :
    (∀ since held scene,
      Scene.StopWaits ⟨Site.ofMachine { reachable, listening } machine, none⟩ since held scene →
        scene.clock ≤ since + held + stopGrace ∧
        (scene.site.surroundings.host.Works → scene.Leads fun later =>
          later.clock ≤ since + held + stopGrace ∧
            ((∃ site', later.StopReturns (.ok ()) site') ∨
              later.HeldUp ∧ ¬ scene.site.surroundings.network.Reads))) ∧
    ∀ scene result site',
      Scene.Steps ⟨Site.ofMachine { reachable, listening } machine, none⟩ scene →
      scene.StopReturns result site' → scene.site.surroundings.host.Works →
        result = .ok () ∧
        (∃ d, site'.driver = some d ∧ d.running = none ∧
          site'.surroundings.host.config.get? d.machine.statusPath = some false) ∧
        site'.surroundings.host.board.active = [] ∧
        ∀ later, Scene.Steps ⟨site', none⟩ later →
          ∀ task r, later.site.Runs task r → site'.tasks.length ≤ task := by
  have hstart : Scene.Upheld ⟨Site.ofMachine { reachable, listening } machine, none⟩ :=
    Scene.upheld_of_idle (Site.idle_ofMachine reachable listening machine)
  refine ⟨fun since held scene h => ?_, fun scene result site' h hreturns hw => ?_⟩
  · obtain ⟨hu, task, hstops⟩ := h.stopsBy hstart
    exact ⟨hstops.inTime, hstops.leads hu⟩
  · have hsound := h.sound hstart.sound
    obtain ⟨d, hd, hr, hafter⟩ := hreturns.afterStop hsound
    obtain ⟨site'', hok, hdriver, halerts, hstatus⟩ := Scene.afterStop_of_works (d := d) hw
    obtain ⟨rfl, hresult⟩ := Prod.mk.inj (hafter.symm.trans hok)
    obtain rfl := Progress.finished.inj hresult
    refine ⟨rfl, ⟨d, hdriver.trans hd, hr, hstatus⟩, halerts, fun later hlater => ?_⟩
    have hidle := hreturns.idle hsound
    have hretired : Scene.Retired site'.tasks.length ⟨site', none⟩ :=
      ⟨Nat.le_refl _, fun hruns => absurd hruns (hidle.runs _ _)⟩
    exact fun task r hruns => (hlater.retired hretired).ended hruns

/-! ### A stop in the middle of a handshake -/

theorem stop_completes_reconnectedSite :
    (∃ scene, Scene.StopWaits ⟨freshSite, none⟩ 5000 0 scene ∧ scene.clock ≤ 7000 ∧
      scene.site.surroundings.network.held.length = 1 ∧
      scene.Leads fun later =>
        later.clock ≤ 7000 ∧ ∃ site', later.StopReturns (.ok ()) site') ∧
    ∃ site', Scene.StopReturns ⟨stoppingSite, some (.stopping 0 false)⟩ (.ok ()) site' ∧
      site'.surroundings.host.board.active = [] := by
  obtain ⟨hwaiting, hreturning⟩ := stop_completes true true
    { info := { name := "press" }, model := { enable := true }, vars := [] }
  refine ⟨?_, ?_⟩
  · have hwaits : Scene.StopWaits ⟨freshSite, none⟩ 5000 0
        ⟨(reconnectedSite.issue .stop).1, some (.stopping 0 false)⟩ :=
      .of_pending ownSteps_reconnectedSite.steps (by decide +kernel) (by decide +kernel)
        (by decide +kernel)
    obtain ⟨hclock, hleads⟩ := hwaiting 5000 0 _ hwaits
    have hreads : Network.Reads (reconnectedSite.issue .stop).1.surroundings.network := by
      decide +kernel
    refine ⟨_, hwaits, hclock, by decide +kernel,
      (hleads ⟨by decide +kernel, by decide +kernel⟩).mono fun later hlater => ?_⟩
    exact ⟨hlater.1, hlater.2.resolve_right fun hheld => hheld.2 hreads⟩
  · have hreturned : (Scene.ofProgress (stoppingSite.look (.stopping 0 false))).pending = none := by
      decide +kernel
    obtain ⟨result, hlook⟩ := Scene.finished_of_pending hreturned
    obtain ⟨rfl, -, halerts, -⟩ := hreturning _ result _ ownSteps_stoppingSite.steps (.later hlook)
      ⟨by decide +kernel, by decide +kernel⟩
    exact ⟨_, .later hlook, halerts⟩

/-! ### Equipment that reads nothing -/

/-- The equipment of a driver that has been started has stopped reading, and asks whether the driver
is there. -/
def deafSite : Site :=
  (startedSite.onNetwork fun n => n.equipmentStall true).onNetwork fun n =>
    n.equipmentSend [0, 0, 0, 10, 255, 255, 0x81, 1, 0, 0, 0, 0, 0, 7]

/-- Then the driver has been told to stop, and some time has passed. -/
def deafScene (milliseconds : Nat) : Scene where
  site := (deafSite.issue .stop).1.onSurroundings fun w => { w with now := w.now + milliseconds }
  pending := some (.stopping 0 false)

/-- Whether a call to stop waits no longer than the time that it grants an open question. -/
def Scene.StopsInTime (start : Scene) : Prop :=
  ∀ since held scene, Scene.StopWaits start since held scene → scene.clock ≤ since + stopGrace

theorem ownSteps_deafSite : Scene.OwnSteps ⟨freshSite, none⟩ ⟨deafSite, none⟩ :=
  (ownSteps_startedSite.trans (Scene.ownSteps_onNetwork (.stalled true))).trans
    (Scene.ownSteps_onNetwork (.sent _))

theorem not_stopsInTime_deafSite :
    (∀ milliseconds,
      Scene.StopWaits ⟨freshSite, none⟩ 0 milliseconds (deafScene milliseconds)) ∧
    ¬ Scene.StopsInTime ⟨freshSite, none⟩ := by
  have hmade : Scene.StopWaits ⟨freshSite, none⟩ 0 0 (deafScene 0) :=
    .of_pending ownSteps_deafSite.steps (by decide +kernel) (by decide +kernel) (by decide +kernel)
  have hheld : (deafScene 0).HeldUp := ⟨0, Site.exists_runs_of_any (by decide +kernel)⟩
  have hwaits : ∀ milliseconds,
      Scene.StopWaits ⟨freshSite, none⟩ 0 milliseconds (deafScene milliseconds) := by
    intro milliseconds
    have hlonger := hmade.goes_on (Scene.upheld_of_idle (Site.idle_ofMachine _ _ _)) hheld
      milliseconds
    rwa [Nat.zero_add] at hlonger
  refine ⟨hwaits, fun hinTime => ?_⟩
  have hclock : (deafScene 60000).clock ≤ 0 + stopGrace := hinTime _ _ _ (hwaits 60000)
  revert hclock
  decide +kernel

end GemLink
