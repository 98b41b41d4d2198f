import GemLink.Driver.Lifecycle
import Mathlib.Logic.Relation

/-!
What can happen at a site, step by step. A reactor takes one action, gives its answers, or handles
one of the things that can happen to it, in whatever order they come; a call of the driver is made,
looked at again or given up; the driver is dropped; and the clock, the network and the host change
at any time in between (`Scene.Step`). A call that stops a reactor is seen through to its end: a
caller who no longer waits for a stop, a restart or a change of the model is left out, since the
driver would then have forgotten a reactor that still runs.

To let everything happen that can happen is one way to take such steps (`ownSteps_settle`), and so
are the operations of a site that do so (`ownSteps_call`, `ownSteps_resume`, `ownSteps_drop`,
`ownSteps_advance`, `ownSteps_onNetwork`). None of them changes the host from outside
(`Scene.OwnStep`).
-/

namespace GemLink

/-- One step of a running reactor. -/
inductive Reactor.Step (w : Surroundings) (r : Reactor) : Surroundings → ReactorTask → Prop
  /-- An action is taken. -/
  | act {w' : Surroundings} {after : ReactorTask} (h : r.take? w = some (w', after)) :
      Step w r w' after
  /-- No action is left, and the answers are given. -/
  | answer (h : r.session.outbox = []) : Step w r (r.answer w).1 (r.answer w).2
  /-- No action and no answer is left, and something happens to the reactor. -/
  | handle (event : ReactorEvent) {w' : Surroundings} {r' : Reactor} (ho : r.session.outbox = [])
      (ha : r.replies = []) (h : r.handle w event = some (w', r')) : Step w r w' (.running r')

/-- One change of the network from the side of the equipment. -/
inductive Network.Disturbed (n : Network) : Network → Prop
  /-- The network carries connections, or no longer does. -/
  | reachable (carries : Bool) : Disturbed n { n with reachable := carries }
  /-- The equipment accepts connections, or no longer does. -/
  | listening (accepts : Bool) : Disturbed n { n with listening := accepts }
  /-- The equipment sends bytes. -/
  | sent (bytes : Bytes) : Disturbed n (n.equipmentSend bytes)
  /-- The equipment reads what it is sent, or does not until all that is in between is full. -/
  | stalled (full : Bool) : Disturbed n (n.equipmentStall full)
  /-- The equipment ends the connection. -/
  | closed : Disturbed n n.equipmentClose
  /-- The connection breaks down. -/
  | broken : Disturbed n n.breakDown

/-- Whether a call waits for a reactor to end that it has told to stop. -/
def Pending.isStop : Pending → Bool
  | .stopping _ _ => true
  | .ending _ | .writing _ _ => false

/-- A site and the call of its driver that waits. -/
structure Scene where
  /-- The site. -/
  site : Site
  /-- The call that waits, if one does. -/
  pending : Option Pending := none

namespace Scene

/-- The scene after a call has been made or looked at. -/
def ofProgress : Site × Progress → Scene
  | (site, .finished _) => ⟨site, none⟩
  | (site, .pending p) => ⟨site, some p⟩

/-- One step of a scene, at which the host changes of its own accord only in the ways that are
allowed. -/
inductive StepWith (allowed : Host → Host → Prop) : Scene → Scene → Prop
  /-- A reactor takes a step. -/
  | react {site : Site} {pending : Option Pending} {task : Nat} {r : Reactor}
      {surroundings : Surroundings} {after : ReactorTask}
      (hr : site.tasks[task]? = some (.running r))
      (h : r.Step site.surroundings surroundings after) :
      StepWith allowed ⟨site, pending⟩
        ⟨{ site with surroundings, tasks := site.tasks.set task after }, pending⟩
  /-- The driver is called. -/
  | issue {site : Site} {d : Driver} (hd : site.driver = some d) (c : Call) :
      StepWith allowed ⟨site, none⟩ (ofProgress (site.issue c))
  /-- A call that waits is looked at again. -/
  | look {site : Site} (p : Pending) : StepWith allowed ⟨site, some p⟩ (ofProgress (site.look p))
  /-- A call that stops nothing is given up. -/
  | abandon {site : Site} {p : Pending} (hp : p.isStop = false) :
      StepWith allowed ⟨site, some p⟩ ⟨site, none⟩
  /-- The driver is dropped. -/
  | drop {site : Site} : StepWith allowed ⟨site, none⟩ ⟨site.release, none⟩
  /-- Time passes. -/
  | clock {site : Site} {pending : Option Pending} (milliseconds : Nat) :
      StepWith allowed ⟨site, pending⟩
        ⟨site.onSurroundings fun w => { w with now := w.now + milliseconds }, pending⟩
  /-- The network changes. -/
  | network {site : Site} {pending : Option Pending} {network : Network}
      (h : site.surroundings.network.Disturbed network) :
      StepWith allowed ⟨site, pending⟩
        ⟨site.onSurroundings fun w => { w with network }, pending⟩
  /-- The host changes. -/
  | host {site : Site} {pending : Option Pending} (host : Host)
      (h : allowed site.surroundings.host host) :
      StepWith allowed ⟨site, pending⟩ ⟨site.onSurroundings fun w => { w with host }, pending⟩

/-- One step of a scene. -/
def Step : Scene → Scene → Prop :=
  StepWith fun _ _ => True

/-- Some steps of a scene. -/
def Steps : Scene → Scene → Prop :=
  Relation.ReflTransGen Step

/-- One step of a scene that leaves the host to the driver and its reactors. -/
def OwnStep : Scene → Scene → Prop :=
  StepWith fun _ _ => False

/-- Some steps of a scene that leave the host to the driver and its reactors. -/
def OwnSteps : Scene → Scene → Prop :=
  Relation.ReflTransGen OwnStep

theorem StepWith.mono {allowed allowed' : Host → Host → Prop}
    (ha : ∀ host host', allowed host host' → allowed' host host') {scene scene' : Scene}
    (h : StepWith allowed scene scene') : StepWith allowed' scene scene' := by
  cases h with
  | react hr h => exact .react hr h
  | issue hd c => exact .issue hd c
  | look p => exact .look p
  | abandon hp => exact .abandon hp
  | drop => exact .drop
  | clock milliseconds => exact .clock milliseconds
  | network h => exact .network h
  | host host h => exact .host host (ha _ _ h)

theorem StepWith.step {allowed : Host → Host → Prop} {scene scene' : Scene}
    (h : StepWith allowed scene scene') : Step scene scene' :=
  h.mono fun _ _ _ => trivial

theorem OwnSteps.steps {scene scene' : Scene} (h : OwnSteps scene scene') : Steps scene scene' :=
  Relation.ReflTransGen.mono (fun _ _ => StepWith.step) _ _ h

end Scene

/-! ## A reactor runs until it waits -/

namespace Reactor

/-- One step of a reactor with its surroundings. -/
def Moves (x y : Surroundings × ReactorTask) : Prop :=
  ∃ r, x.2 = .running r ∧ r.Step x.1 y.1 y.2

variable {w w' : Surroundings} {r r' : Reactor} {after : ReactorTask}

theorem moves_of_step (h : r.Step w w' after) : Moves (w, .running r) (w', after) :=
  ⟨r, rfl, h⟩

theorem outbox_of_take? (h : r.take? w = none) (hfree : r.isHeldUp w = false) :
    r.session.outbox = [] := by
  unfold take? at h
  rw [hfree] at h
  cases ho : r.session.outbox with
  | nil => rfl
  | cons a rest =>
    rw [ho] at h
    cases h

theorem moves_flush (w : Surroundings) (r : Reactor) :
    Relation.ReflTransGen Moves (w, .running r) (r.flush w) := by
  fun_induction flush w r with
  | case1 w r _ _ => exact .refl
  | case2 w r h hfree =>
    exact .single (moves_of_step (.answer (outbox_of_take? h (Bool.eq_false_iff.mpr hfree))))
  | case3 w r w' outcome h => exact .single (moves_of_step (.act h))
  | case4 w r w' r' h ih => exact .head (moves_of_step (.act h)) ih

/-- A reactor that waits, and is not held up, has taken all actions and given all answers. -/
theorem waits_of_flush : r.flush w = (w', .running r') → r'.isHeldUp w' = false →
    r'.session.outbox = [] ∧ r'.replies = [] := by
  fun_induction flush w r with
  | case1 w r _ hheld =>
    intro h hfree
    cases h
    exact absurd hheld (Bool.eq_false_iff.mp hfree)
  | case2 w r ht hfree =>
    intro h _
    have hout := outbox_of_take? ht (Bool.eq_false_iff.mpr hfree)
    obtain rfl := ReactorTask.running.inj (congrArg Prod.snd h)
    exact ⟨hout, rfl⟩
  | case3 w r _ outcome _ =>
    intro h
    cases congrArg Prod.snd h
  | case4 w r _ _ _ ih => exact ih

theorem exists_of_next? (h : r.next? w = some (w', r')) :
    r.isHeldUp w = false ∧ ∃ event, r.handle w event = some (w', r') := by
  unfold next? at h
  split at h
  · cases h
  · next hfree =>
    obtain ⟨event, -, hevent⟩ := List.exists_of_findSome?_eq_some h
    exact ⟨Bool.eq_false_iff.mpr hfree, event, hevent⟩

theorem moves_settle (fuel : Nat) (w : Surroundings) (r : Reactor) :
    Relation.ReflTransGen Moves (w, .running r) (r.settle fuel w) := by
  induction fuel generalizing w r with
  | zero => exact moves_flush w r
  | succ fuel ih =>
    have hflush := moves_flush w r
    unfold settle
    split
    · next outcome h => rwa [h] at hflush
    · next w' r' h =>
      rw [h] at hflush
      split
      · next w'' r'' hnext =>
        obtain ⟨hfree, event, hevent⟩ := exists_of_next? hnext
        obtain ⟨ho, ha⟩ := waits_of_flush h hfree
        exact (hflush.tail (moves_of_step (.handle event ho ha hevent))).trans (ih w'' r'')
      · exact hflush

end Reactor

/-! ## What can happen at a site happens -/

namespace Scene

variable {site : Site} {pending : Option Pending} {task : Nat}

/-- The steps of one reactor are steps of the scene. -/
theorem ownSteps_moves {x y : Surroundings × ReactorTask}
    (h : Relation.ReflTransGen Reactor.Moves x y) (hs : site.surroundings = x.1)
    (ht : site.tasks[task]? = some x.2) :
    OwnSteps ⟨site, pending⟩
      ⟨{ site with surroundings := y.1, tasks := site.tasks.set task y.2 }, pending⟩ := by
  have hlt : task < site.tasks.length := (List.getElem?_eq_some_iff.mp ht).1
  induction h with
  | refl =>
    have hset : site.tasks.set task x.2 = site.tasks := by
      rw [← (List.getElem?_eq_some_iff.mp ht).2, List.set_getElem_self]
    rw [hset, ← hs]
    exact .refl
  | @tail y z _ hstep ih =>
    obtain ⟨r, hr, hstep⟩ := hstep
    have hr : (site.tasks.set task y.2)[task]? = some (.running r) := by
      rw [← hr]
      exact List.getElem?_set_self hlt
    have hreact : OwnStep
        ⟨{ site with surroundings := y.1, tasks := site.tasks.set task y.2 }, pending⟩
        ⟨{ site with surroundings := z.1, tasks := (site.tasks.set task y.2).set task z.2 },
          pending⟩ :=
      .react hr hstep
    rw [List.set_set] at hreact
    exact ih.tail hreact

theorem ownSteps_settleTask (site : Site) (pending : Option Pending) (task : Nat) :
    OwnSteps ⟨site, pending⟩ ⟨site.settleTask task, pending⟩ := by
  unfold Site.settleTask
  split
  · next r hr => exact ownSteps_moves (Reactor.moves_settle _ _ r) rfl hr
  · exact .refl

theorem ownSteps_settle (site : Site) (pending : Option Pending) :
    OwnSteps ⟨site, pending⟩ ⟨site.settle, pending⟩ := by
  unfold Site.settle
  generalize List.range site.tasks.length = tasks
  induction tasks generalizing site with
  | nil => exact .refl
  | cons task rest ih => exact (ownSteps_settleTask site pending task).trans (ih _)

theorem ownSteps_resume (site : Site) (p : Pending) :
    OwnSteps ⟨site, some p⟩ (ofProgress (site.resume p)) := by
  have hlook : OwnSteps ⟨site, some p⟩ (ofProgress (site.look p)) := .single (.look p)
  unfold Site.resume
  split
  next site' progress h =>
  rw [h] at hlook
  cases progress with
  | finished result => exact hlook.trans (ownSteps_settle site' none)
  | pending p' => exact hlook.trans (ownSteps_settle site' (some p'))

theorem ownSteps_call {d : Driver} (hd : site.driver = some d) (c : Call) :
    OwnSteps ⟨site, none⟩ (ofProgress (site.call c)) := by
  have hissue : OwnSteps ⟨site, none⟩ (ofProgress (site.issue c)) := .single (.issue hd c)
  unfold Site.call
  split
  · next site' result h =>
    rw [h] at hissue
    exact hissue.trans (ownSteps_settle site' none)
  · next site' p h =>
    rw [h] at hissue
    exact (hissue.trans (ownSteps_settle site' (some p))).trans (ownSteps_resume _ p)

theorem ownSteps_drop (site : Site) : OwnSteps ⟨site, none⟩ ⟨site.drop, none⟩ :=
  Relation.ReflTransGen.head .drop (ownSteps_settle site.release none)

theorem ownSteps_advance (site : Site) (pending : Option Pending) (milliseconds : Nat) :
    OwnSteps ⟨site, pending⟩ ⟨site.advance milliseconds, pending⟩ :=
  Relation.ReflTransGen.head (.clock milliseconds) (ownSteps_settle _ pending)

theorem ownSteps_onNetwork {f : Network → Network}
    (h : site.surroundings.network.Disturbed (f site.surroundings.network)) :
    OwnSteps ⟨site, pending⟩ ⟨site.onNetwork f, pending⟩ :=
  Relation.ReflTransGen.head (.network h) (ownSteps_settle _ pending)

end Scene

end GemLink
