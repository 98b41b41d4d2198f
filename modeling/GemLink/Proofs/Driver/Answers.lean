import GemLink.Proofs.Driver.ClosedStatus
import GemLink.Proofs.Driver.Completion
import GemLink.Proofs.Driver.Grip
import GemLink.Proofs.Driver.Tickets

/-!
Answers to calls that write. A reactor carries a command out when it has taken all actions and given
all answers, so the actions that the write leads to are the next that it takes, and it does not
answer before (`Outcomes`). They are notices to the host, and perhaps a frame, for which the reactor
has a connection (`Notices`).

So whenever a call is looked at, it has its answer and all that its write led to has been applied; or
its reactor still runs; or no answer will come, and it fails (`write_answered_after_effects`).
-/

namespace GemLink

/-! ## What a write leads to -/

/-- Notices to the host, and perhaps a frame behind them. -/
inductive Notices : List Action → Prop
  | nil : Notices []
  | send (frame : Bytes) : Notices [.send frame]
  | cons {a : Action} {rest : List Action} (ha : a.isAlert = true) (h : Notices rest) :
      Notices (a :: rest)

namespace Notices

theorem append {front acts : List Action} (ha : ∀ a ∈ front, a.isAlert = true)
    (h : Notices acts) : Notices (front ++ acts) := by
  induction front with
  | nil => exact h
  | cons a rest ih =>
    rw [List.forall_mem_cons] at ha
    exact .cons ha.1 (ih ha.2)

theorem of_alerts {acts : List Action} (ha : ∀ a ∈ acts, a.isAlert = true) : Notices acts := by
  have h := append ha .nil
  rwa [List.append_nil] at h

end Notices

namespace Session

/-- A write leads to notices, and to a frame only while the link is up. -/
theorem notices_write (s : Session) (name : String) (value : Value) (now : Nat)
    (ho : s.outbox = []) :
    Notices (s.write name value now).1.outbox ∧
      ∀ frame, .send frame ∈ (s.write name value now).1.outbox →
        s.connection.link = .connected := by
  have hsilent {acts : List Action} (ha : ∀ a ∈ acts, a.isAlert = true) :
      Notices (s.outbox ++ acts) ∧
        ∀ frame, .send frame ∈ s.outbox ++ acts → s.connection.link = .connected := by
    rw [ho, List.nil_append]
    exact ⟨.of_alerts ha, fun frame hf => nomatch ha _ hf⟩
  have hw := called_write s name value now
  generalize s.write name value now = result at hw
  cases hw with
  | refused t ht e =>
    obtain ⟨acts, rfl, ha⟩ := ht
    exact hsilent ha
  | queued t ht _ _ w _ =>
    obtain ⟨acts, rfl, ha⟩ := ht
    exact hsilent ha
  | sent t ht hc _ w _ =>
    obtain ⟨acts, rfl, ha⟩ := ht
    refine ⟨?_, fun _ _ => beq_iff_eq.mp hc⟩
    rw [sendWrite_eq]
    dsimp only
    rw [ho, List.nil_append]
    exact .append ha (.send _)

end Session

/-- Whether an action that a write led to has had its effect: an alert has been raised or cleared at
the host, or a frame has been handed to the connection, which is let go of if it has broken down.
A write leads to no other actions. -/
def Taking.Applied (t : Taking) : Prop :=
  match t.action with
  | .raise key cause => t.after.host = t.before.host.raise (key.alert t.reactor.machine cause)
  | .clear key => t.after.host = t.before.host.clear key.text
  | .send frame => ∃ socket, t.reactor.socket = some socket ∧
      t.after.network =
        (t.before.network.send? socket frame).getD (t.before.network.hangUp socket)
  | _ => False

namespace Reactor

variable {w w' : Surroundings} {r r' : Reactor}

/-- A reactor that is to give notices and has a connection for a frame, if there is one. -/
structure Notifies (r : Reactor) : Prop where
  notices : Notices r.session.outbox
  socket : ∀ frame, .send frame ∈ r.session.outbox → r.socket.isSome = true

/-- The first notice is applied, and the others follow. -/
theorem Notifies.take? (h : r.Notifies) {a : Action} {rest : List Action}
    (ho : r.session.outbox = a :: rest) (ht : r.take? w = some (w', .running r')) :
    Taking.Applied ⟨a, r, w, w'⟩ ∧
      (rest = [] ∨ r'.session.outbox = rest ∧ r'.Notifies) := by
  obtain ⟨hn, hs⟩ := h
  obtain ⟨_, _, ho', ht⟩ := take?_eq_some ht
  obtain ⟨rfl, rfl⟩ := List.cons.inj (ho.symm.trans ho')
  rw [ho] at hn hs
  cases hn with
  | send frame =>
    obtain ⟨socket, hsocket⟩ := Option.isSome_iff_exists.mp (hs frame (List.mem_singleton_self _))
    refine ⟨⟨socket, hsocket, ?_⟩, .inl rfl⟩
    unfold act at ht
    simp only [hsocket] at ht
    have hnetwork : (w.tally r.session).network = w.network := rfl
    rw [hnetwork] at ht
    split at ht
    · next network hsend =>
      cases ht
      exact (congrArg (Option.getD · _) hsend).symm
    · next hsend =>
      cases ht
      exact (congrArg (Option.getD · _) hsend).symm
  | cons ha hrest =>
    have hsend : ∀ frame, .send frame ∈ rest → r.socket.isSome = true :=
      fun frame hf => hs frame (List.mem_cons_of_mem _ hf)
    cases a with
    | raise key cause =>
      cases ht
      exact ⟨rfl, .inr ⟨rfl, hrest, hsend⟩⟩
    | clear key =>
      cases ht
      exact ⟨rfl, .inr ⟨rfl, hrest, hsend⟩⟩
    | _ => cases ha

end Reactor

/-! ## What has become of a write -/

section
variable {log since : List Happening} {site site' : Site} {happening : Happening}
  {task ticket : Nat} {name : String} {value : Value} {r r' : Reactor} {w w' : Surroundings}
  {after : ReactorTask} {result : Except LinkError Unit} {taken : List Taking}
  {emitted : List Action}

/-- Some actions are the first that were taken, in their order, and each has had its effect. -/
def Effected (taken : List Taking) (emitted : List Action) : Prop :=
  ∃ done, done <+: taken ∧ done.map Taking.action = emitted ∧ ∀ t ∈ done, t.Applied

/-- The write of a call has been carried out after the call was made, when no action was left to
take. It led to a result and to some actions; the rest of the log came since. -/
def Carried (log : List Happening) (task ticket : Nat) (name : String) (value : Value)
    (result : Except LinkError Unit) (emitted : List Action) (since : List Happening) : Prop :=
  ∃ before s now, log = before ++ .wrote task ticket name value s now :: since ∧
    .called task ticket name value ∈ before ∧ s.outbox = [] ∧
    (s.write name value now).2 = result ∧ (s.write name value now).1.outbox = emitted

/-- The write of a call has been carried out with a result, and all the actions that it led to have
been taken since, before all others, and have had their effect. -/
def Answered (log : List Happening) (task ticket : Nat) (name : String) (value : Value)
    (result : Except LinkError Unit) : Prop :=
  ∃ emitted since, Carried log task ticket name value result emitted since ∧
    Effected (takings task since) emitted

/-- The write of a call has been carried out, and the reactor has taken all the actions that it led
to, or has some of them yet to take and nothing before them. -/
def Doing (log : List Happening) (task : Nat) (r : Reactor) (ticket : Nat)
    (result : Except LinkError Unit) : Prop :=
  ∃ name value emitted since, Carried log task ticket name value result emitted since ∧
    (Effected (takings task since) emitted ∨
      (takings task since).map Taking.action ++ r.session.outbox = emitted ∧
        (∀ t ∈ takings task since, t.Applied) ∧ r.Notifies)

theorem takings_concat (task : Nat) (log : List Happening) (happening : Happening) :
    takings task (log ++ [happening]) = takings task log ++ (happening.took? task).toList := by
  rw [takings, List.filterMap_append, takings]
  cases h : happening.took? task with
  | none => rw [List.filterMap_cons_none h, Option.toList_none, List.filterMap_nil]
  | some t => rw [List.filterMap_cons_some h, Option.toList_some, List.filterMap_nil]

theorem takings_concat_none (h : happening.took? task = none) :
    takings task (log ++ [happening]) = takings task log := by
  rw [takings_concat, h, Option.toList_none, List.append_nil]

theorem Effected.concat (h : Effected (takings task since) emitted) (happening : Happening) :
    Effected (takings task (since ++ [happening])) emitted := by
  obtain ⟨done, hprefix, hdone⟩ := h
  rw [takings_concat]
  exact ⟨done, hprefix.trans (List.prefix_append _ _), hdone⟩

theorem Carried.concat (h : Carried log task ticket name value result emitted since)
    (happening : Happening) :
    Carried (log ++ [happening]) task ticket name value result emitted (since ++ [happening]) := by
  obtain ⟨before, s, now, rfl, hcarried⟩ := h
  exact ⟨before, s, now, by simp, hcarried⟩

theorem Carried.called (h : Carried log task ticket name value result emitted since) :
    .called task ticket name value ∈ log := by
  obtain ⟨before, s, now, rfl, hcalled, -⟩ := h
  exact List.mem_append_left _ hcalled

/-- An answer stays one. -/
theorem Answered.concat (h : Answered log task ticket name value result) (happening : Happening) :
    Answered (log ++ [happening]) task ticket name value result := by
  obtain ⟨emitted, since, hcarried, heffected⟩ := h
  exact ⟨emitted, _, hcarried.concat happening, heffected.concat happening⟩

namespace Doing

/-- What the reactor does not do itself. -/
theorem concat (h : Doing log task r ticket result) (hnone : happening.took? task = none)
    (ho : r'.session.outbox = r.session.outbox) (hs : r'.socket = r.socket) :
    Doing (log ++ [happening]) task r' ticket result := by
  obtain ⟨name, value, emitted, since, hcarried, hdone⟩ := h
  refine ⟨name, value, emitted, _, hcarried.concat happening, ?_⟩
  rw [takings_concat_none hnone, ho]
  rcases hdone with heffected | ⟨hrest, happlied, hnotices, hsocket⟩
  · exact .inl heffected
  · refine .inr ⟨hrest, happlied, ?_, ?_⟩
    · rwa [ho]
    · rwa [ho, hs]

/-- The reactor takes its next action. -/
theorem act (h : Doing log task r ticket result) {a : Action} {rest : List Action}
    (ho : r.session.outbox = a :: rest) (ht : r.take? w = some (w', .running r')) :
    Doing (log ++ [.took task ⟨a, r, w, w'⟩]) task r' ticket result := by
  obtain ⟨name, value, emitted, since, hcarried, hdone⟩ := h
  refine ⟨name, value, emitted, _, hcarried.concat _, ?_⟩
  rcases hdone with heffected | ⟨hrest, happlied, hnotifies⟩
  · exact .inl (heffected.concat _)
  have htakings : takings task (since ++ [.took task ⟨a, r, w, w'⟩]) =
      takings task since ++ [⟨a, r, w, w'⟩] := by
    rw [takings_concat, Happening.took?, if_pos rfl, Option.toList_some]
  obtain ⟨hfirst, hnext⟩ := hnotifies.take? ho ht
  have happlied : ∀ t ∈ takings task since ++ [(⟨a, r, w, w'⟩ : Taking)], t.Applied :=
    List.forall_mem_append.mpr ⟨happlied, List.forall_mem_singleton.mpr hfirst⟩
  have hrest : (takings task since ++ [(⟨a, r, w, w'⟩ : Taking)]).map Taking.action ++ rest =
      emitted := by
    rw [← hrest, ho, List.map_append, List.append_assoc]
    rfl
  rw [htakings]
  rcases hnext with rfl | ⟨hout, hnotifies⟩
  · rw [List.append_nil] at hrest
    exact .inl ⟨_, List.prefix_refl _, hrest, happlied⟩
  · rw [← hout] at hrest
    exact .inr ⟨hrest, happlied, hnotifies⟩

/-- When no action is left, all that the write led to has been taken. -/
theorem answered (h : Doing log task r ticket result) (ho : r.session.outbox = []) :
    ∃ name value, Answered log task ticket name value result := by
  obtain ⟨name, value, emitted, since, hcarried, heffected | ⟨hrest, happlied, -⟩⟩ := h
  · exact ⟨name, value, emitted, since, hcarried, heffected⟩
  · rw [ho, List.append_nil] at hrest
    exact ⟨name, value, emitted, since, hcarried, _, List.prefix_refl _, hrest, happlied⟩

/-- A reactor that waits carries a write out. -/
theorem write (hcalled : .called task ticket name value ∈ log) (hg : r.Grips)
    (ho : r.session.outbox = []) (now : Nat) (hsocket : r'.socket = r.socket)
    (hsession : r'.session = (r.session.write name value now).1) :
    Doing (log ++ [.wrote task ticket name value r.session now]) task r' ticket
      (r.session.write name value now).2 := by
  obtain ⟨hnotices, hframe⟩ := r.session.notices_write name value now ho
  refine ⟨name, value, _, [], ⟨log, r.session, now, rfl, hcalled, ho, rfl, rfl⟩, .inr ⟨?_, ?_, ?_⟩⟩
  · rw [hsession]
    rfl
  · exact List.forall_mem_nil _
  · rw [← hsession] at hnotices hframe
    refine ⟨hnotices, fun frame hf => ?_⟩
    obtain ⟨socket, hs⟩ := hg.exists_socket ho (hframe frame hf)
    rw [hsocket, hs]
    rfl

end Doing

/-! ## Steps of a reactor -/

namespace Reactor

theorem answers_hangUp (w : Surroundings) (socket? : Option Nat) :
    (w.hangUp socket?).answers = w.answers := by
  cases socket? <;> rfl

theorem answers_act (w : Surroundings) (r : Reactor) (a : Action) :
    (r.act w a).1.answers = w.answers := by
  have hrelease : (r.release w).1.answers = w.answers :=
    (answers_hangUp _ _).trans (answers_hangUp _ _)
  cases a with
  | connect | close _ | stopped | terminate _ => exact hrelease
  | send frame =>
    unfold act
    dsimp only
    split
    · rfl
    · split <;> rfl
  | publish target value reportErrors =>
    unfold act Surroundings.publish
    dsimp only
    split <;> split <;> rfl
  | raise _ _ | clear _ | status _ => rfl

/-- Answers are given when no action is left, and only then. -/
theorem Does.answers (h : r.Does task w happening w' after) :
    w'.answers = w.answers ∨ r.session.outbox = [] ∧ w'.answers = w.answers ++ r.replies := by
  cases h with
  | act _ ht =>
    obtain ⟨a, rest, -, hact⟩ := take?_eq_some ht
    have hanswers := congrArg (Surroundings.answers ∘ Prod.fst) hact
    exact .inl (hanswers.symm.trans (answers_act _ _ a))
  | answer ho => exact .inr ⟨ho, rfl⟩
  | handle event _ _ hh =>
    cases happens_of_handle hh with
    | connection _ _ | refusal _ _ => exact .inl (answers_hangUp _ _)
    | _ => exact .inl rfl

/-- The answers that a reactor is to give after a step are to writes that it is doing. -/
theorem Does.doing (h : r.Does task w happening w' (.running r')) (hg : r.Grips)
    (hcalled : ∀ {ticket name value}, .write ticket name value ∈ r.inbox →
      .called task ticket name value ∈ log)
    (hdoing : ∀ {ticket result}, (ticket, result) ∈ r.replies → Doing log task r ticket result)
    (hm : (ticket, result) ∈ r'.replies) : Doing (log ++ [happening]) task r' ticket result := by
  cases h with
  | act ho ht =>
    refine Doing.act (hdoing ?_) ho ht
    obtain ⟨a, rest, -, hact⟩ := take?_eq_some ht
    obtain ⟨-, _, _, _, rfl, -⟩ := act_running hact
    exact hm
  | answer _ => cases hm
  | handle event ho ha hh =>
    cases happens_of_handle hh with
    | command c rest hi =>
      cases c with
      | write k name value =>
        have hm : (ticket, result) ∈ r.replies ++ [(k, (r.session.write name value w.now).2)] := hm
        rw [ha, List.nil_append, List.mem_singleton] at hm
        cases hm
        have hnoted : r.noted task w.now .command =
            .wrote task ticket name value r.session w.now := by
          simp only [noted, hi]
        rw [hnoted]
        exact .write (hcalled (by rw [hi]; exact List.mem_cons_self ..)) hg ho w.now rfl rfl
      | stop => exact nomatch (ha ▸ hm : (ticket, result) ∈ [])
    | _ => exact nomatch (ha ▸ hm : (ticket, result) ∈ [])

end Reactor

/-! ## At a site -/

/-- What has become of the writes at a site: the answers that a reactor is about to give are those
of writes whose actions it takes, and those that have been given come after these actions. -/
structure Outcomes (log : List Happening) (site : Site) : Prop where
  tickets : Tickets log site
  grips : ∀ {task r}, site.Runs task r → r.Grips
  doing : ∀ {task r ticket result}, site.Runs task r → (ticket, result) ∈ r.replies →
    Doing log task r ticket result
  answered : ∀ {ticket result}, (ticket, result) ∈ site.surroundings.answers →
    ∃ task name value, Answered log task ticket name value result

namespace Outcomes

theorem nil (hi : ∀ task r, ¬ site.Runs task r) (ha : site.surroundings.answers = []) :
    Outcomes [] site where
  tickets := .nil hi
  grips h := absurd h (hi _ _)
  doing h := absurd h (hi _ _)
  answered h := by
    rw [ha] at h
    cases h

/-- An answer that was given before a step. -/
theorem answered_concat (h : Outcomes log site)
    (hm : (ticket, result) ∈ site.surroundings.answers) :
    ∃ task name value, Answered (log ++ [happening]) task ticket name value result := by
  obtain ⟨task, name, value, hanswered⟩ := h.answered hm
  exact ⟨task, name, value, hanswered.concat happening⟩

/-- Each step of a reactor. -/
theorem react (h : Outcomes log site) (hr : site.Runs task r)
    (hd : r.Does task site.surroundings happening w after) :
    Outcomes (log ++ [happening])
      { site with surroundings := w, tasks := site.tasks.set task after } := by
  refine ⟨h.tickets.step (.react hr hd), fun hj => ?_, fun hj hm => ?_, fun hm => ?_⟩
  · rcases runs_set hr hj with ⟨-, rfl⟩ | ⟨-, hj⟩
    · exact hd.step.grips (h.grips hr)
    · exact h.grips hj
  · rcases runs_set hr hj with ⟨rfl, rfl⟩ | ⟨hne, hj⟩
    · exact hd.doing (h.grips hr) (h.tickets.commanded hr) (h.doing hr) hm
    · exact (h.doing hj hm).concat (hd.took?_of_ne hne) rfl rfl
  · rcases hd.answers with ha | ⟨ho, ha⟩
    · rw [ha] at hm
      exact h.answered_concat hm
    · rw [ha, List.mem_append] at hm
      rcases hm with hm | hm
      · exact h.answered_concat hm
      · obtain ⟨name, value, hanswered⟩ := (h.doing hr hm).answered ho
        exact ⟨task, name, value, hanswered.concat happening⟩

/-- A step that is not a reactor's. -/
theorem quiet (h : Outcomes log site) (hq : site.Quiet happening site')
    (ht : Tickets (log ++ [happening]) site') : Outcomes (log ++ [happening]) site' := by
  have hnone : ∀ j, happening.took? j = none := by
    rcases hq.note with ⟨rfl, -⟩ | ⟨_, _, _, rfl, -⟩ <;> exact fun _ => rfl
  refine ⟨ht, fun hj => ?_, fun hj hm => ?_, fun hm => ?_⟩
  · rcases (hq.heir hj).kept with ⟨r₀, h₀, hs, hk, ha, -⟩ | ⟨_, _, _, _, rfl⟩
    · exact (h.grips h₀).congr hs (by rw [Reactor.hold, Reactor.hold, hk, ha])
    · exact Reactor.grips_fresh _ _ _ _
  · rcases (hq.heir hj).kept with ⟨r₀, h₀, hs, hk, -, ha⟩ | ⟨_, _, _, _, rfl⟩
    · rw [ha] at hm
      exact (h.doing h₀ hm).concat (hnone _) (congrArg Session.outbox hs) hk
    · cases hm
  · rw [hq.answers] at hm
    exact h.answered_concat hm

theorem step (h : Outcomes log site) (hs : site.Step happening site') :
    Outcomes (log ++ [happening]) site' := by
  rcases hs.quiet with ⟨task, r, w, after, hr, hdoes, rfl⟩ | hq
  · exact h.react hr hdoes
  · exact h.quiet hq (h.tickets.step hs)

/-- Whatever has happened since there was nothing to answer. -/
theorem run {start : Site} (hr : start.Run log site) (hi : ∀ task r, ¬ start.Runs task r)
    (ha : start.surroundings.answers = []) : Outcomes log site := by
  induction hr with
  | start => exact .nil hi ha
  | step _ hs ih => exact ih.step hs

end Outcomes

/-- How far a call to write is seen to have come when it is looked at. -/
inductive Site.WriteSeen (log : List Happening) (site : Site) (task ticket : Nat) (name : String)
    (value : Value) : Site × Progress → Prop
  /-- It has the result of its own write, and all that this write led to has been applied. -/
  | answered (result : Except LinkError Unit)
      (h : Answered log task ticket name value result) :
      WriteSeen log site task ticket name value (site, .finished result)
  /-- Its reactor runs and has not answered yet. -/
  | waiting (r : Reactor) (hr : site.Runs task r)
      (hn : ∀ result, (ticket, result) ∉ site.surroundings.answers) :
      WriteSeen log site task ticket name value (site, .pending (.writing task ticket))
  /-- Its reactor has ended without an answer. -/
  | lost (hr : ∀ r, ¬ site.Runs task r)
      (hn : ∀ result, (ticket, result) ∉ site.surroundings.answers) :
      WriteSeen log site task ticket name value (site, .finished (.error .channelClosed))

theorem Outcomes.look (h : Outcomes log site) (hc : .called task ticket name value ∈ log)
    {d : Driver} (hd : site.driver = some d) :
    site.WriteSeen log task ticket name value (site.look (.writing task ticket)) := by
  unfold Site.look
  rw [hd]
  dsimp only
  split
  · next result hlookup =>
    obtain ⟨front, back, hanswers, -⟩ := List.lookup_eq_some_iff.mp hlookup
    obtain ⟨j, name', value', emitted, since, hcarried, heffected⟩ :=
      h.answered (by rw [hanswers]; exact List.mem_append_right _ (List.mem_cons_self ..))
    obtain ⟨rfl, rfl, rfl⟩ := h.tickets.once hc hcarried.called
    exact .answered result ⟨emitted, since, hcarried, heffected⟩
  · next hlookup =>
    have hn : ∀ result, (ticket, result) ∉ site.surroundings.answers := by
      intro result hm
      have hne := List.lookup_eq_none_iff.mp hlookup _ hm
      exact absurd hne (by simp)
    split
    · next r hr => exact .waiting r hr hn
    · next hr => exact .lost (fun r hruns => hr r hruns) hn

end

/-- However a driver is called, also by several who write at a time, and whatever happens to it, its
equipment, the clock and the host: no write is carried out twice. Whenever a call to write is looked
at that a reactor was given, it has the result of its own write, which was carried out when no action
was left to take, and all alerts that the write raised and cleared have been raised and cleared at
the host since, in their order and before anything else was done, and the frame that it sent has been
handed to the connection; or its reactor runs and has not answered; or the reactor has ended without
an answer, and the call fails because the channel is closed. So it does at once when the reactor that
the driver knows has ended. -/
theorem write_answered_after_effects (network : Network) (machine : Machine)
    {log : List Happening} {site : Site} {d : Driver}
    (h : (Site.ofMachine network machine).Run log site) (hd : site.driver = some d) :
    (carriedOut log).Nodup ∧
    (∀ task ticket name value, .called task ticket name value ∈ log →
      site.WriteSeen log task ticket name value (site.look (.writing task ticket))) ∧
    ∀ task name value, d.running = some task → (∀ r, ¬ site.Runs task r) →
      site.issue (.write name value) = (site, .finished (.error .channelClosed)) := by
  have houtcomes : Outcomes log site := .run h (fun _ _ => nofun) rfl
  refine ⟨houtcomes.tickets.carried, fun task ticket name value hc => houtcomes.look hc hd, ?_⟩
  intro task name value hknown hruns
  unfold Site.issue
  rw [hd]
  dsimp only
  rw [hknown]
  dsimp only
  split
  · next r hr => exact absurd hr (hruns r)
  · rfl

/-! ### A write of a variable that there is not -/

/-- What is written to the machine of `freshSite`. -/
def strayWrite : Call :=
  .write "torque" (.flag true)

/-- The driver has been started and called to write a variable that its machine does not have. -/
def strayWriteSite : Site :=
  (startedSite.issue strayWrite).1.settle

theorem run_strayWriteSite :
    ∃ log, freshSite.Run log strayWriteSite ∧ .called 0 0 "torque" (.flag true) ∈ log := by
  obtain ⟨before, hstarted⟩ := ownSteps_startedSite.steps.run (.start : freshSite.Run [] freshSite)
  have hissue := Scene.pending_of_some (x := startedSite.issue strayWrite) (p := .writing 0 0)
    (by decide +kernel)
  have hnoted : startedSite.noted strayWrite = .called 0 0 "torque" (.flag true) := by
    unfold Site.noted
    rw [hissue]
    rfl
  have hmade := hstarted.step (.issue strayWrite)
  rw [hnoted] at hmade
  obtain ⟨since, hsettled⟩ :=
    (Scene.ownSteps_settle (startedSite.issue strayWrite).1 none).steps.run hmade
  exact ⟨_, hsettled, by simp⟩

theorem write_answered_after_effects_stray :
    ∃ log, freshSite.Run log strayWriteSite ∧
      strayWriteSite.look (.writing 0 0) =
        (strayWriteSite, .finished (.error (.notWritable "torque"))) ∧
      Answered log 0 0 "torque" (.flag true) (.error (.notWritable "torque")) := by
  obtain ⟨log, hrun, hcalled⟩ := run_strayWriteSite
  have hdriver : strayWriteSite.driver.isSome = true := by decide +kernel
  obtain ⟨d, hd⟩ := Option.isSome_iff_exists.mp hdriver
  have hseen := (write_answered_after_effects _ _ hrun hd).2.1 0 0 _ _ hcalled
  have hfault : (strayWriteSite.look (.writing 0 0)).2.fault? =
      some (some (.notWritable "torque")) := by
    decide +kernel
  generalize strayWriteSite.look (.writing 0 0) = x at hseen hfault
  cases hseen with
  | answered result h =>
    cases result with
    | ok _ => cases hfault
    | error fault =>
      cases hfault
      exact ⟨log, hrun, rfl, h⟩
  | waiting _ _ _ => cases hfault
  | lost _ _ => cases hfault

end GemLink
