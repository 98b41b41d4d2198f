import GemLink.Proofs.Session.Conduct
import GemLink.Proofs.Session.Polls

/-!
The end of a session. A session that was opened is open until its one last word, that it has been
stopped or that it has failed to connect too often (`Conduct.conserves`). Once a stop has begun no
attempt to connect is set any more, and while the session is open the time that the stop grants an
open question is running (`Halting`); no moment but an opening changes that. So a session that is
opened once ends at most once, and when it is stopped and its clock is looked at after that time, it
has ended (`stops_once`).
-/

namespace GemLink

/-- Whether an action is the last word of a session: it has been stopped, or it has failed. -/
def Action.isFinal : Action → Bool
  | .stopped | .terminate _ => true
  | _ => false

theorem Action.isFinal_of_isPlain {a : Action} (h : a.isPlain = true) : a.isFinal = false := by
  cases a <;> first | rfl | cases h

/-- Before each end of a stop the connection is closed, with a last word to the equipment. -/
def ClosesStops (acts : List Action) : Prop :=
  ∀ before after, acts = before ++ .stopped :: after → ∃ front, before = front ++ [.close true]

variable {acts more : List Action}

theorem ClosesStops.append (h : ClosesStops acts) (hm : .stopped ∉ more) :
    ClosesStops (acts ++ more) := by
  intro before after he
  rcases List.append_eq_append_iff.mp he with ⟨between, rfl, hmore⟩ | ⟨between, hacts, hrest⟩
  · exact absurd (by simp [hmore]) hm
  · cases between with
    | nil =>
      rw [List.nil_append] at hrest
      exact absurd (by simp [← hrest]) hm
    | cons a between =>
      obtain ⟨rfl, -⟩ := List.cons.inj hrest
      exact h before between hacts

/-- A stop may end when the connection has just been closed. -/
theorem ClosesStops.append_stopped (h : ClosesStops acts)
    (hl : ∃ front, acts = front ++ [.close true]) : ClosesStops (acts ++ [.stopped]) := by
  intro before after he
  rcases List.append_eq_append_iff.mp he with ⟨between, rfl, hstop⟩ | ⟨between, hacts, hrest⟩
  · cases between with
    | nil => rwa [List.append_nil]
    | cons a between => simp at hstop
  · cases between with
    | nil =>
      rw [List.append_nil] at hacts
      exact hacts ▸ hl
    | cons a between =>
      obtain ⟨rfl, -⟩ := List.cons.inj hrest
      exact h before between hacts

namespace Session

variable {s t : Session} {now clock deadline : Nat} {m : Moment} {event : SessionEvent}
  {opened : Bool}

/-! ## One moment -/

theorem countP_isFinal_of_plain (h : ∀ a ∈ acts, a.isPlain = true) :
    acts.countP Action.isFinal = 0 := by
  rw [List.countP_eq_zero]
  intro a ha
  simp [Action.isFinal_of_isPlain (h a ha)]

theorem not_mem_of_plain {a : Action} (h : ∀ a ∈ acts, a.isPlain = true)
    (ha : a.isPlain = false) : a ∉ acts := by
  intro hm
  simp [h a hm] at ha

/-- A session is open until its last word. -/
theorem Conduct.conserves (hc : s.Conduct now m t) (hm : m ≠ .opened) :
    t.outbox.countP Action.isFinal + t.connection.opened.toNat =
      s.outbox.countP Action.isFinal + s.connection.opened.toNat := by
  cases hc with
  | goes h =>
    obtain ⟨acts, ho, ha⟩ := h.plain
    rw [ho, List.countP_append, countP_isFinal_of_plain ha, h.opened, Nat.add_zero]
  | finished _ h =>
    obtain ⟨acts, ho, ha⟩ := h.outbox
    rw [ho, List.countP_append, List.countP_append, countP_isFinal_of_plain ha, h.opened, h.was]
    rfl
  | fallen _ h =>
    obtain ⟨acts, graceful, ho, ha⟩ := h.outbox
    rw [ho, List.countP_append, List.countP_append, countP_isFinal_of_plain ha, h.opened]
    rfl
  | suspected _ _ h ho =>
    obtain ⟨acts, ho, ha⟩ := ho
    rw [ho, List.countP_append, countP_isFinal_of_plain ha, h.opened, Nat.add_zero]
  | separated _ _ h _ ho =>
    rw [ho, List.countP_append, h.opened]
    rfl
  | halted _ _ _ ho hc => rw [ho, hc]
  | reconnected _ _ h ho =>
    rw [ho, List.countP_append, h.opened]
    rfl
  | failed was hc _ _ _ ho =>
    rw [ho, List.countP_append, hc, was]
    rfl
  | launched hm' => exact absurd hm' hm

theorem Conduct.closesStops (hc : s.Conduct now m t) (h : ClosesStops s.outbox) :
    ClosesStops t.outbox := by
  cases hc with
  | goes hg =>
    obtain ⟨acts, ho, ha⟩ := hg.plain
    rw [ho]
    exact h.append (not_mem_of_plain ha rfl)
  | finished _ hf =>
    obtain ⟨acts, ho, ha⟩ := hf.outbox
    rw [ho, show acts ++ [.close true, .stopped] = acts ++ [.close true] ++ [.stopped] by simp,
      ← List.append_assoc]
    refine (h.append ?_).append_stopped ⟨s.outbox ++ acts, (List.append_assoc _ _ _).symm⟩
    simpa using not_mem_of_plain (a := .stopped) ha rfl
  | fallen _ hf =>
    obtain ⟨acts, graceful, ho, ha⟩ := hf.outbox
    rw [ho]
    exact h.append (by simpa using not_mem_of_plain (a := .stopped) ha rfl)
  | suspected _ _ _ ho =>
    obtain ⟨acts, ho, ha⟩ := ho
    rw [ho]
    exact h.append (not_mem_of_plain ha rfl)
  | separated _ _ _ _ ho =>
    rw [ho]
    exact h.append (by simp)
  | halted _ _ _ ho => rwa [ho]
  | reconnected _ _ _ ho =>
    rw [ho]
    exact h.append (by simp)
  | failed _ _ _ _ _ ho =>
    rw [ho]
    exact h.append (by simp)
  | launched _ ht =>
    rw [ht, launch_eq, List.append_assoc]
    exact h.append (by simp)

/-- A stop has begun: no attempt to connect is set, and while the session is open the time of the
stop runs. -/
structure Halting (deadline : Nat) (s : Session) : Prop where
  stopping : s.stopping = true
  resigned : s.timers.isArmed .reconnect = false
  grace : s.connection.opened = true → s.timers.deadline? .stopGrace = some deadline

theorem not_armed_of_lasting {kind : TimerKind} (h : s.timers.isArmed kind = false)
    (hl : t.timers.isArmed kind = true → s.timers.isArmed kind = true) :
    t.timers.isArmed kind = false := by
  rw [Bool.eq_false_iff]
  intro ha
  simp [hl ha] at h

theorem Keeps.halting (hk : Keeps s t) (h : s.Halting deadline)
    (hl : t.timers.isArmed .reconnect = true → s.timers.isArmed .reconnect = true) :
    t.Halting deadline where
  stopping := hk.stopping.trans h.stopping
  resigned := not_armed_of_lasting h.resigned hl
  grace ho := by
    rw [hk.opened] at ho
    rw [hk.grace ho, h.grace ho]

/-- Only its opening calls a stop off. -/
theorem Conduct.halting (hc : s.Conduct now m t) (h : s.Halting deadline) (hm : m ≠ .opened) :
    t.Halting deadline := by
  cases hc with
  | goes hg => exact hg.halting h (hg.lasting .reconnect rfl)
  | finished _ hf =>
    refine ⟨hf.stopping, by simp [hf.timers], fun ho => ?_⟩
    simp [hf.opened] at ho
  | fallen hp => simp [h.stopping] at hp
  | suspected _ _ hk _ hl => exact hk.halting h (hl .reconnect rfl (by decide))
  | separated _ _ hk _ _ hl => exact hk.halting h (hl .reconnect rfl (by decide))
  | halted _ hs => simp [h.stopping] at hs
  | reconnected _ _ hk _ hl => exact hk.halting h (hl .reconnect rfl)
  | failed _ hc hp ht =>
    refine ⟨hp.trans h.stopping, by simp [ht], fun ho => ?_⟩
    simp [hc] at ho
  | launched hm' => exact absurd hm' hm

/-- Once a stop has begun there is no attempt to connect. -/
theorem Conduct.not_connect (hc : s.Conduct now m t) (h : t.Halting deadline)
    (hr : m ≠ .stop → s.timers.isArmed .reconnect = false) (hm : m ≠ .opened) :
    ∃ acts, t.outbox = s.outbox ++ acts ∧ .connect ∉ acts := by
  cases hc with
  | goes hg =>
    obtain ⟨acts, ho, ha⟩ := hg.plain
    exact ⟨acts, ho, not_mem_of_plain ha rfl⟩
  | finished _ hf =>
    obtain ⟨acts, ho, ha⟩ := hf.outbox
    exact ⟨_, ho, by simpa using not_mem_of_plain (a := .connect) ha rfl⟩
  | fallen _ hf =>
    have hp := hf.stopping
    simp [h.stopping] at hp
  | suspected _ _ _ ho =>
    obtain ⟨acts, ho, ha⟩ := ho
    exact ⟨acts, ho, not_mem_of_plain ha rfl⟩
  | separated _ _ _ _ ho => exact ⟨_, ho, by simp⟩
  | halted _ _ _ ho => exact ⟨[], ho.trans (List.append_nil _).symm, by simp⟩
  | reconnected hm' hd =>
    subst hm'
    have ha := Timers.isArmed_of_isDue hd
    simp [hr (by simp)] at ha
  | failed _ _ _ _ _ ho => exact ⟨_, ho, by simp⟩
  | launched hm' => exact absurd hm' hm

/-! ## Before and after a stop -/

/-- What holds of a session that was last looked at at the time `clock`; `opened` tells whether it
was opened. -/
structure Standing (clock : Nat) (opened : Bool) (s : Session) : Prop where
  consistent : s.Consistent
  lastWord : s.outbox.countP Action.isFinal + s.connection.opened.toNat = opened.toNat
  closes : ClosesStops s.outbox
  halting : s.stopping = true → ∃ deadline ≤ clock + stopGrace, s.Halting deadline

theorem Unopened.standing (hu : s.Unopened) (ho : s.outbox = []) (hp : s.stopping = false) :
    Standing 0 false s where
  consistent := hu.consistent
  lastWord := by simp [ho, hu.connection]
  closes := by
    intro before after he
    simp [ho] at he
  halting h := by simp [hp] at h

theorem Standing.later (h : Standing clock opened s) (hc : clock ≤ now) :
    Standing now opened s where
  consistent := h.consistent
  lastWord := h.lastWord
  closes := h.closes
  halting hp := by
    obtain ⟨deadline, hd, hh⟩ := h.halting hp
    exact ⟨deadline, Nat.le_trans hd (Nat.add_le_add_right hc _), hh⟩

/-- A stop that begins is on time. -/
theorem Conduct.begins_halting (hc : s.Conduct now m t) (hp : s.stopping = false)
    (ht : t.stopping = true) : t.Halting (now + stopGrace) := by
  cases hc with
  | goes h => simp [h.stopping, hp] at ht
  | finished _ h =>
    refine ⟨ht, by simp [h.timers], fun ho => ?_⟩
    simp [h.opened] at ho
  | fallen _ h => simp [h.stopping] at ht
  | suspected _ _ h => simp [h.stopping, hp] at ht
  | separated _ _ h => simp [h.stopping, hp] at ht
  | halted _ _ _ _ _ hg hl => exact ⟨ht, hl .reconnect (by decide), hg⟩
  | reconnected _ _ h => simp [h.stopping, hp] at ht
  | failed _ _ h => simp [h, hp] at ht
  | launched _ h => simp [h, launch_eq] at ht

theorem Standing.advance (h : Standing now opened s) (hm : s.Permits m) (hne : m ≠ .opened) :
    Standing now opened (s.advance now m) := by
  have hc := conduct_advance h.consistent now hm
  refine ⟨h.consistent.advance hm, (hc.conserves hne).trans h.lastWord, hc.closesStops h.closes,
    fun hp => ?_⟩
  cases hs : s.stopping with
  | true =>
    obtain ⟨deadline, hd, hh⟩ := h.halting hs
    exact ⟨deadline, hd, hc.halting hh hne⟩
  | false => exact ⟨now + stopGrace, Nat.le_refl _, hc.begins_halting hs hp⟩

theorem Standing.launch (h : Standing clock false s) (hu : s.Unopened) :
    Standing now true s.launch := by
  have hm : s.Permits .opened := hu
  have hnext : (s.advance now .opened).Consistent := h.consistent.advance hm
  have hc := conduct_advance h.consistent now hm
  have hl := h.lastWord
  refine ⟨hnext, ?_, hc.closesStops h.closes, fun hp => ?_⟩
  · rw [hu.connection] at hl
    rw [launch_eq, List.append_assoc, List.countP_append, List.countP_append, List.countP_append,
      List.countP_map, List.countP_map]
    simpa [Action.isFinal, Function.comp_def] using hl
  · simp [launch_eq] at hp

theorem Standing.step (h : Standing clock opened s) (hu : opened = false → s.Unopened)
    (hc : clock ≤ now) (ha : s.admits opened event = true) :
    Standing now (opened || event.isOpening) (s.step now event) := by
  cases he : event.isOpening with
  | true =>
    cases event with
    | opened =>
      obtain rfl : opened = false := by simpa [admits] using ha
      exact h.launch (hu rfl)
    | _ => cases he
  | false =>
    rw [Bool.or_false]
    exact kept_step ha hu he (fun t m ht hm hne => ht.advance hm hne) (h.later hc)

/-- What holds at the beginning of a legal run holds at every point of it. -/
theorem Standing.after {run rest : List Occurrence} (h : Standing clock opened s)
    (hu : opened = false → s.Unopened) (hl : s.LegalFrom clock opened (run ++ rest)) :
    ∃ clock', Standing clock' (opened || run.any (·.2.isOpening)) (s.after run) ∧
      (s.after run).LegalFrom clock' (opened || run.any (·.2.isOpening)) rest := by
  induction run generalizing clock opened s with
  | nil => exact ⟨clock, by simpa [Session.after] using h, by simpa [Session.after] using hl⟩
  | cons o run ih =>
    obtain ⟨now, event⟩ := o
    obtain ⟨hc, ha, hr⟩ := hl
    have hu' : (opened || event.isOpening) = false → (s.step now event).Unopened := by
      intro ho
      obtain ⟨rfl, he⟩ : opened = false ∧ event.isOpening = false := by simpa using ho
      exact (hu rfl).step now ha he
    obtain ⟨clock', hs, hl'⟩ := ih (h.step hu hc ha) hu' hr
    rw [List.any_cons, ← Bool.or_assoc]
    exact ⟨clock', hs, hl'⟩

/-- What holds since a stop has begun and the actions were `base`. -/
structure Quitting (deadline : Nat) (base : List Action) (s : Session) : Prop
    extends Halting deadline s where
  consistent : s.Consistent
  silent : ∃ acts, s.outbox = base ++ acts ∧ .connect ∉ acts

variable {base : List Action}

theorem Quitting.advance (h : Quitting deadline base s) (hm : s.Permits m) (hne : m ≠ .opened) :
    Quitting deadline base (s.advance now m) := by
  have hc := conduct_advance h.consistent now hm
  have hh := hc.halting h.toHalting hne
  refine ⟨hh, h.consistent.advance hm, ?_⟩
  obtain ⟨acts, ho, ha⟩ := h.silent
  obtain ⟨acts', ho', ha'⟩ := hc.not_connect hh (fun _ => h.resigned) hne
  exact ⟨acts ++ acts', by rw [ho', ho, List.append_assoc], by simp [ha, ha']⟩

theorem stopping_beginStop (s : Session) (now : Nat) : (s.beginStop now).stopping = true := by
  unfold beginStop
  split
  · assumption
  · dsimp only
    split
    · rfl
    · exact congrArg (·.2.2.2) (leaves_finishStop _).setup

/-- After a stop the session is quitting, and for no longer than the time it grants. -/
theorem Standing.quitting (h : Standing clock opened s) (hc : clock ≤ now) :
    ∃ deadline ≤ now + stopGrace, Quitting deadline s.outbox (s.step now .stop) := by
  have hs : Standing now opened (s.advance now .stop) :=
    (h.later hc).advance (m := .stop) trivial (by simp)
  obtain ⟨deadline, hd, hh⟩ := hs.halting (stopping_beginStop s now)
  have hconduct := conduct_advance h.consistent now (m := .stop) trivial
  exact ⟨deadline, hd, hh, hs.consistent,
    hconduct.not_connect hh (fun hne => absurd rfl hne) (by simp)⟩

/-- What holds since a session is not open any more. -/
structure Over (s : Session) : Prop where
  consistent : s.Consistent
  closed : s.connection.opened = false

theorem Over.advance (h : s.Over) (hm : s.Permits m) (hne : m ≠ .opened) :
    (s.advance now m).Over := by
  refine ⟨h.consistent.advance hm, ?_⟩
  cases conduct_advance h.consistent now hm with
  | goes hg => exact hg.opened.trans h.closed
  | finished _ hf => exact hf.opened
  | fallen _ hf => exact hf.opened.trans h.closed
  | suspected _ _ hk => exact hk.opened.trans h.closed
  | separated _ _ hk => exact hk.opened.trans h.closed
  | halted _ _ _ _ hc => exact hc.trans h.closed
  | reconnected _ _ hk => exact hk.opened.trans h.closed
  | failed _ hc => exact hc
  | launched hm' => exact absurd hm' hne

/-- The time of a stop ends it, whatever else expires before. -/
theorem Quitting.over_tick (h : Quitting deadline base s) (hd : deadline ≤ now) :
    (s.tick now).Over := by
  have hover : ∀ (kinds : List TimerKind) (t : Session), t.Over →
      (kinds.foldl (expire now) t).Over := fun kinds t ht =>
    kinds.foldlRecOn (expire now) ht fun _ ht kind _ =>
      ht.advance (m := .expiry kind) trivial (by simp)
  unfold tick
  cases ho : s.connection.opened with
  | false => exact hover _ s ⟨h.consistent, ho⟩
  | true =>
    obtain ⟨early, late, he⟩ := List.append_of_mem (Timers.mem_expired (h.grace ho) hd)
    rw [he, List.foldl_append, List.foldl_cons]
    have hearly : Quitting deadline base (early.foldl (expire now) s) :=
      early.foldlRecOn (expire now) h fun _ ht kind _ =>
        ht.advance (m := .expiry kind) trivial (by simp)
    generalize early.foldl (expire now) s = t at hearly
    refine hover late _ ?_
    cases hot : t.connection.opened with
    | false =>
      exact Over.advance (m := .expiry .stopGrace) ⟨hearly.consistent, hot⟩ trivial (by simp)
    | true =>
      have hdue : t.timers.isDue now .stopGrace = true := by
        simp [Timers.isDue, hearly.grace hot, hd]
      refine ⟨hearly.consistent.advance (m := .expiry .stopGrace) trivial, ?_⟩
      unfold expire
      rw [if_pos hdue]
      simp only [fire]
      rw [finishStop_eq _ (by exact hot)]

theorem Quitting.over_after {run : List Occurrence} (h : Quitting deadline base s)
    (hl : s.LegalFrom clock true run) (hd : deadline ≤ now) (hm : (now, .timer) ∈ run) :
    (s.after run).Over := by
  induction run generalizing clock s with
  | nil => cases hm
  | cons o rest ih =>
    obtain ⟨_, ha, hr⟩ := hl
    rw [Bool.true_or] at hr
    rcases List.mem_cons.mp hm with rfl | hm
    · exact kept_after (s := s.step now .timer) hr (fun _ _ _ ht hm hne => ht.advance hm hne)
        (h.over_tick hd)
    · have hnext : Quitting deadline base (s.step o.1 o.2) :=
        kept_step ha (fun h => by cases h) (isOpening_eq_false ha)
          (fun _ _ ht hm hne => ht.advance hm hne) h
      exact ih hnext hr hm

/-! ## Runs -/

/-- In a legal run a session ends at most once, and an end of a stop directly follows the closing of
the connection with a last word to the equipment. After a stop of a session that was opened there is
no attempt to connect, and when the clock is looked at after the time that the stop grants, the
session has ended exactly once. -/
theorem stops_once (machine : String) (model : Model) (catalog : Catalog)
    (run : List Occurrence) (h : (ofCatalog machine model catalog).Legal run) :
    let s := ofCatalog machine model catalog
    (s.after run).outbox.countP Action.isFinal ≤ 1 ∧ ClosesStops (s.after run).outbox ∧
      ∀ before now later, run = before ++ (now, .stop) :: later →
        before.any (·.2.isOpening) = true →
          (∃ acts, (s.after run).outbox = (s.after before).outbox ++ acts ∧ .connect ∉ acts) ∧
            ((∃ now', (now', .timer) ∈ later ∧ now + stopGrace ≤ now') →
              (s.after run).outbox.countP Action.isFinal = 1) := by
  intro s
  have hu : s.Unopened := unopened_ofCatalog machine model catalog
  have hs : Standing 0 false s := hu.standing rfl rfl
  have hlegal : s.LegalFrom 0 false (run ++ []) := by
    rw [List.append_nil]
    exact h
  obtain ⟨_, hend, -⟩ := hs.after (fun _ => hu) hlegal
  have hlast := hend.lastWord
  refine ⟨?_, hend.closes, ?_⟩
  · have hle := Bool.toNat_le (false || run.any (·.2.isOpening))
    omega
  · rintro before now later rfl hopened
    obtain ⟨clock, hbefore, hrest⟩ := hs.after (fun _ => hu) (by exact h)
    rw [Bool.false_or, hopened] at hbefore hrest
    obtain ⟨hclock, -, hlater⟩ := hrest
    obtain ⟨deadline, hd, hquit⟩ := hbefore.quitting hclock
    have hsplit : s.after (before ++ (now, .stop) :: later) =
        ((s.after before).step now .stop).after later := List.foldl_append
    refine ⟨?_, ?_⟩
    · rw [hsplit]
      exact (kept_after hlater (fun _ _ _ ht hm hne => ht.advance hm hne) hquit).silent
    · rintro ⟨now', hmem, hdue⟩
      have hover : (s.after (before ++ (now, .stop) :: later)).Over := by
        rw [hsplit]
        exact hquit.over_after hlater (Nat.le_trans hd hdue) hmem
      rw [hover.closed, List.any_append, hopened] at hlast
      simpa using hlast

/-- A stop that comes while the answer to a poll is waited for, and then the end of its time. -/
def stoppedTalk : List Occurrence :=
  openTalk ++ [(5508, .timer), (5600, .stop), (7600, .timer)]

theorem stops_once_stoppedTalk :
    let s := ofCatalog "press" {} { status := [gauge] }
    s.Legal stoppedTalk ∧ (s.after stoppedTalk).outbox.countP Action.isFinal = 1 ∧
      ClosesStops (s.after stoppedTalk).outbox ∧
      ∃ acts, (s.after stoppedTalk).outbox =
        (s.after (openTalk ++ [(5508, .timer)])).outbox ++ acts ∧ .connect ∉ acts := by
  intro s
  have h : s.Legal stoppedTalk := by decide +kernel
  obtain ⟨-, hcloses, hstop⟩ := stops_once "press" {} { status := [gauge] } stoppedTalk h
  obtain ⟨hconnect, honce⟩ := hstop (openTalk ++ [(5508, .timer)]) 5600 [(7600, .timer)] rfl rfl
  exact ⟨h, honce ⟨7600, List.mem_singleton_self _, by decide⟩, hcloses, hconnect⟩

end Session

end GemLink
