import GemLink.Driver.Reactor
import GemLink.Proofs.Session.Cycles
import GemLink.Proofs.Session.Deadlines

/-!
What one look at the clock does. The timers that are due are handled in the order of their deadlines
and kinds, each once, unless the handler of another withdraws one of them before its turn comes
(`Session.Pass`, `Session.pass_tick`): it disarms it, or puts it off. What the handlers arm is armed
for later, the report that the machine is disconnected apart, so that two looks at one moment leave
nothing that is due (`Session.Exhausts`), and the reactor has to wait for the clock again.

All that holds as long as the clock can tell the deadlines. An interval of a model may be longer
than that: then the program breaks down at the handler that arms such a timer, and the others that
are due are not handled (`Session.tick_exhausts`, `Session.not_exhausts_unansweredOpening`).
-/

namespace GemLink

/-! ## The order of timers -/

/-- In a list without repetition an entry that another stands behind comes earlier. -/
theorem idxOf_lt_of_sublist {α : Type} [BEq α] [LawfulBEq α] {l : List α} {a b : α}
    (hl : l.Nodup) (h : [a, b].Sublist l) : l.idxOf a < l.idxOf b := by
  obtain ⟨front, back, rfl, ha, hb⟩ := List.cons_sublist_iff.mp h
  have hb : b ∈ back := List.singleton_sublist.mp hb
  have hnot : b ∉ front := fun hf => (List.nodup_append.mp hl).2.2 b hf b hb rfl
  rw [List.idxOf_append, List.idxOf_append, if_pos ha, if_neg hnot]
  have hlt : front.idxOf a < front.length := List.idxOf_lt_length_iff.mpr ha
  omega

namespace TimerKind

theorem nodup_all : all.Nodup := by
  decide

/-- Of two kinds one stands before the other. -/
theorem sublist_all_or {kind other : TimerKind} (h : kind ≠ other) :
    [kind, other].Sublist all ∨ [other, kind].Sublist all := by
  revert h
  cases kind <;> cases other <;> decide

end TimerKind

namespace Timers

variable {t : Timers} {now : Nat} {kind other : TimerKind}

/-- Whether one armed timer comes before another: its deadline is earlier, or the deadlines are the
same and its kind stands before the other. -/
def Precedes (t : Timers) (kind other : TimerKind) : Prop :=
  ∃ deadline later, t.deadline? kind = some deadline ∧ t.deadline? other = some later ∧
    (deadline < later ∨ deadline = later ∧ [kind, other].Sublist TimerKind.all)

theorem nodup_expired (t : Timers) (now : Nat) : (t.expired now).Nodup :=
  (List.mergeSort_perm _ _).nodup_iff.mpr (TimerKind.nodup_all.filter _)

/-- The timers that are due stand in their order: those of one deadline are left in the order of
their kinds. -/
theorem expired_pairwise (t : Timers) (now : Nat) : (t.expired now).Pairwise t.Precedes := by
  have htrans : ∀ a b c : TimerKind,
      decide ((t.deadline? a).getD 0 ≤ (t.deadline? b).getD 0) = true →
        decide ((t.deadline? b).getD 0 ≤ (t.deadline? c).getD 0) = true →
          decide ((t.deadline? a).getD 0 ≤ (t.deadline? c).getD 0) = true := by
    simp only [decide_eq_true_eq]
    omega
  have htotal : ∀ a b : TimerKind,
      (decide ((t.deadline? a).getD 0 ≤ (t.deadline? b).getD 0) ||
        decide ((t.deadline? b).getD 0 ≤ (t.deadline? a).getD 0)) = true := by
    simp only [Bool.or_eq_true, decide_eq_true_eq]
    omega
  have hsorted : ∀ {a b : TimerKind}, [a, b].Sublist (t.expired now) →
      decide ((t.deadline? a).getD 0 ≤ (t.deadline? b).getD 0) = true :=
    List.pairwise_iff_forall_sublist.mp (List.pairwise_mergeSort htrans htotal _)
  rw [List.pairwise_iff_forall_sublist]
  intro kind other hpair
  have hkind := isDue_of_mem_expired (hpair.subset List.mem_cons_self)
  have hother := isDue_of_mem_expired (hpair.subset (List.mem_cons_of_mem _ List.mem_cons_self))
  obtain ⟨deadline, hd, -⟩ := deadline?_of_isDue hkind
  obtain ⟨later, hl, -⟩ := deadline?_of_isDue hother
  have hle : deadline ≤ later := by simpa [hd, hl] using hsorted hpair
  refine ⟨deadline, later, hd, hl, ?_⟩
  rcases Nat.lt_or_eq_of_le hle with hlt | heq
  · exact .inl hlt
  · refine .inr ⟨heq, ?_⟩
    have hearlier := idxOf_lt_of_sublist (t.nodup_expired now) hpair
    have hne : kind ≠ other := by
      rintro rfl
      exact absurd hearlier (Nat.lt_irrefl _)
    rcases TimerKind.sublist_all_or hne with hstands | hstands
    · exact hstands
    · -- The sort is stable, so the kinds would stand the other way round.
      have hfiltered : [other, kind].Sublist (TimerKind.all.filter (t.isDue now)) := by
        simpa [hkind, hother] using hstands.filter (t.isDue now)
      have hpair' : [other, kind].Sublist (t.expired now) :=
        List.pair_sublist_mergeSort htrans htotal (by simp [hd, hl, heq]) hfiltered
      have hlater := idxOf_lt_of_sublist (t.nodup_expired now) hpair'
      omega

end Timers

namespace Session

variable {s : Session} {now : Nat} {kind other : TimerKind}

/-! ## The timers that are handled -/

/-- A timer expires: it is disarmed and does what it was set for. -/
def serve (now : Nat) (s : Session) (kind : TimerKind) : Session :=
  (s.cancel kind).fire kind now

/-- The session after timers have expired one after the other. -/
def afterServing (s : Session) (now : Nat) (kinds : List TimerKind) : Session :=
  kinds.foldl (serve now) s

/-- Of timers that are looked at one after the other, those that are still due at their turn. -/
def served (now : Nat) (s : Session) : List TimerKind → List TimerKind
  | [] => []
  | kind :: rest =>
    if s.timers.isDue now kind then kind :: served now (serve now s kind) rest
    else served now s rest

theorem foldl_expire (now : Nat) (s : Session) (kinds : List TimerKind) :
    kinds.foldl (expire now) s = s.afterServing now (served now s kinds) := by
  induction kinds generalizing s with
  | nil => rfl
  | cons kind rest ih =>
    rw [List.foldl_cons, served]
    unfold expire
    split
    · exact ih _
    · exact ih _

theorem served_sublist (now : Nat) (s : Session) (kinds : List TimerKind) :
    (served now s kinds).Sublist kinds := by
  induction kinds generalizing s with
  | nil => exact List.Sublist.refl []
  | cons kind rest ih =>
    unfold served
    split
    · exact (ih _).cons_cons kind
    · exact (ih _).cons kind

/-- A timer that is handled is due when its turn comes. -/
theorem isDue_of_served {kinds before after : List TimerKind}
    (h : served now s kinds = before ++ kind :: after) :
    (s.afterServing now before).timers.isDue now kind = true := by
  induction kinds generalizing s before with
  | nil => exact absurd h.symm (List.append_ne_nil_of_right_ne_nil before (List.cons_ne_nil _ _))
  | cons first rest ih =>
    unfold served at h
    split at h
    · next hd =>
      cases before with
      | nil =>
        obtain ⟨rfl, -⟩ := List.cons.inj h
        exact hd
      | cons head tail =>
        obtain ⟨rfl, htail⟩ := List.cons.inj h
        exact ih (s := serve now s first) htail
    · exact ih h

/-- A timer that was due and is not handled has been withdrawn by the handler of one that comes
before it. -/
theorem withdrawn_of_not_mem_served {kinds : List TimerKind} (hm : kind ∈ kinds)
    (hd : s.timers.isDue now kind = true) (hnot : kind ∉ served now s kinds) :
    ∃ before other after, served now s kinds = before ++ other :: after ∧
      [other, kind].Sublist kinds ∧
      (s.afterServing now before).timers.isDue now kind = true ∧
      (serve now (s.afterServing now before) other).timers.isDue now kind = false := by
  induction kinds generalizing s with
  | nil => cases hm
  | cons first rest ih =>
    unfold served at hnot ⊢
    split at hnot
    · next hfirst =>
      rw [if_pos hfirst]
      rw [List.mem_cons, not_or] at hnot
      have hrest : kind ∈ rest := (List.mem_cons.mp hm).resolve_left hnot.1
      cases hafter : (serve now s first).timers.isDue now kind with
      | false =>
        exact ⟨[], first, _, rfl, (List.singleton_sublist.mpr hrest).cons_cons first, hd, hafter⟩
      | true =>
        obtain ⟨before, other, after, he, hsub, hwas, hgone⟩ := ih hrest hafter hnot.2
        exact ⟨first :: before, other, after, by rw [he]; rfl, hsub.cons first, hwas, hgone⟩
    · next hfirst =>
      rw [if_neg hfirst]
      have hrest : kind ∈ rest := by
        rcases List.mem_cons.mp hm with rfl | hrest
        · exact absurd hd hfirst
        · exact hrest
      obtain ⟨before, other, after, he, hsub, hstill⟩ := ih hrest hd hnot
      exact ⟨before, other, after, he, hsub.cons first, hstill⟩

/-- `kinds` are the timers that a session handles when it looks at the clock. -/
structure Pass (s : Session) (now : Nat) (kinds : List TimerKind) : Prop where
  /-- The session becomes what they make of it, one after the other. -/
  result : s.tick now = s.afterServing now kinds
  /-- Each was due at the beginning. -/
  wasDue : ∀ kind ∈ kinds, s.timers.isDue now kind = true
  /-- None is handled twice. -/
  once : kinds.Nodup
  /-- They are handled in the order in which they stood at the beginning. -/
  ordered : kinds.Pairwise s.timers.Precedes
  /-- Each is still due when its turn comes. -/
  stillDue : ∀ before kind after, kinds = before ++ kind :: after →
    (s.afterServing now before).timers.isDue now kind = true
  /-- None that was due at the beginning is left out, but those that the handler of one before them
  disarms or puts off. -/
  withdrawn : ∀ kind, s.timers.isDue now kind = true → kind ∉ kinds →
    ∃ before other after, kinds = before ++ other :: after ∧ s.timers.Precedes other kind ∧
      (s.afterServing now before).timers.isDue now kind = true ∧
      (serve now (s.afterServing now before) other).timers.isDue now kind = false

theorem pass_tick (s : Session) (now : Nat) :
    s.Pass now (served now s (s.timers.expired now)) where
  result := foldl_expire now s _
  wasDue kind hk := Timers.isDue_of_mem_expired ((served_sublist now s _).subset hk)
  once := (s.timers.nodup_expired now).sublist (served_sublist now s _)
  ordered := (s.timers.expired_pairwise now).sublist (served_sublist now s _)
  stillDue _ _ _ h := isDue_of_served h
  withdrawn kind hd hnot := by
    obtain ⟨deadline, ha, hle⟩ := Timers.deadline?_of_isDue hd
    obtain ⟨before, other, after, he, hsub, hgone⟩ :=
      withdrawn_of_not_mem_served (Timers.mem_expired ha hle) hd hnot
    exact ⟨before, other, after, he,
      List.pairwise_iff_forall_sublist.mp (s.timers.expired_pairwise now) hsub, hgone⟩

/-! ## Two looks at one moment -/

/-- The intervals of a session are always those that it began with. -/
theorem settings_after (s : Session) (run : List Occurrence) :
    (s.after run).settings = s.settings := by
  unfold after
  induction run generalizing s with
  | nil => rfl
  | cons o rest ih => exact (ih _).trans (defers_step s o.1 o.2).settings

theorem spaced_tick (hs : s.settings.Spaced) (now : Nat) : (s.tick now).settings.Spaced := by
  have hsettings : (s.tick now).settings = s.settings := (defers_step s now .timer).settings
  rwa [hsettings]

/-- After a look at the clock only the report can be due. -/
theorem eq_report_of_isDue_tick (hs : s.settings.Spaced)
    (h : (s.tick now).timers.isDue now kind = true) : kind = .disconnectReport := by
  refine Decidable.byContradiction fun hne => ?_
  rw [not_due_tick s now hs hne] at h
  cases h

/-- After two looks at one moment nothing is due. -/
theorem not_due_tick_tick (hs : s.settings.Spaced) (now : Nat) (kind : TimerKind) :
    ((s.tick now).tick now).timers.isDue now kind = false := by
  by_cases hk : kind = .disconnectReport
  · subst hk
    exact not_due_tick_report _ now fun _ => eq_report_of_isDue_tick hs
  · exact not_due_tick _ now (spaced_tick hs now) hk

theorem lt_of_next? {t : Timers} {deadline : Nat} (hnone : ∀ kind, t.isDue now kind = false)
    (h : t.next? = some deadline) : now < deadline := by
  obtain ⟨kind, hk⟩ := Timers.exists_of_next? h
  refine Nat.lt_of_not_le fun hle => ?_
  have hdue := Timers.isDue_iff.mpr ⟨deadline, hk, hle⟩
  rw [hnone kind] at hdue
  cases hdue

/-- At a look at the clock a session handles the timers that are due, each once and in their order,
but those that an earlier handler withdraws, and the program does not break down. After it only the
report that the machine is disconnected can be due, and after a second look at the same moment
nothing is: the next deadline is still to come, and the reactor does not look again. -/
structure Exhausts (s : Session) (now : Nat) : Prop where
  first : s.tick? now = some (s.tick now)
  pass : ∃ kinds, s.Pass now kinds
  report : ∀ kind, (s.tick now).timers.isDue now kind = true → kind = .disconnectReport
  second : (s.tick now).tick? now = some ((s.tick now).tick now)
  quiet : ∀ kind, ((s.tick now).tick now).timers.isDue now kind = false
  later : ∀ deadline, ((s.tick now).tick now).timers.next? = some deadline → now < deadline
  waits : ∀ (w : Surroundings) (r : Reactor), w.now = now →
    r.session.timers = ((s.tick now).tick now).timers → r.handle w .timer = none

/-! ## What the clock cannot tell -/

/-- The session after a run, if the program does not break down. -/
def after? (s : Session) (run : List Occurrence) : Option Session :=
  run.foldlM (fun s o => s.step? o.1 o.2) s

theorem tellable?_eq_some {t : Session} (h : s.tellable? = some t) :
    t = s ∧ t.timers.isTellable = true := by
  unfold tellable? at h
  split at h
  · next ht =>
    cases h
    exact ⟨rfl, ht⟩
  · cases h

theorem tellable?_of_isTellable (h : s.timers.isTellable = true) : s.tellable? = some s :=
  if_pos h

/-- Where the program does not break down, timers expire one after the other. -/
theorem foldlM_expire?_eq_some {t : Session} {kinds : List TimerKind}
    (hs : s.timers.isTellable = true) (h : kinds.foldlM (expire? now) s = some t) :
    t = kinds.foldl (expire now) s ∧ t.timers.isTellable = true := by
  induction kinds generalizing s with
  | nil =>
    cases h
    exact ⟨rfl, hs⟩
  | cons kind rest ih =>
    rw [List.foldlM_cons] at h
    obtain ⟨u, hu, hrest⟩ := Option.bind_eq_some_iff.mp h
    obtain ⟨rfl, hu⟩ := tellable?_eq_some hu
    exact ih hu hrest

/-- And it does not break down where no timer is armed for a moment that the clock cannot tell. -/
theorem foldlM_expire?_of_kept {P : Session → Prop} {kinds : List TimerKind}
    (hkept : ∀ u, ∀ kind ∈ kinds, P u →
      P (expire now u kind) ∧ (expire now u kind).timers.isTellable = true) (hs : P s) :
    kinds.foldlM (expire? now) s = some (kinds.foldl (expire now) s) := by
  induction kinds generalizing s with
  | nil => rfl
  | cons kind rest ih =>
    obtain ⟨hnext, htell⟩ := hkept s kind List.mem_cons_self hs
    rw [List.foldlM_cons, expire?, tellable?_of_isTellable htell]
    exact ih (fun u other ho => hkept u other (List.mem_cons_of_mem _ ho)) hnext

theorem step?_eq_some {t : Session} {event : SessionEvent} (hs : s.timers.isTellable = true)
    (h : s.step? now event = some t) : t = s.step now event ∧ t.timers.isTellable = true := by
  cases event with
  | timer => exact foldlM_expire?_eq_some hs h
  | _ => exact tellable?_eq_some h

/-- In a run in which the program does not break down the clock can tell all deadlines. -/
theorem after?_eq_some {t : Session} {run : List Occurrence} (hs : s.timers.isTellable = true)
    (h : s.after? run = some t) : t = s.after run ∧ t.timers.isTellable = true := by
  induction run generalizing s with
  | nil =>
    cases h
    exact ⟨rfl, hs⟩
  | cons o rest ih =>
    obtain ⟨u, hu, hrest⟩ := Option.bind_eq_some_iff.mp ((List.foldlM_cons ..).symm.trans h)
    obtain ⟨rfl, hu⟩ := step?_eq_some hs hu
    exact ih hu hrest

/-- A look at the clock does not break the program down as long as the longest delay does not lead
beyond what the clock can tell. -/
theorem tick?_of_le (hs : s.timers.isTellable = true)
    (hnow : now + s.settings.longestDelay ≤ lastMoment) : s.tick? now = some (s.tick now) := by
  refine foldlM_expire?_of_kept
    (P := fun u => u.settings = s.settings ∧ u.timers.isTellable = true) ?_ ⟨rfl, hs⟩
  rintro u kind - ⟨hsettings, hu⟩
  have hdefers := defers_expire u now kind
  have htell := hdefers.tellable (hsettings ▸ hnow) hu
  exact ⟨⟨hdefers.settings.trans hsettings, htell⟩, htell⟩

/-- Nor does one at which only the report is due: it arms nothing. -/
theorem tick?_of_report (hs : s.timers.isTellable = true)
    (honly : ∀ kind, s.timers.isDue now kind = true → kind = .disconnectReport) :
    s.tick? now = some (s.tick now) := by
  refine foldlM_expire?_of_kept (P := fun u => u.timers.isTellable = true) ?_ hs
  intro u kind hk hu
  obtain rfl := honly kind (Timers.isDue_of_mem_expired hk)
  have htell : (expire now u .disconnectReport).timers.isTellable = true := by
    unfold expire
    split
    · simp only [fire, reportDisconnected_eq, cancel]
      exact Timers.isTellable_cancel hu _
    · exact hu
  exact ⟨htell, htell⟩

/-- A look at the clock that does not break the program down exhausts what there is to do. -/
theorem exhausts_of_tick? (hspaced : s.settings.Spaced) (hs : s.timers.isTellable = true)
    {t : Session} (h : s.tick? now = some t) : s.Exhausts now := by
  obtain ⟨rfl, htell⟩ := foldlM_expire?_eq_some hs h
  have hreport : ∀ kind, (s.tick now).timers.isDue now kind = true → kind = .disconnectReport :=
    fun _ => eq_report_of_isDue_tick hspaced
  have hquiet := not_due_tick_tick hspaced now
  have hlater : ∀ deadline, ((s.tick now).tick now).timers.next? = some deadline →
      now < deadline := fun _ => lt_of_next? hquiet
  refine ⟨h, ⟨_, s.pass_tick now⟩, hreport, tick?_of_report htell hreport, hquiet, hlater, ?_⟩
  rintro w r rfl ht
  simp only [Reactor.handle, ht]
  split
  · next deadline hd => exact if_neg (Nat.not_le.mpr (hlater deadline hd))
  · rfl

/-- Whatever has happened to a session whose intervals a model asks for, as long as the program has
not broken down: at a look at the clock the session handles what is due, and two looks at one moment
exhaust it, unless a handler arms a timer for a moment that the clock cannot tell. For that the
longest delay must lead beyond the last moment. -/
theorem tick_exhausts {machine : String} {model : Model} {catalog : Catalog}
    {run : List Occurrence} (h : (ofCatalog machine model catalog).after? run = some s)
    (now : Nat) :
    s.Exhausts now ∨
      s.tick? now = none ∧ lastMoment < now + (SessionSettings.ofModel model).longestDelay := by
  obtain ⟨rfl, hs⟩ := after?_eq_some (by rfl) h
  have hsettings : ((ofCatalog machine model catalog).after run).settings =
      SessionSettings.ofModel model := settings_after _ run
  cases ht : ((ofCatalog machine model catalog).after run).tick? now with
  | some t =>
    have hspaced := SessionSettings.spaced_ofModel model
    exact .inl (exhausts_of_tick? (hsettings ▸ hspaced) hs ht)
  | none =>
    refine .inr ⟨rfl, Nat.lt_of_not_le fun hle => ?_⟩
    rw [tick?_of_le hs (by rwa [hsettings])] at ht
    cases ht

/-- A machine whose link is tested every thirteen seconds. -/
def testedModel : Model where
  linkTestEnabled := true
  linkTestFrequency := 13

/-- A poll is answered neither at first nor when it is repeated. -/
def unansweredPoll : List Occurrence :=
  openTalk ++ [(5508, .timer), (7508, .timer), (9508, .timer), (11508, .timer)]

theorem after?_of_isSome {run : List Occurrence} (hs : s.timers.isTellable = true)
    (h : (s.after? run).isSome = true) : s.after? run = some (s.after run) := by
  obtain ⟨t, ht⟩ := Option.isSome_iff_exists.mp h
  rw [ht, (after?_eq_some hs ht).1]

/-- The last time runs out when the link is to be tested. The connection is given up then and not
tested, and the host is to hear of it at once. -/
theorem tick_exhausts_unansweredPoll :
    let s₀ := ofCatalog "press" testedModel controlCatalog
    let s := s₀.after unansweredPoll
    s₀.Legal unansweredPoll ∧ s₀.after? unansweredPoll = some s ∧
      s.timers.expired 13508 = [.commTimeout, .linkTest] ∧
      served 13508 s (s.timers.expired 13508) = [.commTimeout] ∧
      (s.tick 13508).timers.isDue 13508 .disconnectReport = true ∧ s.Exhausts 13508 := by
  intro s₀ s
  have hreached : s₀.after? unansweredPoll = some s :=
    after?_of_isSome (by rfl) (by decide +kernel)
  have hdue : TimerKind.all.filter (s.timers.isDue 13508) = [.commTimeout, .linkTest] := by
    decide +kernel
  have hexpired : s.timers.expired 13508 = [.commTimeout, .linkTest] := by
    unfold Timers.expired
    rw [hdue]
    exact List.mergeSort_of_pairwise (by decide +kernel)
  have hserved : served 13508 s (s.timers.expired 13508) = [.commTimeout] := by
    rw [hexpired]
    decide +kernel
  have hreport : (s.tick 13508).timers.isDue 13508 .disconnectReport = true := by
    rw [(s.pass_tick 13508).result, hserved]
    decide +kernel
  have hexhausts := (tick_exhausts hreached 13508).resolve_right fun hnone =>
    absurd hnone.2 (by decide +kernel)
  exact ⟨by decide +kernel, hreached, hexpired, hserved, hreport, hexhausts⟩

/-! ### A report that is too late for the clock -/

/-- A machine of which the host is to hear as late as possible that it is disconnected. -/
def unreportableModel : Model where
  disconnectReportTime := some 18446744073709551615

/-- The first question to the equipment is not answered, and sent again three times. -/
def unansweredOpening : List Occurrence :=
  [(0, .opened), (0, .connected), (2000, .timer), (4000, .timer), (6000, .timer)]

/-- When its time runs out once more, the connection is to be given up. The program breaks down when
it sets the report, and does neither that nor anything else that it should do then. -/
theorem not_exhausts_unansweredOpening :
    let s₀ := ofCatalog "press" unreportableModel controlCatalog
    let s := s₀.after unansweredOpening
    s₀.Legal unansweredOpening ∧ s₀.after? unansweredOpening = some s ∧
      s.timers.expired 8000 = [.commTimeout] ∧ s.tick? 8000 = none ∧ ¬ s.Exhausts 8000 := by
  intro s₀ s
  have hbroken : s.tick? 8000 = none := Option.isNone_iff_eq_none.mp (by decide +kernel)
  refine ⟨by decide +kernel, after?_of_isSome (by rfl) (by decide +kernel), by decide +kernel,
    hbroken, fun h => ?_⟩
  rw [h.first] at hbroken
  cases hbroken

end Session

end GemLink
