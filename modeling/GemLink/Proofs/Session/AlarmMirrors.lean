import GemLink.Proofs.Session.ActiveAlarms
import GemLink.Proofs.Session.Debounce
import GemLink.Proofs.Session.Deeds
import GemLink.Proofs.Session.Undisturbed

/-!
How the host sees the active alarms. A mirror is a variable that shows them and nothing else. At an
opening the mirrors are told that no alarm is active; after that they are told of the alarms exactly
when a report changes which are active, and of nothing else (`mirrored_advance`). So what a mirror
was told last are the alarms that are active after the reports since the opening
(`alarms_mirrored`). A variable that shows the alarms and is to tell whether the machine is
connected as well is no mirror: it receives the truth values too (`lastValue?_twofold`).
-/

namespace GemLink

/-! ## Mirrors -/

/-- Whether a variable shows the active alarms, their codes or their texts, and nothing else. -/
def Variable.isMirror (v : Variable) : Bool :=
  (v.kind == .activeAlarmCodes || v.kind == .activeAlarmTexts) && !v.machineConnected

namespace Action

/-- Whether an action hands a value to a mirror. -/
def mirrors : Action → Bool
  | .publish v _ _ => v.isMirror
  | _ => false

/-- The value that an action hands to the host for a variable. -/
def value? (v : Variable) : Action → Option Value
  | .publish target value _ => if target = v then some value else none
  | _ => none

theorem mirrors_of_value? {v : Variable} (hv : v.isMirror = true) {a : Action}
    (ha : a.mirrors = false) : a.value? v = none := by
  cases a with
  | publish target value report =>
    refine if_neg fun he : target = v => ?_
    rw [mirrors, he, hv] at ha
    cases ha
  | _ => rfl

end Action

/-- The values that show the active alarms. -/
def Catalog.alarmPushes (c : Catalog) (alarms : ActiveAlarms) : List Action :=
  (c.alarmCodes.map fun v => .publish v alarms.codesValue true) ++
    c.alarmTexts.map fun v => .publish v alarms.textsValue true

/-- The values that show the active alarms on the mirrors. -/
def Catalog.mirrored (c : Catalog) (alarms : ActiveAlarms) : List Action :=
  (c.alarmPushes alarms).filter Action.mirrors

/-- The message of a moment, if it is there to report an alarm. -/
def Moment.alarmMessage? : Moment → Option Inbound
  | .frame received => (Inbound.read? received).filter fun inbound => inbound.header.carries 5 1
  | _ => none

namespace Passage

/-- The alarm report of a passage. -/
def alarmReport? (p : Passage) : Option AlarmReport :=
  p.moment.alarmMessage?.bind Inbound.alarmReport?

/-- What a passage tells the mirrors. -/
def mirrored (p : Passage) : List Action :=
  p.actions.filter Action.mirrors

end Passage

/-- The alarm reports of a row of passages. -/
def alarmReports (ps : List Passage) : List AlarmReport :=
  ps.filterMap Passage.alarmReport?

/-- The last value that passages hand to the host for a variable. -/
def lastValue? (v : Variable) (ps : List Passage) : Option Value :=
  ((ps.flatMap Passage.actions).filterMap (Action.value? v)).getLast?

theorem lastValue?_concat (v : Variable) (ps : List Passage) (p : Passage) :
    lastValue? v (ps ++ [p]) =
      (p.actions.filterMap (Action.value? v)).getLast?.or (lastValue? v ps) := by
  simp [lastValue?, List.getLast?_append]

theorem Catalog.isNews_alarmPushes (c : Catalog) (alarms : ActiveAlarms) :
    ∀ a ∈ c.alarmPushes alarms, a.isNews = true := by
  unfold alarmPushes
  rw [List.forall_mem_append, List.forall_mem_map, List.forall_mem_map]
  exact ⟨fun _ _ => rfl, fun _ _ => rfl⟩

/-- A mirror and what it shows of the active alarms: their codes or their texts. -/
inductive Catalog.Mirrors (c : Catalog) (v : Variable) : (ActiveAlarms → Value) → Prop
  | codes (hv : v ∈ c.alarmCodes) (hm : v.machineConnected = false) :
      c.Mirrors v ActiveAlarms.codesValue
  | texts (hv : v ∈ c.alarmTexts) (hm : v.machineConnected = false) :
      c.Mirrors v ActiveAlarms.textsValue

namespace Catalog

variable {vs : List Variable} {c : Catalog} {v : Variable} {shows : ActiveAlarms → Value}

theorem kind_of_mem_alarmCodes (h : ofVariables vs = .ok c) (hv : v ∈ c.alarmCodes) :
    v.kind = .activeAlarmCodes := by
  obtain ⟨-, rfl⟩ := ofVariables_eq_ok_iff.mp h
  exact beq_iff_eq.mp (List.mem_filter.mp hv).2

theorem kind_of_mem_alarmTexts (h : ofVariables vs = .ok c) (hv : v ∈ c.alarmTexts) :
    v.kind = .activeAlarmTexts := by
  obtain ⟨-, rfl⟩ := ofVariables_eq_ok_iff.mp h
  exact beq_iff_eq.mp (List.mem_filter.mp hv).2

theorem Mirrors.isMirror (hv : c.Mirrors v shows) (h : ofVariables vs = .ok c) :
    v.isMirror = true := by
  cases hv with
  | codes hv hm => simp [Variable.isMirror, kind_of_mem_alarmCodes h hv, hm]
  | texts hv hm => simp [Variable.isMirror, kind_of_mem_alarmTexts h hv, hm]

/-- A mirror receives no values of the equipment, and it is not told whether the machine is
connected. -/
theorem isMirror_eq_false (h : ofVariables vs = .ok c) (hv : c.Reads v ∨ v ∈ c.connected) :
    v.isMirror = false := by
  rw [Bool.eq_false_iff]
  intro hm
  simp only [Variable.isMirror, Bool.and_eq_true, Bool.or_eq_true, beq_iff_eq,
    Bool.not_eq_true'] at hm
  rcases hv with hr | hc
  · exact role_of_reads h hr (Variable.role_of_kind hm.1)
  · rw [machineConnected_of_mem_connected h hc] at hm
    cases hm.2

end Catalog

/-- What else is done says nothing to a mirror. -/
theorem filterMap_value?_mirrors {v : Variable} (hv : v.isMirror = true) (acts : List Action) :
    acts.filterMap (Action.value? v) =
      (acts.filter Action.mirrors).filterMap (Action.value? v) := by
  rw [List.filterMap_filter]
  refine List.filterMap_congr fun a _ => ?_
  cases ha : a.mirrors with
  | true => rfl
  | false => exact Action.mirrors_of_value? hv ha

/-- The values of one variable, when a value is handed to some of them. -/
theorem filterMap_value?_publish (v : Variable) (targets : List Variable) (value : Value)
    (report : Bool) :
    (targets.map fun target => Action.publish target value report).filterMap (Action.value? v) =
      List.replicate (targets.count v) value := by
  induction targets with
  | nil => rfl
  | cons target rest ih =>
    rw [List.map_cons, List.filterMap_cons, ih]
    by_cases h : target = v
    · subst h
      simp [Action.value?, List.replicate_succ]
    · simp [Action.value?, h]

namespace Catalog

variable {vs : List Variable} {c : Catalog} {v : Variable} {shows : ActiveAlarms → Value}

/-- The value that a mirror is told last when the mirrors are told of the alarms. -/
theorem Mirrors.getLast? (hv : c.Mirrors v shows) (h : ofVariables vs = .ok c)
    (alarms : ActiveAlarms) :
    ((c.mirrored alarms).filterMap (Action.value? v)).getLast? = some (shows alarms) := by
  rw [mirrored, ← filterMap_value?_mirrors (hv.isMirror h), alarmPushes, List.filterMap_append,
    filterMap_value?_publish, filterMap_value?_publish, List.getLast?_append,
    List.getLast?_replicate, List.getLast?_replicate]
  cases hv with
  | codes hv _ =>
    have htexts : v ∉ c.alarmTexts := fun hv' => by
      have hk := kind_of_mem_alarmTexts h hv'
      rw [kind_of_mem_alarmCodes h hv] at hk
      cases hk
    have hpos : c.alarmCodes.count v ≠ 0 := (List.count_pos_iff.mpr hv).ne'
    rw [List.count_eq_zero.mpr htexts, if_pos rfl, if_neg hpos]
    rfl
  | texts hv _ =>
    have hpos : c.alarmTexts.count v ≠ 0 := (List.count_pos_iff.mpr hv).ne'
    rw [if_neg hpos]
    rfl

end Catalog

namespace Session

variable {vs : List Variable} {s t u : Session} {m : Moment}

/-! ## Passages that report no alarm -/

/-- On the way from `s` to `t` the mirrors are told nothing, and the active alarms are the same. -/
structure Mute (s t : Session) : Prop where
  catalog : t.catalog = s.catalog
  alarms : t.alarms = s.alarms
  actions : ∃ acts, t.outbox = s.outbox ++ acts ∧ ∀ a ∈ acts, a.mirrors = false

namespace Mute

theorem refl (s : Session) : Mute s s :=
  ⟨rfl, rfl, [], (List.append_nil _).symm, List.forall_mem_nil _⟩

theorem trans (h : Mute s t) (h' : Mute t u) : Mute s u := by
  obtain ⟨acts, ho, ha⟩ := h.actions
  obtain ⟨acts', ho', ha'⟩ := h'.actions
  refine ⟨h'.catalog.trans h.catalog, h'.alarms.trans h.alarms, acts ++ acts', ?_, ?_⟩
  · rw [ho', ho, List.append_assoc]
  · exact List.forall_mem_append.mpr ⟨ha, ha'⟩

end Mute

/-- A deed tells the mirrors nothing, unless the session is opened or an alarm is reported. -/
theorem Deed.mute (h : Deed m s t) (hcat : Catalog.ofVariables vs = .ok s.catalog)
    (ho : m ≠ .opened) (hr : m.alarmMessage? = none) : Mute s t := by
  cases h with
  | shift _ hf _ =>
    have hout : t.outbox = s.outbox := congrArg Face.outbox hf
    exact ⟨congrArg Face.catalog hf, congrArg Face.alarms hf, [], by simpa using hout, by simp⟩
  | tell a ha =>
    refine ⟨rfl, rfl, [a], rfl, ?_⟩
    rw [List.forall_mem_singleton]
    cases a with
    | publish v _ _ => exact Catalog.isMirror_eq_false hcat ha
    | _ => rfl
  | answer _ _ _ _ _ _ _ _ _ => exact ⟨rfl, rfl, _, rfl, by simp [Action.mirrors]⟩
  | ask _ _ => exact ⟨rfl, rfl, _, rfl, by simp [Action.mirrors]⟩
  | follow frame inbound _ _ hm hi hc _ _ =>
    rw [hm, Moment.alarmMessage?, hi, Option.filter_some, if_pos hc] at hr
    cases hr
  | lose graceful now ho hs =>
    rw [disconnect_eq s now ho hs]
    exact ⟨rfl, rfl, _, rfl, by simp [Action.mirrors]⟩
  | finish ho =>
    rw [finishStop_eq s ho]
    exact ⟨rfl, rfl, _, rfl, by simp [Action.mirrors]⟩
  | launch hm => exact absurd hm ho
  | gain _ _ _ =>
    refine ⟨rfl, rfl, _, rfl, ?_⟩
    rw [List.forall_mem_cons, List.forall_mem_append]
    refine ⟨rfl, ?_, by simp [Action.mirrors]⟩
    split
    · simp
    · rw [List.forall_mem_map]
      exact fun v hv => Catalog.isMirror_eq_false hcat (.inr hv)
  | forget _ _ => exact ⟨rfl, rfl, [], (List.append_nil _).symm, by simp⟩
  | retry _ _ =>
    rw [reconnect_eq]
    split
    · exact ⟨rfl, rfl, _, rfl, by simp [Action.mirrors]⟩
    · exact ⟨rfl, rfl, _, rfl, by simp [Action.mirrors]⟩
  | hold _ _ _ _ => exact ⟨rfl, rfl, [], (List.append_nil _).symm, by simp⟩
  | halt _ _ ho =>
    rw [finishStop_eq _ (by exact ho)]
    exact ⟨rfl, rfl, _, rfl, by simp [Action.mirrors]⟩
  | retire _ _ _ => exact ⟨rfl, rfl, [], (List.append_nil _).symm, by simp⟩

theorem mute_advance (now : Nat) (hcat : Catalog.ofVariables vs = .ok s.catalog) (ho : m ≠ .opened)
    (hr : m.alarmMessage? = none) : Mute s (s.advance now m) :=
  keeps_advance s now (R := fun s t => Catalog.ofVariables vs = .ok s.catalog → Mute s t)
    (fun s _ => .refl s)
    (fun h h' hcat => (h hcat).trans (h' ((h hcat).catalog ▸ hcat)))
    (fun hd hcat => hd.mute hcat ho hr)
    (fun _ _ => ⟨rfl, rfl, [], (List.append_nil _).symm, List.forall_mem_nil _⟩) hcat

/-! ## Passages that report one -/

theorem exists_frame_of_alarmMessage? {inbound : Inbound} (h : m.alarmMessage? = some inbound) :
    ∃ frame, m = .frame frame ∧ Inbound.read? frame = some inbound ∧
      inbound.header.carries 5 1 = true := by
  cases m with
  | frame frame =>
    obtain ⟨hi, hc⟩ := Option.filter_eq_some_iff.mp h
    exact ⟨frame, rfl, hi, hc⟩
  | _ => cases h

/-- A message that is there to report an alarm is handled as such, whatever the session waits
for. -/
theorem advance_of_alarmMessage? {inbound : Inbound} (h : m.alarmMessage? = some inbound)
    (s : Session) (now : Nat) :
    s.advance now m = (s.count .framesReceived 1).alarmReport inbound := by
  obtain ⟨frame, rfl, hi, hc⟩ := exists_frame_of_alarmMessage? h
  have hother : ∀ stream function : UInt8, (stream, function) ≠ (5, 1) →
      inbound.header.carries stream function = false := by
    intro stream function hne
    rw [Bool.eq_false_iff]
    intro hc'
    obtain ⟨rfl, rfl⟩ := carries_unique hc' hc
    exact hne rfl
  simp only [advance, handleFrame, hi, unsolicited?, hother 1 1 (by decide),
    hother 9 9 (by decide), hc, if_true, Bool.false_eq_true, if_false]
  rfl

/-- What a well-formed report does: it is acknowledged, and if it changes the active alarms, the
host is told. -/
theorem alarmReport_eq (s : Session) {inbound : Inbound} {r : AlarmReport}
    (h : inbound.alarmReport? = some r) :
    s.alarmReport inbound =
      { s with
        alarms := (s.alarms.after? r).getD s.alarms
        outbox := s.outbox ++
          .send (s.parties.reply 5 2 inbound.header.system Body.acceptance) ::
            .clear .badAlarmReport :: ((s.alarms.after? r).map s.catalog.alarmPushes).getD [] } := by
  unfold alarmReport
  rw [h]
  simp only [send, clear, emit]
  cases s.alarms.after? r with
  | some alarms => simp [publishAlarms_eq, Catalog.alarmPushes]
  | none => simp

/-- What a malformed report does: only the alert about it is raised. -/
theorem alarmReport_of_none (s : Session) {inbound : Inbound}
    (h : inbound.alarmReport? = none) :
    s.alarmReport inbound = s.raise .badAlarmReport none := by
  rw [alarmReport, h]

/-- What the host hears of a well-formed report. -/
theorem actions_of_alarmReport? (s : Session) (now : Nat) {inbound : Inbound} {r : AlarmReport}
    (hm : m.alarmMessage? = some inbound) (hr : inbound.alarmReport? = some r) :
    Passage.actions ⟨s, now, m⟩ =
      .send (s.parties.reply 5 2 inbound.header.system Body.acceptance) ::
        .clear .badAlarmReport :: ((s.alarms.after? r).map s.catalog.alarmPushes).getD [] := by
  refine actions_advance ?_
  rw [advance_of_alarmMessage? hm s now, alarmReport_eq _ hr]
  rfl

theorem Mute.mirrored {now : Nat} (h : Mute s (s.advance now m)) :
    Passage.mirrored ⟨s, now, m⟩ = [] := by
  obtain ⟨acts, hout, ha⟩ := h.actions
  rw [Passage.mirrored, actions_advance hout, List.filter_eq_nil_iff]
  exact fun a hm => by simp [ha a hm]

/-- What a moment other than an opening does to the alarms and their mirrors. -/
theorem mirrored_advance (now : Nat) (hcat : Catalog.ofVariables vs = .ok s.catalog)
    (ho : m ≠ .opened) :
    let next? := (m.alarmMessage?.bind Inbound.alarmReport?).bind s.alarms.after?
    (s.advance now m).catalog = s.catalog ∧ (s.advance now m).alarms = next?.getD s.alarms ∧
      Passage.mirrored ⟨s, now, m⟩ = (next?.map s.catalog.mirrored).getD [] := by
  cases hm : m.alarmMessage? with
  | none =>
    have hmute : Mute s (s.advance now m) := mute_advance now hcat ho hm
    exact ⟨hmute.catalog, hmute.alarms, hmute.mirrored⟩
  | some inbound =>
    have hnext := advance_of_alarmMessage? hm s now
    rw [Option.bind_some]
    cases hr : inbound.alarmReport? with
    | none =>
      rw [alarmReport_of_none _ hr] at hnext
      have hmute : Mute s (s.advance now m) := by
        rw [hnext]
        exact ⟨rfl, rfl, [_], rfl, by simp [Action.mirrors]⟩
      exact ⟨hmute.catalog, hmute.alarms, hmute.mirrored⟩
    | some r =>
      rw [alarmReport_eq _ hr] at hnext
      rw [Option.bind_some]
      refine ⟨by rw [hnext]; rfl, by rw [hnext]; rfl, ?_⟩
      rw [Passage.mirrored, actions_of_alarmReport? s now hm hr]
      cases s.alarms.after? r <;> rfl

/-! ## Runs -/

/-- What holds of a session with a past, since it was opened last: the active alarms follow the
reports since then, and the mirrors have been told of them last. -/
structure Mirroring (c : Catalog) (past since : List Passage) (s : Session) : Prop where
  catalog : s.catalog = c
  follows : s.alarms.Follows (alarmReports since)
  shown : ∀ v shows, c.Mirrors v shows → lastValue? v (past ++ since) = some (shows s.alarms)

/-- What a passage does about the alarms, after earlier reports: the mirrors are told of them
exactly if a report changes which are active; a well-formed report is acknowledged and nothing else
is sent; and a malformed one only raises the alert about it. -/
structure Relays (c : Catalog) (earlier : List AlarmReport) (q : Passage) : Prop where
  changed : ∀ r, q.alarmReport? = some r → ¬ (r.set = true ↔ IsActive earlier r.code) →
    q.mirrored = c.mirrored q.after.alarms
  unchanged : (∀ r, q.alarmReport? = some r → (r.set = true ↔ IsActive earlier r.code)) →
    q.mirrored = [] ∧ q.after.alarms = q.before.alarms
  acknowledged : ∀ inbound r, q.moment.alarmMessage? = some inbound →
    inbound.alarmReport? = some r →
    ∃ frame, q.actions.filterMap Action.frame? = [frame] ∧ inbound.isAnsweredBy frame = true
  refused : ∀ inbound, q.moment.alarmMessage? = some inbound → inbound.alarmReport? = none →
    q.after = (q.before.count .framesReceived 1).raise .badAlarmReport none

variable {c : Catalog} {past since : List Passage}

/-- What a mirror was told last, after one more passage. -/
theorem lastValue?_advance (now : Nat) {v : Variable} {shows : ActiveAlarms → Value}
    (hcat : Catalog.ofVariables vs = .ok s.catalog) (hv : s.catalog.Mirrors v shows)
    (ho : m ≠ .opened) (ps : List Passage) (h : lastValue? v ps = some (shows s.alarms)) :
    lastValue? v (ps ++ [⟨s, now, m⟩]) = some (shows (s.advance now m).alarms) := by
  obtain ⟨-, halarms, hmirrored⟩ := mirrored_advance now hcat ho
  rw [lastValue?_concat, filterMap_value?_mirrors (hv.isMirror hcat), h, halarms]
  change ((Passage.mirrored ⟨s, now, m⟩).filterMap _).getLast?.or _ = _
  rw [hmirrored]
  cases (m.alarmMessage?.bind Inbound.alarmReport?).bind s.alarms.after? with
  | none => rfl
  | some alarms =>
    rw [Option.map_some, Option.getD_some, hv.getLast? hcat]
    rfl

theorem alarmReports_concat (ps : List Passage) (p : Passage) :
    alarmReports (ps ++ [p]) = alarmReports ps ++ p.alarmReport?.toList := by
  unfold alarmReports
  rw [List.filterMap_append]
  cases hp : p.alarmReport? <;> simp [hp]

/-- An opening tells the mirrors that no alarm is active. -/
theorem mirrored_opened (s : Session) (now : Nat) :
    Passage.mirrored ⟨s, now, .opened⟩ = s.catalog.mirrored {} := by
  have hout : (s.advance now .opened).outbox =
      s.outbox ++ (s.catalog.alarmPushes {} ++ [.connect]) := by
    simp [advance, launch_eq, Catalog.alarmPushes]
  rw [Passage.mirrored, actions_advance hout, List.filter_append]
  exact List.append_nil _

theorem Mirroring.opened (now : Nat) (hcat : Catalog.ofVariables vs = .ok s.catalog)
    (past : List Passage) :
    Mirroring s.catalog (past ++ [⟨s, now, .opened⟩]) [] (s.advance now .opened) := by
  have halarms : (s.advance now .opened).alarms = {} := by rw [advance, launch_eq]
  refine ⟨(setup_fixed s now .opened).1, halarms ▸ ActiveAlarms.follows_nil, fun v shows hv => ?_⟩
  rw [List.append_nil, lastValue?_concat, filterMap_value?_mirrors (hv.isMirror hcat), halarms]
  change ((Passage.mirrored ⟨s, now, .opened⟩).filterMap _).getLast?.or _ = _
  rw [mirrored_opened, hv.getLast? hcat]
  rfl

theorem Mirroring.advance (h : Mirroring c past since s) (now : Nat)
    (hcat : Catalog.ofVariables vs = .ok c) (ho : m ≠ .opened) :
    Mirroring c past (since ++ [⟨s, now, m⟩]) (s.advance now m) := by
  obtain ⟨rfl, hfollows, hshown⟩ := h
  obtain ⟨hc, halarms, -⟩ := mirrored_advance now hcat ho
  refine ⟨hc, ?_, fun v shows hv => ?_⟩
  · rw [halarms, alarmReports_concat]
    unfold Passage.alarmReport?
    cases m.alarmMessage?.bind Inbound.alarmReport? with
    | none => simpa using hfollows
    | some r => exact hfollows.report r
  · rw [← List.append_assoc]
    exact lastValue?_advance now hcat hv ho _ (hshown v shows hv)

/-- What a passage does about the alarms is told by the reports before it. -/
theorem Mirroring.relays (h : Mirroring c past since s) (now : Nat)
    (hcat : Catalog.ofVariables vs = .ok c) (ho : m ≠ .opened) :
    Relays c (alarmReports since) ⟨s, now, m⟩ := by
  obtain ⟨rfl, hfollows, -⟩ := h
  obtain ⟨-, halarms, hmirrored⟩ := mirrored_advance now hcat ho
  have hafter : Passage.after ⟨s, now, m⟩ = s.advance now m := rfl
  refine ⟨fun r hr hne => ?_, fun hall => ?_, fun inbound r hm hr => ?_, fun inbound hm hr => ?_⟩
  · obtain ⟨alarms, ha⟩ := hfollows.exists_after? hne
    have hnext :
        (m.alarmMessage?.bind Inbound.alarmReport?).bind s.alarms.after? = some alarms := by
      rw [show m.alarmMessage?.bind Inbound.alarmReport? = some r from hr, Option.bind_some, ha]
    rw [hmirrored, hafter, halarms, hnext]
    rfl
  · have hnext : (m.alarmMessage?.bind Inbound.alarmReport?).bind s.alarms.after? = none := by
      cases hr : m.alarmMessage?.bind Inbound.alarmReport? with
      | none => rfl
      | some r =>
        rw [Option.bind_some]
        exact hfollows.after?_eq_none (hall r hr)
    rw [hmirrored, hafter, halarms, hnext]
    exact ⟨rfl, rfl⟩
  · refine ⟨s.parties.reply 5 2 inbound.header.system Body.acceptance, ?_, ?_⟩
    · have hpushes : ∀ a ∈ ((s.alarms.after? r).map s.catalog.alarmPushes).getD [],
          a.isNews = true := by
        cases s.alarms.after? r with
        | none => exact List.forall_mem_nil _
        | some alarms => exact Catalog.isNews_alarmPushes s.catalog alarms
      rw [actions_of_alarmReport? s now hm hr]
      exact congrArg (List.cons _)
        (filterMap_frame?_of_news (List.forall_mem_cons.mpr ⟨rfl, hpushes⟩))
    · obtain ⟨_, -, -, hc⟩ := exists_frame_of_alarmMessage? hm
      exact isAnsweredBy_reply (by decide) hc s.parties Body.acceptance
  · rw [hafter, advance_of_alarmMessage? hm s now, alarmReport_of_none _ hr]

/-- A run is not opened again without an event that opens it. -/
theorem ne_opened_of_mem_history (s : Session) {run : List Occurrence}
    (h : ∀ o ∈ run, o.2.isOpening = false) : ∀ q ∈ s.history run, q.moment ≠ .opened := by
  induction run generalizing s with
  | nil => exact List.forall_mem_nil _
  | cons o rest ih =>
    obtain ⟨now, event⟩ := o
    rw [List.forall_mem_cons] at h
    unfold history
    rw [List.forall_mem_append]
    refine ⟨fun q hq hm => ?_, ih _ h.2⟩
    have hopening := (event_of_mem_moments (mem_passages hq).2).1 hm
    rw [h.1] at hopening
    cases hopening

/-- Since an opening the active alarms follow the reports, the mirrors have been told of them last,
and they are told at the opening and exactly when a report changes which alarms are active. -/
theorem alarms_mirrored (machine : String) (model : Model) (vs : List Variable) (catalog : Catalog)
    (hcat : Catalog.ofVariables vs = .ok catalog) (run : List Occurrence) :
    let s₀ := ofCatalog machine model catalog
    ∀ past p since rest, s₀.history run = past ++ p :: (since ++ rest) → p.moment = .opened →
      (∀ q ∈ since, q.moment ≠ .opened) →
      Mirroring catalog (past ++ [p]) since (s₀.reached (past ++ p :: since)) ∧
        p.mirrored = catalog.mirrored {} ∧
        ∀ earlier q later, since = earlier ++ q :: later →
          Relays catalog (alarmReports earlier) q := by
  rintro s₀ past ⟨s, now, m⟩ since rest hhist rfl hsince
  have hlinked := linked_history s₀ run
  rw [hhist, linked_append] at hlinked
  obtain ⟨hpast, hs, hlater⟩ := hlinked
  have hc : s.catalog = catalog := by
    rw [show s = s₀.reached past from hs]
    exact hpast.record_of (Q := fun _ => True) (I := fun _ t => t.catalog = catalog)
      (fun _ t now m ht _ => (setup_fixed t now m).1.trans ht) (fun _ _ => trivial) [] rfl
  subst hc
  have hopened := Mirroring.opened now hcat past
  have halong : ∀ ps : List Passage, (Passage.after ⟨s, now, .opened⟩).Linked ps →
      (∀ q ∈ ps, q.moment ≠ .opened) →
      Mirroring s.catalog (past ++ [⟨s, now, .opened⟩]) ps
        ((s.advance now .opened).reached ps) := by
    intro ps hps hno
    exact hps.record_of (fun _ _ now _ hI hm => hI.advance now hcat hm) hno [] hopened
  obtain ⟨hlinked, -⟩ := linked_append.mp hlater
  refine ⟨?_, mirrored_opened s now, ?_⟩
  · rw [reached_append, reached_cons]
    exact halong since hlinked hsince
  · rintro earlier ⟨t, now', m'⟩ later rfl
    obtain ⟨hearlier, rfl, -⟩ := linked_append.mp hlinked
    rw [List.forall_mem_append, List.forall_mem_cons] at hsince
    exact (halong earlier hearlier hsince.1).relays now' hcat hsince.2.1

/-- The variables of a machine that show the active alarms. -/
def alarmLamps : List Variable :=
  [{ name := "codes", format := .uint32, kind := .activeAlarmCodes, array := true },
    { name := "texts", format := .char, kind := .activeAlarmTexts, array := true }]

/-- Alarm 7 is set, set again with another text, and cleared; in between a report has no text. -/
def hotTalk : List Occurrence :=
  let report (number flag : UInt8) (text : Bytes) : Bytes :=
    [0, 0, 0, 23 + UInt8.ofNat text.length, 0, 0, 133, 1, 0, 0, 0, 0, 0, number,
      1, 3, 33, 1, flag, 177, 4, 0, 0, 0, 7, 65, UInt8.ofNat text.length] ++ text
  [(0, .opened), (5, .connected), (6, .data (report 1 128 [104, 111, 116])),
    (7, .data (report 2 128 [99, 111, 108, 100])), (8, .data (report 3 128 [])),
    (9, .data (report 4 0 [104, 111, 116]))]

theorem alarms_mirrored_hotTalk :
    let catalog : Catalog := { alarmCodes := alarmLamps.take 1, alarmTexts := alarmLamps.drop 1 }
    let s := ofCatalog "press" {} catalog
    Catalog.ofVariables alarmLamps = .ok catalog ∧
      ∃ p since, s.history hotTalk = p :: since ∧ p.moment = .opened ∧
        (∀ q ∈ since, q.moment ≠ .opened) ∧
        alarmReports since = [⟨true, 7, "hot"⟩, ⟨true, 7, "cold"⟩, ⟨false, 7, "hot"⟩] ∧
        Mirroring catalog [p] since (s.reached (p :: since)) ∧
        p.mirrored = catalog.mirrored {} ∧
        ∀ earlier q later, since = earlier ++ q :: later →
          Relays catalog (alarmReports earlier) q := by
  intro catalog s
  have hcat : Catalog.ofVariables alarmLamps = .ok catalog := rfl
  have hreports : alarmReports ((s.step 0 .opened).history (hotTalk.drop 1)) =
      [⟨true, 7, "hot"⟩, ⟨true, 7, "cold"⟩, ⟨false, 7, "hot"⟩] := by decide +kernel
  have hsince : ∀ q ∈ (s.step 0 .opened).history (hotTalk.drop 1), q.moment ≠ .opened :=
    ne_opened_of_mem_history _ (by decide)
  have hsplit : s.history hotTalk =
      [] ++ ⟨s, 0, .opened⟩ :: ((s.step 0 .opened).history (hotTalk.drop 1) ++ []) := by
    rw [List.append_nil]
    rfl
  have halarms := alarms_mirrored "press" {} alarmLamps catalog hcat hotTalk [] _ _ [] hsplit rfl
    hsince
  exact ⟨hcat, _, _, by simpa using hsplit, rfl, hsince, hreports, halarms⟩

/-- A variable that shows the codes of the active alarms and is to tell whether the machine is
connected. -/
def twofold : Variable where
  name := "codes"
  format := .uint32
  kind := .activeAlarmCodes
  array := true
  machineConnected := true

/-- It does not show the active alarms once there is a connection. -/
theorem lastValue?_twofold :
    let catalog : Catalog := { alarmCodes := [twofold], connected := [twofold] }
    let s := ofCatalog "press" {} catalog
    let run : List Occurrence := [(0, .opened), (5, .connected)]
    Catalog.ofVariables [twofold] = .ok catalog ∧ s.Legal run ∧ twofold ∈ catalog.alarmCodes ∧
      lastValue? twofold (s.history run) ≠ some (s.after run).alarms.codesValue := by
  intro catalog s run
  have htold : lastValue? twofold (s.history run) = some (.flag true) := rfl
  refine ⟨rfl, by decide +kernel, List.mem_singleton_self _, fun h => ?_⟩
  rw [htold] at h
  cases h

end Session

end GemLink
