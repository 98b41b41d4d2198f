import Mathlib.Data.List.Induction
import Mathlib.Data.List.Nodup
import Mathlib.Data.List.Perm.Basic
import GemLink.Catalog

/-!
How a catalog sorts the variables of a machine. Each variable has one role, which its attributes
decide (`Variable.role_eq_iff`), and the variables of a role are kept in their order. The groups
grow as the variables are added one by one, and are those that are made event by event
(`EventGroup.foldl_add`). So the one pass that enters the variables yields the first variable that
cannot be asked for, or the sub-lists of all roles (`Catalog.ofVariables_eq`); every variable whose
values are collected is in one place (`Catalog.collected_perm`), and a catalog is what the roles say
(`Catalog.ofVariables_sorts`).
-/

namespace GemLink

/-! ## Roles -/

/-- Whether the values of a variable are collected from the equipment: the host does not write it,
it does not tell whether the machine is connected, and it is a status variable, an equipment
constant or a data variable. -/
def Variable.IsCollected (v : Variable) : Prop :=
  v.access = .read ∧ v.machineConnected = false ∧
    (v.kind = .statusVariable ∨ v.kind = .equipmentConstant ∨ v.kind = .dataVariable)

/-- What each role asks of a variable. -/
def Variable.HasRole (v : Variable) : Role → Prop
  | .status => v.IsCollected ∧ v.kind = .statusVariable ∧ v.eventId = none
  | .constant => v.IsCollected ∧ v.kind = .equipmentConstant ∧ v.eventId = none
  | .reported e => v.IsCollected ∧ v.eventId = some e
  | .unreported => v.IsCollected ∧ v.kind = .dataVariable ∧ v.eventId = none
  | .unasked => ¬v.IsCollected

namespace Variable

/-- Every variable has one role. -/
theorem role_eq_iff (v : Variable) (r : Role) : v.role = r ↔ v.HasRole r := by
  cases ha : v.access <;> cases hm : v.machineConnected <;> cases hk : v.kind <;>
    cases he : v.eventId <;> cases r <;>
    simp [role, HasRole, IsCollected, isWritable, ha, hm, hk, he]

instance (v : Variable) (r : Role) : Decidable (v.HasRole r) :=
  decidable_of_iff _ (v.role_eq_iff r)

instance (v : Variable) : Decidable v.IsCollected :=
  inferInstanceAs (Decidable (_ ∧ _))

/-- Whether a variable spoils the catalog: it is asked of the equipment, a data variable only if it
belongs to a collection event, and has no identifier. -/
def IsUnidentified (v : Variable) : Prop :=
  v.IsCollected ∧ (v.kind = .dataVariable → v.eventId ≠ none) ∧ v.numericId = none

instance (v : Variable) : Decidable v.IsUnidentified :=
  inferInstanceAs (Decidable (_ ∧ _))

theorem isUnidentified_iff (v : Variable) :
    v.IsUnidentified ↔ (v.isAsked && v.numericId.isNone) = true := by
  have h : v.isAsked = true ↔ v.IsCollected ∧ (v.kind = .dataVariable → v.eventId ≠ none) := by
    unfold isAsked
    split
    · next hr =>
      obtain ⟨hc, hk, -⟩ := (v.role_eq_iff _).mp hr
      simp [hc, hk]
    · next hr =>
      obtain ⟨hc, hk, -⟩ := (v.role_eq_iff _).mp hr
      simp [hc, hk]
    · next hr =>
      obtain ⟨hc, he⟩ := (v.role_eq_iff _).mp hr
      simp [hc, he]
    · next hr =>
      obtain ⟨hc, hk, he⟩ := (v.role_eq_iff _).mp hr
      simp [hk, he]
    · next hr =>
      have hc : ¬v.IsCollected := (v.role_eq_iff _).mp hr
      simp [hc]
  rw [Bool.and_eq_true, h, Option.isNone_iff_eq_none, IsUnidentified, and_assoc]

end Variable

/-! ## Lists by a key -/

section
variable {α κ : Type} [DecidableEq κ] (key : α → κ) (l : List α)

/-- What has one of several keys is found once under one of them. -/
theorem flatMap_filter_perm {keys : List κ} (h : keys.Nodup) :
    (keys.flatMap fun k => l.filter fun x => key x == k).Perm
      (l.filter fun x => key x ∈ keys) := by
  induction keys with
  | nil => simp
  | cons k keys ih =>
    obtain ⟨hk, h⟩ := List.nodup_cons.mp h
    have hfront : (l.filter fun x => key x ∈ k :: keys).filter (fun x => key x == k) =
        l.filter fun x => key x == k := by
      rw [List.filter_filter]
      refine List.filter_congr fun x _ => ?_
      by_cases hx : key x = k <;> simp [hx]
    have hrest : (l.filter fun x => key x ∈ k :: keys).filter (fun x => !(key x == k)) =
        l.filter fun x => key x ∈ keys := by
      rw [List.filter_filter]
      refine List.filter_congr fun x _ => ?_
      by_cases hx : key x = k <;> simp [hx, hk]
    have hsplit := List.filter_append_perm (fun x => key x == k)
      (l.filter fun x => key x ∈ k :: keys)
    rw [hfront, hrest] at hsplit
    rw [List.flatMap_cons]
    exact ((ih h).append_left _).trans hsplit

end

section
variable {α : Type} [DecidableEq α] (l : List α) (x : α)

theorem eraseDups_concat_of_mem (h : x ∈ l) : (l ++ [x]).eraseDups = l.eraseDups := by
  simp [List.eraseDups_append, List.removeAll, h]

theorem eraseDups_concat_of_not_mem (h : x ∉ l) :
    (l ++ [x]).eraseDups = l.eraseDups ++ [x] := by
  simp [List.eraseDups_append, List.removeAll, h, List.eraseDups_cons]

theorem nodup_eraseDups : l.eraseDups.Nodup := by
  induction l using List.reverseRecOn with
  | nil => simp
  | append_singleton l x ih =>
    by_cases h : x ∈ l
    · rwa [eraseDups_concat_of_mem l x h]
    · rw [eraseDups_concat_of_not_mem l x h, ← List.concat_eq_append]
      exact List.Nodup.concat (fun hm => h (List.mem_eraseDups.mp hm)) ih

end

/-! ## Groups -/

/-- The collection event that reports a variable, if one does. -/
def Variable.event? (v : Variable) : Option UInt32 :=
  if v.IsCollected then v.eventId else none

theorem Variable.event?_eq_some_iff {v : Variable} {e : UInt32} :
    v.event? = some e ↔ v.HasRole (.reported e) := by
  unfold event? HasRole
  split
  · next h => simp [h]
  · next h => simp [h]

namespace EventGroup

/-- The collection events that report variables, in the order in which they are met. -/
def events (vs : List Variable) : List UInt32 :=
  (vs.filterMap Variable.event?).eraseDups

/-- The group of a collection event: the variables that it reports, in their order. -/
def ofEvent (vs : List Variable) (e : UInt32) : EventGroup :=
  ⟨e, vs.filter fun v => v.HasRole (.reported e)⟩

variable {vs : List Variable} {v : Variable} {e : UInt32}

theorem mem_events : e ∈ events vs ↔ ∃ v ∈ vs, v.HasRole (.reported e) := by
  simp only [events, List.mem_eraseDups, List.mem_filterMap, Variable.event?_eq_some_iff]

theorem nodup_events (vs : List Variable) : (events vs).Nodup :=
  nodup_eraseDups _

theorem ofEvent_concat_of_not (h : ¬v.HasRole (.reported e)) :
    ofEvent (vs ++ [v]) e = ofEvent vs e := by
  simp [ofEvent, h]

/-- A variable that no event reports joins no group. -/
theorem add_of_not (groups : List EventGroup) (h : ∀ e, ¬v.HasRole (.reported e)) :
    add groups v = groups := by
  unfold add
  split
  · next e hr => exact absurd ((v.role_eq_iff _).mp hr) (h e)
  · rfl

/-- A variable joins the group of its event, which is a new one at the end if the event has not been
met. -/
theorem add_ofEvent (h : v.HasRole (.reported e)) : add ((events vs).map (ofEvent vs)) v =
    (events (vs ++ [v])).map (ofEvent (vs ++ [v])) := by
  have hevents : events (vs ++ [v]) = (vs.filterMap Variable.event? ++ [e]).eraseDups := by
    simp [events, Variable.event?_eq_some_iff.mpr h]
  have hothers : ∀ other, other ≠ e → ofEvent (vs ++ [v]) other = ofEvent vs other := by
    intro other hne
    refine ofEvent_concat_of_not fun ho => hne ?_
    exact Option.some.inj
      ((Variable.event?_eq_some_iff.mpr ho).symm.trans (Variable.event?_eq_some_iff.mpr h))
  have hany : ((events vs).map (ofEvent vs)).any (fun group => group.eventId == e) = true ↔
      e ∈ events vs := by
    simp [ofEvent]
  unfold add
  rw [(v.role_eq_iff _).mpr h]
  dsimp only
  split
  · next hm =>
    rw [hany] at hm
    rw [hevents, eraseDups_concat_of_mem _ _ (List.mem_eraseDups.mp hm), List.map_map]
    refine List.map_congr_left fun other _ => ?_
    by_cases he : other = e
    · subst he
      simp [ofEvent, h]
    · rw [hothers other he]
      simp [ofEvent, he]
  · next hm =>
    rw [hany] at hm
    have hempty : vs.filter (fun v => v.HasRole (.reported e)) = [] := by
      rw [List.filter_eq_nil_iff]
      intro w hw hr
      exact hm (mem_events.mpr ⟨w, hw, of_decide_eq_true hr⟩)
    rw [hevents, eraseDups_concat_of_not_mem _ _ fun hme => hm (List.mem_eraseDups.mpr hme),
      List.map_append, List.map_singleton, ofEvent, List.filter_append, hempty]
    refine congrArg₂ (· ++ ·) ?_ (by simp [h])
    refine List.map_congr_left fun other ho => (hothers other ?_).symm
    rintro rfl
    exact hm ho

/-- Adding the variables one by one makes one group for each event, in the order in which the events
are met. -/
theorem foldl_add (vs : List Variable) : vs.foldl add [] = (events vs).map (ofEvent vs) := by
  induction vs using List.reverseRecOn with
  | nil => rfl
  | append_singleton vs v ih =>
    rw [List.foldl_append, ih, List.foldl_cons, List.foldl_nil]
    cases he : v.event? with
    | some e => exact add_ofEvent (Variable.event?_eq_some_iff.mp he)
    | none =>
      have hnot : ∀ e, ¬v.HasRole (.reported e) := by
        intro e h
        rw [← Variable.event?_eq_some_iff, he] at h
        cases h
      have hevents : events (vs ++ [v]) = events vs := by
        simp [events, he]
      rw [add_of_not _ hnot, hevents]
      exact List.map_congr_left fun e _ => (ofEvent_concat_of_not (hnot e)).symm

end EventGroup

/-! ## Writable variables -/

theorem Keyed.get?_insert_of_ne {α : Type} (m : Keyed α) {key other : String} (h : other ≠ key)
    (value : α) : (m.insert key value).get? other = m.get? other := by
  have hne : (other == key) = false := by simpa using h
  unfold insert get?
  split
  · clear * - h hne
    induction m with
    | nil => rfl
    | cons entry rest ih =>
      obtain ⟨name, old⟩ := entry
      rw [List.map_cons, List.lookup_cons, List.lookup_cons, ih]
      by_cases hk : name = key
      · subst hk
        simp [hne]
      · simp [hk]
  · simp [List.lookup_append, List.lookup_cons, hne]

/-- Of several writable variables of one name the last one is found. -/
theorem get?_foldl_insert (vs : List Variable) (name : String) :
    Keyed.get? (vs.foldl (fun m v => if v.isWritable then Keyed.insert m v.name v else m) []) name =
      (vs.filter fun v => v.access = .write ∧ v.name = name).getLast? := by
  induction vs using List.reverseRecOn with
  | nil => rfl
  | append_singleton vs v ih =>
    rw [List.foldl_append, List.foldl_cons, List.foldl_nil, List.filter_append]
    by_cases hw : v.access = .write
    · have hw' : v.isWritable = true := by simp [Variable.isWritable, hw]
      rw [if_pos hw']
      by_cases hn : v.name = name
      · subst hn
        rw [Keyed.get?_insert_self]
        simp [hw]
      · rw [Keyed.get?_insert_of_ne _ (Ne.symm hn), ih]
        simp [hn]
    · have hw' : ¬v.isWritable = true := by simpa [Variable.isWritable] using hw
      rw [if_neg hw', ih]
      simp [hw]

/-! ## The catalog -/

namespace Catalog

/-- What it is for a catalog to sort variables. -/
structure Sorts (vs : List Variable) (c : Catalog) : Prop where
  /-- The status variables that no event reports are polled, in their order. -/
  status : c.status = vs.filter fun v =>
    v.IsCollected ∧ v.kind = .statusVariable ∧ v.eventId = none
  /-- So are the equipment constants that no event reports. -/
  constants : c.constants = vs.filter fun v =>
    v.IsCollected ∧ v.kind = .equipmentConstant ∧ v.eventId = none
  /-- The data variables that no event reports are left over. -/
  unreported : c.unreported = vs.filter fun v =>
    v.IsCollected ∧ v.kind = .dataVariable ∧ v.eventId = none
  /-- A group is not empty and holds the variables of its event, in their order. -/
  members : ∀ group ∈ c.groups, group.members ≠ [] ∧
    group.members = vs.filter fun v => v.IsCollected ∧ v.eventId = some group.eventId
  /-- The groups stand in the order in which their events are met. -/
  eventIds : c.groups.map EventGroup.eventId =
    ((vs.filter fun v => v.IsCollected).filterMap Variable.eventId).eraseDups
  /-- No event has two groups. -/
  distinct : (c.groups.map EventGroup.eventId).Nodup
  /-- Every variable whose values are collected is in one place, and no other variable is. -/
  once : (c.status ++ c.constants ++ c.groups.flatMap EventGroup.members ++ c.unreported).Perm
    (vs.filter fun v => v.IsCollected)
  /-- The group of an event is found by the event. -/
  group? : ∀ eventId group, c.group? eventId = some group ↔
    group ∈ c.groups ∧ group.eventId = eventId
  /-- The variables that tell whether the machine is connected stand in their order. -/
  connected : c.connected = vs.filter Variable.machineConnected
  /-- So do those that show the codes of the active alarms. -/
  alarmCodes : c.alarmCodes = vs.filter fun v => v.kind = .activeAlarmCodes
  /-- So do those that show their texts. -/
  alarmTexts : c.alarmTexts = vs.filter fun v => v.kind = .activeAlarmTexts
  /-- Under a name the last writable variable of that name is found. -/
  writable : ∀ name, c.writable.get? name =
    (vs.filter fun v => v.access = .write ∧ v.name = name).getLast?

variable {vs : List Variable} {c : Catalog}

/-- The catalog of a row of variables, each part by itself. -/
def parts (vs : List Variable) : Catalog where
  status := vs.filter fun v => v.role == .status
  constants := vs.filter fun v => v.role == .constant
  groups := vs.foldl EventGroup.add []
  writable := vs.foldl (fun m v => if v.isWritable then m.insert v.name v else m) []
  alarmCodes := vs.filter fun v => v.kind == .activeAlarmCodes
  alarmTexts := vs.filter fun v => v.kind == .activeAlarmTexts
  connected := vs.filter Variable.machineConnected
  unreported := vs.filter fun v => v.role == .unreported

/-- What is noted of one more variable. -/
theorem note_parts (vs : List Variable) (v : Variable) : (parts vs).note v =
    { parts vs with
      writable := (parts (vs ++ [v])).writable
      alarmCodes := (parts (vs ++ [v])).alarmCodes
      alarmTexts := (parts (vs ++ [v])).alarmTexts
      connected := (parts (vs ++ [v])).connected } := by
  unfold note
  cases hk : v.kind <;> cases hw : v.isWritable <;> cases hm : v.machineConnected <;>
    simp [parts, hk, hw, hm]

/-- One more variable is added to the parts where it belongs. -/
theorem place_note_parts (vs : List Variable) (v : Variable) :
    ((parts vs).note v).place v = parts (vs ++ [v]) := by
  rw [note_parts]
  unfold place
  cases hr : v.role <;> simp [parts, EventGroup.add, hr]

/-- Entering the variables one after the other makes the parts, unless one lacks an identifier. -/
theorem ofVariables_eq (vs : List Variable) : ofVariables vs =
    (vs.find? fun v => v.isAsked && v.numericId.isNone).elim (.ok (parts vs))
      fun v => .error (.missingNumericId v.name) := by
  unfold ofVariables
  induction vs using List.reverseRecOn with
  | nil => rfl
  | append_singleton vs v ih =>
    rw [List.foldlM_append, ih, List.find?_append]
    cases vs.find? fun v => v.isAsked && v.numericId.isNone with
    | some w => rfl
    | none =>
      change (parts vs).enter v >>= pure = _
      rw [bind_pure, enter, place_note_parts, Option.none_or, List.find?_singleton]
      split <;> rfl

/-- A row of variables has a catalog if none lacks an identifier, and it is made of the parts. -/
theorem ofVariables_eq_ok_iff : ofVariables vs = .ok c ↔
    (∀ v ∈ vs, ¬v.IsUnidentified) ∧ c = parts vs := by
  have hnone : (vs.find? fun v => v.isAsked && v.numericId.isNone) = none ↔
      ∀ v ∈ vs, ¬v.IsUnidentified := by
    simp only [List.find?_eq_none, Variable.isUnidentified_iff]
  rw [ofVariables_eq, ← hnone]
  cases vs.find? fun v => v.isAsked && v.numericId.isNone with
  | none => simp [eq_comm]
  | some w => simp

/-- The first variable that spoils the catalog is named. -/
theorem ofVariables_eq_error_iff {e : LinkError} : ofVariables vs = .error e ↔
    ∃ before v after, vs = before ++ v :: after ∧ (∀ w ∈ before, ¬w.IsUnidentified) ∧
      v.IsUnidentified ∧ e = .missingNumericId v.name := by
  have hfirst : ∀ v, (vs.find? fun v => v.isAsked && v.numericId.isNone) = some v ↔
      ∃ before after, vs = before ++ v :: after ∧ (∀ w ∈ before, ¬w.IsUnidentified) ∧
        v.IsUnidentified := by
    intro v
    simp only [List.find?_eq_some_iff_append, ← Variable.isUnidentified_iff,
      Bool.not_eq_true', ← Bool.not_eq_true]
    tauto
  rw [ofVariables_eq]
  constructor
  · intro h
    cases hv : vs.find? fun v => v.isAsked && v.numericId.isNone with
    | none =>
      rw [hv] at h
      cases h
    | some v =>
      obtain ⟨before, after, hs, hb, hu⟩ := (hfirst v).mp hv
      rw [hv] at h
      exact ⟨before, v, after, hs, hb, hu, by cases h; rfl⟩
  · rintro ⟨before, v, after, hs, hb, hu, rfl⟩
    rw [(hfirst v).mpr ⟨before, after, hs, hb, hu⟩]
    rfl

/-- The roles in which variables are collected. -/
def collectedRoles (vs : List Variable) : List Role :=
  [.status, .constant] ++ (EventGroup.events vs).map .reported ++ [.unreported]

theorem nodup_collectedRoles (vs : List Variable) : (collectedRoles vs).Nodup := by
  have hinj : Function.Injective Role.reported := fun _ _ h => Role.reported.inj h
  have hevents := (EventGroup.nodup_events vs).map hinj
  simpa [collectedRoles, List.nodup_append] using hevents

theorem mem_collectedRoles {v : Variable} (hv : v ∈ vs) :
    v.role ∈ collectedRoles vs ↔ v.IsCollected := by
  cases hr : v.role with
  | reported e =>
    have h := (v.role_eq_iff _).mp hr
    have hm : e ∈ EventGroup.events vs := EventGroup.mem_events.mpr ⟨v, hv, h⟩
    simp [collectedRoles, hm, h.1]
  | unasked =>
    have h : ¬v.IsCollected := (v.role_eq_iff _).mp hr
    simp [collectedRoles, h]
  | _ => simp [collectedRoles, ((v.role_eq_iff _).mp hr).1]

theorem filter_role (vs : List Variable) {r : Role} {p : Variable → Prop} [DecidablePred p]
    (h : ∀ v, v.HasRole r ↔ p v) :
    vs.filter (fun v => v.role == r) = vs.filter fun v => p v := by
  refine List.filter_congr fun v _ => ?_
  rw [Bool.eq_iff_iff, beq_iff_eq, decide_eq_true_iff, v.role_eq_iff, h]

/-- The members of a group are the variables with the role of being reported with its event. -/
theorem members_ofEvent (vs : List Variable) (e : UInt32) :
    (EventGroup.ofEvent vs e).members = vs.filter fun v => v.role == .reported e :=
  (filter_role vs fun _ => Iff.rfl).symm

/-- Every variable that is collected is in one place. -/
theorem collected_perm (vs : List Variable) :
    (vs.filter (fun v => v.role == .status) ++ vs.filter (fun v => v.role == .constant) ++
      ((EventGroup.events vs).map (EventGroup.ofEvent vs)).flatMap EventGroup.members ++
      vs.filter (fun v => v.role == .unreported)).Perm (vs.filter fun v => v.IsCollected) := by
  have hplaces := flatMap_filter_perm Variable.role vs (nodup_collectedRoles vs)
  have hall : (vs.filter fun v => v.role ∈ collectedRoles vs) = vs.filter fun v => v.IsCollected :=
    List.filter_congr fun v hv => by rw [decide_eq_decide, mem_collectedRoles hv]
  rw [hall, collectedRoles] at hplaces
  simpa [List.flatMap_map, members_ofEvent] using hplaces

/-! ## Groups of a catalog -/

theorem groups_of_ofVariables (h : ofVariables vs = .ok c) :
    c.groups = (EventGroup.events vs).map (EventGroup.ofEvent vs) := by
  rw [(ofVariables_eq_ok_iff.mp h).2]
  exact EventGroup.foldl_add vs

theorem eventIds_of_ofVariables (h : ofVariables vs = .ok c) :
    c.groups.map EventGroup.eventId = EventGroup.events vs := by
  rw [groups_of_ofVariables h, List.map_map]
  exact List.map_id _

variable {group : EventGroup}

theorem eq_of_eventId_eq (h : ofVariables vs = .ok c) {other : EventGroup} (hg : group ∈ c.groups)
    (ho : other ∈ c.groups) (he : other.eventId = group.eventId) : other = group := by
  rw [groups_of_ofVariables h, List.mem_map] at hg ho
  obtain ⟨e, -, rfl⟩ := hg
  obtain ⟨e', -, rfl⟩ := ho
  exact congrArg (EventGroup.ofEvent vs) he

/-- An event has one group. -/
theorem group?_of_mem (h : ofVariables vs = .ok c) (hg : group ∈ c.groups) :
    c.group? group.eventId = some group := by
  have hsome : (c.group? group.eventId).isSome = true :=
    List.find?_isSome.mpr ⟨group, hg, beq_self_eq_true _⟩
  obtain ⟨found, hf⟩ := Option.isSome_iff_exists.mp hsome
  have hsame : (found.eventId == group.eventId) = true :=
    List.find?_some (p := fun g : EventGroup => g.eventId == group.eventId) hf
  rw [hf, eq_of_eventId_eq h hg (List.mem_of_find?_eq_some hf) (beq_iff_eq.mp hsame)]

theorem mem_group_iff (h : ofVariables vs = .ok c) (hg : group ∈ c.groups) {v : Variable} :
    v ∈ group.members ↔ v ∈ vs ∧ v.role = .reported group.eventId := by
  rw [groups_of_ofVariables h] at hg
  obtain ⟨e, -, rfl⟩ := List.mem_map.mp hg
  rw [members_ofEvent, List.mem_filter, beq_iff_eq]
  rfl

/-! ## All together -/

theorem sorts_of_ofVariables (h : ofVariables vs = .ok c) : c.Sorts vs := by
  have hgroups := groups_of_ofVariables h
  have hids := eventIds_of_ofVariables h
  have hfound : ∀ group ∈ c.groups, c.group? group.eventId = some group :=
    fun group hg => group?_of_mem h hg
  obtain ⟨-, rfl⟩ := ofVariables_eq_ok_iff.mp h
  constructor
  case status => exact filter_role vs fun _ => Iff.rfl
  case constants => exact filter_role vs fun _ => Iff.rfl
  case unreported => exact filter_role vs fun _ => Iff.rfl
  case members =>
    intro group hg
    rw [hgroups] at hg
    obtain ⟨e, he, rfl⟩ := List.mem_map.mp hg
    obtain ⟨v, hv, hr⟩ := EventGroup.mem_events.mp he
    refine ⟨List.ne_nil_of_mem (a := v) ?_, ?_⟩
    · exact List.mem_filter.mpr ⟨hv, decide_eq_true hr⟩
    · rw [members_ofEvent]
      exact filter_role vs fun _ => Iff.rfl
  case eventIds =>
    rw [hids, EventGroup.events, List.filterMap_filter]
    simp only [decide_eq_true_eq]
    rfl
  case distinct =>
    rw [hids]
    exact EventGroup.nodup_events vs
  case once =>
    have hperm := collected_perm vs
    rwa [← hgroups] at hperm
  case group? =>
    intro e group
    constructor
    · intro hf
      exact ⟨List.mem_of_find?_eq_some hf, beq_iff_eq.mp
        (List.find?_some (p := fun g : EventGroup => g.eventId == e) hf)⟩
    · rintro ⟨hg, rfl⟩
      exact hfound group hg
  case connected => rfl
  case alarmCodes => rfl
  case alarmTexts => rfl
  case writable => exact get?_foldl_insert vs

/-- There is a catalog of variables unless one of them spoils it, and then the first that does is
named. The catalog sorts the variables. -/
theorem ofVariables_sorts (vs : List Variable) :
    (∀ e, ofVariables vs = .error e ↔
      ∃ before v after, vs = before ++ v :: after ∧ (∀ w ∈ before, ¬w.IsUnidentified) ∧
        v.IsUnidentified ∧ e = .missingNumericId v.name) ∧
      ((∀ v ∈ vs, ¬v.IsUnidentified) → ∃ c, ofVariables vs = .ok c ∧ c.Sorts vs) := by
  refine ⟨fun e => ofVariables_eq_error_iff, fun h => ?_⟩
  have hc := ofVariables_eq_ok_iff.mpr ⟨h, rfl⟩
  exact ⟨_, hc, sorts_of_ofVariables hc⟩

/-- The variables of a press. Two events are met in turn, one variable is listed twice, one data
variable belongs to no event, and one name is given to two writable variables. -/
def pressVariables : List Variable :=
  [{ name := "temp", format := .int16, kind := .statusVariable, numericId := some 1 },
   { name := "lot", format := .char, kind := .dataVariable, numericId := some 3,
     eventId := some 456 },
   { name := "mode", format := .uint8, kind := .equipmentConstant, numericId := some 2 },
   { name := "door", format := .bool, kind := .dataVariable, numericId := some 5,
     eventId := some 200 },
   { name := "speed", format := .int16, kind := .equipmentConstant, numericId := some 8,
     access := .write },
   { name := "count", format := .uint16, kind := .statusVariable, numericId := some 4,
     eventId := some 456 },
   { name := "orphan", format := .int16, kind := .dataVariable },
   { name := "speed", format := .int32, kind := .equipmentConstant, numericId := some 9,
     access := .write },
   { name := "codes", format := .uint32, kind := .activeAlarmCodes, array := true },
   { name := "online", format := .bool, kind := .statusVariable, machineConnected := true },
   { name := "temp", format := .int16, kind := .statusVariable, numericId := some 1 }]

/-- A status variable without an identifier. -/
def flow : Variable where
  name := "flow"
  format := .float
  kind := .statusVariable

theorem ofVariables_sorts_pressVariables :
    (∀ v ∈ pressVariables, ¬v.IsUnidentified) ∧
      (∃ c, ofVariables pressVariables = .ok c ∧ c.Sorts pressVariables ∧
        c.groups.map (fun group => (group.eventId, group.members.map Variable.name)) =
          [(456, ["lot", "count"]), (200, ["door"])]) ∧
      ofVariables (pressVariables ++ flow :: [{ flow with name := "level" }]) =
        .error (.missingNumericId "flow") := by
  have h : ∀ v ∈ pressVariables, ¬v.IsUnidentified := by decide
  obtain ⟨c, hc, hsorts⟩ := (ofVariables_sorts pressVariables).2 h
  refine ⟨h, ⟨c, hc, hsorts, ?_⟩, ?_⟩
  · cases hc
    rfl
  · exact ((ofVariables_sorts _).1 _).mpr ⟨pressVariables, flow, _, rfl, h, by decide, rfl⟩

end Catalog

end GemLink
