import GemLink.Session.Alarms
import Mathlib.Data.List.Nodup

/-!
Which alarms are active after a row of reports. The reports are all there is to say: an alarm is
active if the last report about it sets it (`IsActive`), and a report makes its alarm active if it
sets it and it was not (`Activates`). The list that is kept follows the reports
(`ActiveAlarms.Follows`): it has each active alarm once, in the order of the reports that last made
the alarms active, with the texts of these reports. Each report keeps it so
(`ActiveAlarms.Follows.report`).
-/

namespace GemLink

/-- The last of a row of reports that is about an alarm. -/
def lastReport? (reports : List AlarmReport) (code : UInt32) : Option AlarmReport :=
  (reports.filter fun r => r.code == code).getLast?

/-- Whether an alarm is active after a row of reports. -/
def IsActive (reports : List AlarmReport) (code : UInt32) : Prop :=
  ∃ r, lastReport? reports code = some r ∧ r.set = true

/-- Whether the report at a place of a row makes its alarm active. -/
structure Activates (reports : List AlarmReport) (place : Nat) (r : AlarmReport) : Prop where
  report : reports[place]? = some r
  sets : r.set = true
  inactive : ¬ IsActive (reports.take place) r.code

/-- Whether no later report makes the same alarm active again. -/
structure ActivatesLast (reports : List AlarmReport) (place : Nat) (r : AlarmReport) : Prop
    extends Activates reports place r where
  last : ∀ later r', place < later → Activates reports later r' → r'.code ≠ r.code

variable {reports : List AlarmReport} {r r' : AlarmReport} {place : Nat} {code : UInt32}

theorem not_isActive_nil (code : UInt32) : ¬ IsActive [] code := by
  rintro ⟨r, h, -⟩
  cases h

theorem isActive_concat (reports : List AlarmReport) (r : AlarmReport) (code : UInt32) :
    IsActive (reports ++ [r]) code ↔
      if r.code = code then r.set = true else IsActive reports code := by
  unfold IsActive lastReport?
  rw [List.filter_append]
  by_cases h : r.code = code
  · simp [h]
  · simp [h]

theorem activates_concat_of_lt (h : place < reports.length) :
    Activates (reports ++ [r]) place r' ↔ Activates reports place r' := by
  have hget : (reports ++ [r])[place]? = reports[place]? := List.getElem?_append_left h
  have htake : (reports ++ [r]).take place = reports.take place :=
    List.take_append_of_le_length (Nat.le_of_lt h)
  constructor
  · rintro ⟨hr, hs, hi⟩
    exact ⟨hget ▸ hr, hs, htake ▸ hi⟩
  · rintro ⟨hr, hs, hi⟩
    exact ⟨hget.trans hr, hs, htake.symm ▸ hi⟩

/-- A report that comes last makes its alarm active if it sets it and it was not. -/
theorem activates_concat_self :
    Activates (reports ++ [r]) reports.length r' ↔
      r' = r ∧ r.set = true ∧ ¬ IsActive reports r.code := by
  have hget : (reports ++ [r])[reports.length]? = some r := by simp
  have htake : (reports ++ [r]).take reports.length = reports := List.take_left
  constructor
  · rintro ⟨hr, hs, hi⟩
    rw [hget, Option.some.injEq] at hr
    subst hr
    exact ⟨rfl, hs, htake ▸ hi⟩
  · rintro ⟨rfl, hs, hi⟩
    exact ⟨hget, hs, htake.symm ▸ hi⟩

theorem Activates.lt_length (h : Activates reports place r) : place < reports.length :=
  (List.getElem?_eq_some_iff.mp h.report).1

/-- An activation stays the last one unless the next report makes the same alarm active. -/
theorem ActivatesLast.concat (h : ActivatesLast reports place r')
    (hr : r.set = true → ¬ IsActive reports r.code → r.code ≠ r'.code) :
    ActivatesLast (reports ++ [r]) place r' := by
  refine ⟨(activates_concat_of_lt h.lt_length).mpr h.toActivates, fun later r'' hlt ha => ?_⟩
  have hle : later ≤ reports.length := by
    have := ha.lt_length
    rw [List.length_append, List.length_singleton] at this
    omega
  rcases Nat.lt_or_eq_of_le hle with hlater | rfl
  · exact h.last later r'' hlt ((activates_concat_of_lt hlater).mp ha)
  · obtain ⟨rfl, hs, hi⟩ := activates_concat_self.mp ha
    exact hr hs hi

namespace ActiveAlarms

/-- The alarms that are active after a row of reports: each once, in the order in which the reports
have last made them active, and with the text of that report. -/
structure Follows (a : ActiveAlarms) (reports : List AlarmReport) : Prop where
  nodup : a.codes.Nodup
  active : ∀ code, code ∈ a.codes ↔ IsActive reports code
  ordered : ∃ row : List (Nat × AlarmReport),
    a.entries = row.map (fun x => (x.2.code, x.2.text)) ∧
      row.Pairwise (fun x y => x.1 < y.1) ∧ ∀ x ∈ row, ActivatesLast reports x.1 x.2

variable {a : ActiveAlarms}

theorem follows_nil : Follows {} [] where
  nodup := List.nodup_nil
  active code := ⟨fun h => (List.not_mem_nil h).elim, fun h => (not_isActive_nil code h).elim⟩
  ordered := ⟨[], rfl, .nil, by simp⟩

theorem any_eq_true_iff : (a.entries.any fun entry => entry.1 == code) = true ↔ code ∈ a.codes := by
  rw [List.any_eq_true, codes, List.mem_map]
  simp

/-- What a report changes: it makes an alarm active that was not, or inactive that was. -/
theorem after?_cases (a : ActiveAlarms) (r : AlarmReport) :
    r.set = true ∧ r.code ∉ a.codes ∧ a.after? r = some ⟨a.entries ++ [(r.code, r.text)]⟩ ∨
      r.set = false ∧ r.code ∈ a.codes ∧
        a.after? r = some ⟨a.entries.eraseP fun entry => entry.1 == r.code⟩ ∨
      (r.set = true ↔ r.code ∈ a.codes) ∧ a.after? r = none := by
  unfold after?
  by_cases hm : r.code ∈ a.codes
  · have hany := any_eq_true_iff.mpr hm
    cases hs : r.set <;> simp [hany, hm]
  · have hany : (a.entries.any fun entry => entry.1 == r.code) = false := by
      rw [Bool.eq_false_iff]
      exact fun h => hm (any_eq_true_iff.mp h)
    cases hs : r.set <;> simp [hany, hm]

theorem codes_eraseP (a : ActiveAlarms) (code : UInt32) :
    codes ⟨a.entries.eraseP fun entry => entry.1 == code⟩ = a.codes.erase code := by
  have hp : (fun entry : UInt32 × String => entry.1 == code) = (· == code) ∘ Prod.fst := rfl
  rw [codes, codes, List.erase_eq_eraseP', hp, ← List.eraseP_map]

theorem codes_concat (a : ActiveAlarms) (entry : UInt32 × String) :
    codes ⟨a.entries ++ [entry]⟩ = a.codes ++ [entry.1] :=
  List.map_append

/-- A report is taken note of if it sets an alarm that is not active, or clears one that is. -/
theorem Follows.exists_after? (h : a.Follows reports)
    (hr : ¬ (r.set = true ↔ IsActive reports r.code)) : ∃ next, a.after? r = some next := by
  rcases a.after?_cases r with ⟨-, -, ha⟩ | ⟨-, -, ha⟩ | ⟨hs, -⟩
  · exact ⟨_, ha⟩
  · exact ⟨_, ha⟩
  · exact absurd (hs.trans (h.active _)) hr

theorem Follows.after?_eq_none (h : a.Follows reports)
    (hr : r.set = true ↔ IsActive reports r.code) : a.after? r = none := by
  rcases a.after?_cases r with ⟨hs, hm, -⟩ | ⟨hs, hm, -⟩ | ⟨-, ha⟩
  · exact absurd ((h.active _).mpr (hr.mp hs)) hm
  · rw [hr.mpr ((h.active _).mp hm)] at hs
    cases hs
  · exact ha

/-- Each report keeps the alarms following the reports. -/
theorem Follows.report (h : a.Follows reports) (r : AlarmReport) :
    ((a.after? r).getD a).Follows (reports ++ [r]) := by
  obtain ⟨row, hrow, hsorted, hlast⟩ := h.ordered
  have hcode : ∀ x ∈ row, x.2.code ∈ a.codes := by
    intro x hx
    rw [codes, hrow]
    simp only [List.map_map, List.mem_map]
    exact ⟨x, hx, rfl⟩
  rcases a.after?_cases r with ⟨hs, hm, ha⟩ | ⟨hs, hm, ha⟩ | ⟨hs, ha⟩
  · rw [ha, Option.getD_some]
    have hinactive : ¬ IsActive reports r.code := fun hi => hm ((h.active _).mpr hi)
    refine ⟨?_, fun code => ?_, row ++ [(reports.length, r)], ?_, ?_, ?_⟩
    · rw [codes_concat, List.nodup_append]
      refine ⟨h.nodup, List.nodup_singleton _, fun c hc d hd => ?_⟩
      rw [List.mem_singleton.mp hd]
      rintro rfl
      exact hm hc
    · rw [codes_concat, List.mem_append, List.mem_singleton, isActive_concat, h.active]
      by_cases hc : r.code = code
      · simp [hc, hs]
      · simp [hc, Ne.symm hc]
    · rw [hrow, List.map_append]
      rfl
    · rw [List.pairwise_append]
      refine ⟨hsorted, List.pairwise_singleton _ _, fun x hx y hy => ?_⟩
      rw [List.mem_singleton.mp hy]
      exact (hlast x hx).lt_length
    · rw [List.forall_mem_append, List.forall_mem_singleton]
      refine ⟨fun x hx => (hlast x hx).concat fun _ _ he => hm (he ▸ hcode x hx), ?_⟩
      refine ⟨activates_concat_self.mpr ⟨rfl, hs, hinactive⟩, fun later r' hlt hlater => ?_⟩
      have hlen := hlater.lt_length
      rw [List.length_append, List.length_singleton] at hlen
      omega
  · rw [ha, Option.getD_some]
    have hp : (fun x : Nat × AlarmReport => x.2.code == r.code) =
        (fun entry : UInt32 × String => entry.1 == r.code) ∘ fun x => (x.2.code, x.2.text) := rfl
    refine ⟨?_, fun code => ?_, row.eraseP fun x => x.2.code == r.code, ?_, ?_, fun x hx => ?_⟩
    · rw [codes_eraseP]
      exact h.nodup.erase _
    · rw [codes_eraseP, h.nodup.mem_erase_iff, isActive_concat, h.active]
      by_cases hc : r.code = code
      · simp [hc, hs]
      · simp [hc, Ne.symm hc]
    · rw [hp, hrow, ← List.eraseP_map]
    · exact hsorted.sublist List.eraseP_sublist
    · refine (hlast x (List.eraseP_sublist.subset hx)).concat fun hs' => ?_
      rw [hs] at hs'
      cases hs'
  · rw [ha, Option.getD_none]
    refine ⟨h.nodup, fun code => ?_, row, hrow, hsorted, fun x hx => ?_⟩
    · rw [isActive_concat, h.active]
      by_cases hc : r.code = code
      · rw [if_pos hc, ← h.active, hs, hc]
      · rw [if_neg hc]
    · exact (hlast x hx).concat fun hs' hi => absurd ((h.active _).mp (hs.mp hs')) hi

end ActiveAlarms

end GemLink
