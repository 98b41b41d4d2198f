import Mathlib.Data.List.Forall2
import GemLink.Proofs.Json.RoundTrip
import GemLink.Proofs.Machine.Records

/-!
A machine definition is read back from its text, and also from every text that says the same with
less or more: fields that hold their default may be left out, and fields of unknown names may be
added, in the definition, in its parts and in each of its variables (`parse?_edited`). The fields of
each record are listed once, with the documents that stand for them and the values that are their
defaults, and the reader of the record is shown to find them.
-/

namespace GemLink

open Record (Field Edited Has)

namespace Json

/-! ## Values -/

theorem orNull?_ofOption {α : Type} {read : Json → Option α} {write : α → Json}
    (hr : ∀ a, read (write a) = some a) (hn : ∀ a, write a ≠ .null) (value : Option α) :
    orNull? read (.ofOption write value) = some value := by
  cases value with
  | none => rfl
  | some a =>
    have h := hr a
    have hne := hn a
    rw [ofOption, orNull?.eq_def]
    generalize write a = j at h hne
    cases j with
    | null => exact absurd rfl hne
    | _ => exact congrArg (Option.map some) h

theorem text?_ofText (s : String) : text? (.ofText s) = some s := rfl

theorem bool?_bool (b : Bool) : bool? (.bool b) = some b := rfl

theorem orNull?_ofText (value : Option String) :
    orNull? text? (.ofOption .ofText value) = some value :=
  orNull?_ofOption text?_ofText (fun _ => nofun) value

theorem natural?_ofNat (n : Nat) : natural? (.ofNat n) = some n := by
  show Numeral.natural? (String.ofList (Numeral.ofNat n)).toList = some n
  rw [String.toList_ofList]
  exact Numeral.natural?_ofNat n

theorem below?_ofNat {bound n : Nat} (h : n < bound) : below? bound (.ofNat n) = some n := by
  unfold below?
  rw [natural?_ofNat, Option.bind_some, if_pos h]

theorem uint16?_ofNat (n : UInt16) : uint16? (.ofNat n.toNat) = some n := by
  unfold uint16?
  rw [below?_ofNat n.toNat_lt, Option.map_some, UInt16.ofNat_toNat]

theorem uint32?_ofNat (n : UInt32) : uint32? (.ofNat n.toNat) = some n := by
  unfold uint32?
  rw [below?_ofNat n.toNat_lt, Option.map_some, UInt32.ofNat_toNat]

theorem uint64?_ofNat (n : UInt64) : uint64? (.ofNat n.toNat) = some n := by
  unfold uint64?
  rw [below?_ofNat n.toNat_lt, Option.map_some, UInt64.ofNat_toNat]

theorem orNull?_uint32 (value : Option UInt32) :
    orNull? uint32? (.ofOption (fun n => .ofNat n.toNat) value) = some value :=
  orNull?_ofOption uint32?_ofNat (fun _ => nofun) value

theorem orNull?_uint64 (value : Option UInt64) :
    orNull? uint64? (.ofOption (fun n => .ofNat n.toNat) value) = some value :=
  orNull?_ofOption uint64?_ofNat (fun _ => nofun) value

@[simp] theorem written_ofText (s : String) : (ofText s).Written := trivial

@[simp] theorem written_bool (b : Bool) : (Json.bool b).Written := trivial

@[simp] theorem written_ofNat (n : Nat) : (ofNat n).Written := by
  show IsNumber (String.ofList (Numeral.ofNat n)).toList
  rw [String.toList_ofList]
  exact isNumber_ofNat n

theorem written_ofOption {α : Type} {write : α → Json} (h : ∀ a, (write a).Written)
    (value : Option α) : (ofOption write value).Written := by
  cases value with
  | none => trivial
  | some a => exact h a

@[simp] theorem written_ofFields {fields : List (String × Json)} :
    (ofFields fields).Written ↔ ∀ field ∈ fields, field.2.Written := by
  show WrittenMembers _ ↔ _
  rw [writtenMembers_iff, List.forall_mem_map]

end Json

theorem VariableFormat.ofJson?_name (format : VariableFormat) :
    ofJson? (.ofText format.name) = some format := by
  cases format <;> rfl

theorem VariableKind.ofJson?_name (kind : VariableKind) :
    ofJson? (.ofText kind.name) = some kind := by
  cases kind <;> rfl

theorem Access.ofJson?_name (access : Access) : ofJson? (.ofText access.name) = some access := by
  cases access <;> rfl

/-! ## Variables -/

namespace Variable

/-- The fields of a variable. -/
def fields (v : Variable) : List Field :=
  [⟨"name", (· = .ofText v.name), False⟩,
   ⟨"description", (· = .ofOption .ofText v.description), v.description = none⟩,
   ⟨"format", (· = .ofText v.format.name), False⟩,
   ⟨"type", (· = .ofText v.kind.name), v.kind = .other⟩,
   ⟨"numericID", (· = .ofOption (fun n => .ofNat n.toNat) v.numericId), v.numericId = none⟩,
   ⟨"CEID", (· = .ofOption (fun n => .ofNat n.toNat) v.eventId), v.eventId = none⟩,
   ⟨"access", (· = .ofText v.access.name), v.access = .read⟩,
   ⟨"array", (· = .bool v.array), v.array = false⟩,
   ⟨"machineConnected", (· = .bool v.machineConnected), v.machineConnected = false⟩]

/-- Whether a document says what a variable is, perhaps with less or more. -/
def Edited (v : Variable) (j : Json) : Prop :=
  ∃ members, j = .object members ∧ Record.Edited fieldNames v.fields members

theorem edited_toJson (v : Variable) : v.Edited v.toJson :=
  ⟨_, rfl, .keep rfl (.keep rfl (.keep rfl (.keep rfl (.keep rfl (.keep rfl (.keep rfl (.keep rfl
    (.keep rfl .nil))))))))⟩

theorem ofJson?_of_edited {v : Variable} {j : Json} (h : v.Edited j) : ofJson? j = some v := by
  obtain ⟨members, rfl, he⟩ := h
  obtain ⟨record, hr, hall, -⟩ := Record.ofMembers?_edited he (by simp [fields, fieldNames])
    (by simp [fields])
  simp only [fields, List.forall_mem_cons] at hall
  obtain ⟨hname, hdescription, hformat, hkind, hnumericId, heventId, haccess, harray,
    hconnected, -⟩ := hall
  unfold ofJson? Record.ofJson?
  dsimp only
  simp only [hr, Option.bind_eq_bind, Option.bind_some,
    Record.required?_of_eq hname (Json.text?_ofText _),
    Record.withDefault?_of_eq hdescription (Json.orNull?_ofText _),
    Record.required?_of_eq hformat v.format.ofJson?_name,
    Record.withDefault?_of_eq hkind v.kind.ofJson?_name,
    Record.withDefault?_of_eq hnumericId (Json.orNull?_uint32 _),
    Record.withDefault?_of_eq heventId (Json.orNull?_uint32 _),
    Record.withDefault?_of_eq haccess v.access.ofJson?_name,
    Record.withDefault?_of_eq harray (Json.bool?_bool _),
    Record.withDefault?_of_eq hconnected (Json.bool?_bool _)]

theorem written_toJson (v : Variable) : v.toJson.Written := by
  simp [toJson, Json.written_ofOption]

end Variable

/-! ## Models -/

namespace Model

/-- The fields of a model, each with its default in the model that is all defaults. -/
def fields (m : Model) : List Field :=
  let d : Model := {}
  [⟨"enable", (· = .bool m.enable), m.enable = d.enable⟩,
   ⟨"ipAddress", (· = .ofText m.ipAddress), m.ipAddress = d.ipAddress⟩,
   ⟨"port", (· = .ofNat m.port.toNat), m.port = d.port⟩,
   ⟨"sparkDeviceID", (· = .ofNat m.hostDeviceId.toNat), m.hostDeviceId = d.hostDeviceId⟩,
   ⟨"equipDeviceID", (· = .ofNat m.equipmentDeviceId.toNat),
    m.equipmentDeviceId = d.equipmentDeviceId⟩,
   ⟨"requestFrequency", (· = .ofNat m.requestFrequency.toNat),
    m.requestFrequency = d.requestFrequency⟩,
   ⟨"enablePeriodicLinkTestMessages", (· = .bool m.linkTestEnabled),
    m.linkTestEnabled = d.linkTestEnabled⟩,
   ⟨"linkTestFrequency", (· = .ofNat m.linkTestFrequency.toNat),
    m.linkTestFrequency = d.linkTestFrequency⟩,
   ⟨"disconnectReportTime", (· = .ofOption (fun n => .ofNat n.toNat) m.disconnectReportTime),
    m.disconnectReportTime = d.disconnectReportTime⟩,
   ⟨"connectionStatus", (· = .bool m.connectionStatus), m.connectionStatus = d.connectionStatus⟩]

/-- Whether a document says what a model is, perhaps with less or more. -/
def Edited (m : Model) (j : Json) : Prop :=
  ∃ members, j = .object members ∧ Record.Edited fieldNames m.fields members

theorem edited_toJson (m : Model) : m.Edited m.toJson :=
  ⟨_, rfl, .keep rfl (.keep rfl (.keep rfl (.keep rfl (.keep rfl (.keep rfl (.keep rfl (.keep rfl
    (.keep rfl (.keep rfl .nil)))))))))⟩

theorem ofJson?_of_edited {m : Model} {j : Json} (h : m.Edited j) : ofJson? j = some m := by
  obtain ⟨members, rfl, he⟩ := h
  obtain ⟨record, hr, hall, -⟩ := Record.ofMembers?_edited he (by simp [fields, fieldNames])
    (by simp [fields])
  simp only [fields, List.forall_mem_cons] at hall
  obtain ⟨henable, haddress, hport, hhost, hequipment, hrequest, htest, hfrequency, hreport,
    hstatus, -⟩ := hall
  unfold ofJson? Record.ofJson?
  dsimp only
  simp only [hr, Option.bind_eq_bind, Option.bind_some,
    Record.withDefault?_of_eq henable (Json.bool?_bool _),
    Record.withDefault?_of_eq haddress (Json.text?_ofText _),
    Record.withDefault?_of_eq hport (Json.uint16?_ofNat _),
    Record.withDefault?_of_eq hhost (Json.uint16?_ofNat _),
    Record.withDefault?_of_eq hequipment (Json.uint16?_ofNat _),
    Record.withDefault?_of_eq hrequest (Json.uint64?_ofNat _),
    Record.withDefault?_of_eq htest (Json.bool?_bool _),
    Record.withDefault?_of_eq hfrequency (Json.uint64?_ofNat _),
    Record.withDefault?_of_eq hreport (Json.orNull?_uint64 _),
    Record.withDefault?_of_eq hstatus (Json.bool?_bool _)]

theorem written_toJson (m : Model) : m.toJson.Written := by
  simp [toJson, Json.written_ofOption]

end Model

/-! ## What a machine is -/

namespace MachineInfo

/-- The fields of what a machine is. -/
def fields (i : MachineInfo) : List Field :=
  [⟨"name", (· = .ofText i.name), False⟩,
   ⟨"fullname", (· = .ofOption .ofText i.fullName), i.fullName = none⟩,
   ⟨"version", (· = .ofOption .ofText i.version), i.version = none⟩,
   ⟨"description", (· = .ofOption .ofText i.description), i.description = none⟩,
   ⟨"hpl", (· = .ofOption .ofText i.driverKind), i.driverKind = none⟩]

/-- Whether a document says what a machine is, perhaps with less or more. -/
def Edited (i : MachineInfo) (j : Json) : Prop :=
  ∃ members, j = .object members ∧ Record.Edited fieldNames i.fields members

theorem edited_toJson (i : MachineInfo) : i.Edited i.toJson :=
  ⟨_, rfl, .keep rfl (.keep rfl (.keep rfl (.keep rfl (.keep rfl .nil))))⟩

theorem ofJson?_of_edited {i : MachineInfo} {j : Json} (h : i.Edited j) :
    ofJson? j = some i := by
  obtain ⟨members, rfl, he⟩ := h
  obtain ⟨record, hr, hall, -⟩ := Record.ofMembers?_edited he (by simp [fields, fieldNames])
    (by simp [fields])
  simp only [fields, List.forall_mem_cons] at hall
  obtain ⟨hname, hfull, hversion, hdescription, hdriver, -⟩ := hall
  unfold ofJson? Record.ofJson?
  dsimp only
  simp only [hr, Option.bind_eq_bind, Option.bind_some,
    Record.required?_of_eq hname (Json.text?_ofText _),
    Record.withDefault?_of_eq hfull (Json.orNull?_ofText _),
    Record.withDefault?_of_eq hversion (Json.orNull?_ofText _),
    Record.withDefault?_of_eq hdescription (Json.orNull?_ofText _),
    Record.withDefault?_of_eq hdriver (Json.orNull?_ofText _)]

theorem written_toJson (i : MachineInfo) : i.toJson.Written := by
  simp [toJson, Json.written_ofOption]

end MachineInfo

/-! ## Machines -/

namespace Machine

/-- Whether a document says what the settings with a model are, perhaps with less or more. -/
def SettingsEdited (model : Model) (j : Json) : Prop :=
  ∃ members, j = .object members ∧
    Record.Edited ["model"] [⟨"model", model.Edited, model = {}⟩] members

/-- The fields of a machine definition. -/
def fields (m : Machine) : List Field :=
  [⟨"info", m.info.Edited, False⟩,
   ⟨"settings", SettingsEdited m.model, m.model = {}⟩,
   ⟨"variables", fun x => ∃ xs, x = .array xs ∧ List.Forall₂ Variable.Edited m.vars xs,
    m.vars = []⟩]

/-- Whether a document says what a machine definition says, perhaps with less or more: fields that
hold their default may be missing, and fields of unknown names may be there, at every level. -/
def Edited (m : Machine) (j : Json) : Prop :=
  ∃ members, j = .object members ∧
    Record.Edited ["info", "settings", "variables"] m.fields members

theorem edited_toJson (m : Machine) : m.Edited m.toJson := by
  have hs : SettingsEdited m.model (.ofFields [("model", m.model.toJson)]) :=
    ⟨_, rfl, .keep m.model.edited_toJson .nil⟩
  have hv : List.Forall₂ Variable.Edited m.vars (m.vars.map Variable.toJson) := by
    rw [List.forall₂_map_right_iff, List.forall₂_same]
    exact fun v _ => v.edited_toJson
  exact ⟨_, rfl, .keep m.info.edited_toJson (.keep hs (.keep ⟨_, rfl, hv⟩ .nil))⟩

theorem settingsOfJson?_of_edited {model : Model} {j : Json} (h : SettingsEdited model j) :
    settingsOfJson? j = some model := by
  obtain ⟨members, rfl, he⟩ := h
  obtain ⟨record, hr, hall, -⟩ := Record.ofMembers?_edited he (by simp) (by simp)
  have hm := List.forall_mem_singleton.mp hall
  unfold settingsOfJson? Record.ofJson?
  dsimp only
  rw [hr, Option.bind_eq_bind, Option.bind_some]
  exact Record.withDefault?_eq hm Eq.symm fun _ => Model.ofJson?_of_edited

theorem mapM_of_edited {vars : List Variable} {xs : List Json}
    (h : List.Forall₂ Variable.Edited vars xs) : xs.mapM Variable.ofJson? = some vars := by
  induction h with
  | nil => rfl
  | cons hv _ ih =>
    rw [List.mapM_cons, Variable.ofJson?_of_edited hv, ih]
    rfl

theorem ofJson?_of_edited {m : Machine} {j : Json} (h : m.Edited j) : ofJson? j = some m := by
  obtain ⟨members, rfl, he⟩ := h
  obtain ⟨record, hr, hall, -⟩ := Record.ofMembers?_edited he (by simp [fields]) (by simp [fields])
  simp only [fields, List.forall_mem_cons] at hall
  obtain ⟨hinfo, hsettings, hvars, -⟩ := hall
  have hi : record.required? "info" MachineInfo.ofJson? = some m.info :=
    Record.required?_eq hinfo id fun _ => MachineInfo.ofJson?_of_edited
  have hs : record.withDefault? "settings" {} settingsOfJson? = some m.model :=
    Record.withDefault?_eq hsettings Eq.symm fun _ => settingsOfJson?_of_edited
  have hv : record.withDefault? "variables" [] (Json.rowOf? Variable.ofJson?) = some m.vars := by
    refine Record.withDefault?_eq hvars Eq.symm ?_
    rintro _ ⟨xs, rfl, hxs⟩
    exact mapM_of_edited hxs
  unfold ofJson? Record.ofJson?
  dsimp only
  simp only [hr, Option.bind_eq_bind, Option.bind_some, hi, hs, hv]

theorem written_toJson (m : Machine) : m.toJson.Written := by
  have hv : (Json.array (m.vars.map Variable.toJson)).Written := by
    refine (Json.writtenAll_iff _).mpr (List.forall_mem_map.mpr ?_)
    exact fun v _ => v.written_toJson
  simp [toJson, MachineInfo.written_toJson, Model.written_toJson, hv]

/-- A machine definition is read back from its text. It is also read back from every text whose
document says the same with less or more, and every such document has a text if the numbers in what
was added are numbers. -/
theorem parse?_edited (m : Machine) :
    parse? m.render = some m ∧
      ∀ j, m.Edited j →
        (∀ text, Json.parse? text = some j → parse? text = some m) ∧
          (j.Written → parse? j.render = some m) := by
  have he : ∀ j, m.Edited j → ∀ text, Json.parse? text = some j → parse? text = some m := by
    intro j hj text ht
    unfold parse?
    rw [ht, Option.bind_some, ofJson?_of_edited hj]
  refine ⟨he _ m.edited_toJson _ (Json.parse?_render m.written_toJson), fun j hj => ?_⟩
  exact ⟨he j hj, fun hw => he j hj _ (Json.parse?_render hw)⟩

/-- A press with one gauge. -/
def press : Machine :=
  { info := { name := "press", driverKind := some "secs-gem" }
    model := { enable := true }
    vars := [{ name := "pressure", format := .double, kind := .statusVariable,
               numericId := some 4001 }] }

/-- What is written of the press by hand: most defaults are left out, and a note, a line number and
a unit are added. -/
def pressDocument : Json :=
  .object [
    (some "$note", .array [.number "1.5e3", .string none]),
    (some "info", .object [
      (some "line", .object []), (some "name", .ofText "press"),
      (some "hpl", .ofText "secs-gem")]),
    (some "settings", .object [
      (some "model", .object [(some "enable", .bool true), (some "port", .ofNat 5000)])]),
    (some "variables", .array [.object [
      (some "name", .ofText "pressure"), (some "unit", .ofText "kPa"),
      (some "format", .ofText "double"), (some "type", .ofText "Status Variable (SV)"),
      (some "numericID", .ofNat 4001)]])]

theorem edited_pressDocument : press.Edited pressDocument := by
  have hi : press.info.Edited (.object [
      (some "line", .object []), (some "name", .ofText "press"),
      (some "hpl", .ofText "secs-gem")]) :=
    ⟨_, rfl, .add (by decide) (.keep rfl (.leave rfl (.leave rfl (.leave rfl (.keep rfl .nil)))))⟩
  have hm : press.model.Edited
      (.object [(some "enable", .bool true), (some "port", .ofNat 5000)]) :=
    ⟨_, rfl, .keep rfl (.leave rfl (.keep rfl (.leave rfl (.leave rfl (.leave rfl (.leave rfl
      (.leave rfl (.leave rfl (.leave rfl .nil)))))))))⟩
  have hs : SettingsEdited press.model (.object [
      (some "model", .object [(some "enable", .bool true), (some "port", .ofNat 5000)])]) :=
    ⟨_, rfl, .keep hm .nil⟩
  have hv : List.Forall₂ Variable.Edited press.vars [.object [
      (some "name", .ofText "pressure"), (some "unit", .ofText "kPa"),
      (some "format", .ofText "double"), (some "type", .ofText "Status Variable (SV)"),
      (some "numericID", .ofNat 4001)]] :=
    .cons ⟨_, rfl, .keep rfl (.leave rfl (.add (by decide) (.keep rfl (.keep rfl (.keep rfl
      (.leave rfl (.leave rfl (.leave rfl (.leave rfl .nil)))))))))⟩ .nil
  exact ⟨_, rfl, .add (by decide) (.keep hi (.keep hs (.keep ⟨_, rfl, hv⟩ .nil)))⟩

theorem written_pressDocument : pressDocument.Written := by
  have hn : Json.IsNumber ['1', '.', '5', 'e', '3'] := by
    have hd : ∀ c ∈ ['1', '5', '3'], Json.IsDigits [c] := by
      simp [Json.IsDigits]
    exact .mk (.inl rfl) (.row (hd '1' (by decide)) (by decide)) (.point (hd '5' (by decide)))
      (.plain (.inl rfl) (hd '3' (by decide)))
  simp [pressDocument, Json.Written, Json.WrittenAll, Json.WrittenMembers, hn]

theorem parse?_edited_press :
    press.Edited pressDocument ∧ pressDocument.Written ∧
      parse? pressDocument.render = some press :=
  ⟨edited_pressDocument, written_pressDocument,
    ((parse?_edited press).2 pressDocument edited_pressDocument).2 written_pressDocument⟩

end Machine

end GemLink
