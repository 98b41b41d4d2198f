import GemLink.Proofs.Session.Deeds
import GemLink.Proofs.Session.Requests
import GemLink.Proofs.Session.Undisturbed

/-!
The transactions of the host. Each frame that begins one carries the number of the next transaction
and uses it up (`Initiates.numbered`), so that what a session sends at a moment carries on where it
stood (`draws_advance`). Whatever else is sent answers the message that is handled at that moment,
and bears its system bytes (`answersOnly_advance`).
-/

namespace GemLink

variable {frame : Bytes} {frames more : List Bytes} {acts acts' : List Action}

/-! ## Frames that begin a transaction -/

theorem isInitiated_of_isRequest (h : isRequest frame = true) : isInitiated frame = true := by
  simp [isInitiated, h]

theorem Parties.isInitiated_reply (p : Parties) {stream function : UInt8}
    (hs : stream.toNat < 128) (hf : function.toNat % 2 = 0) (system : SystemBytes) (body : Item) :
    isInitiated (p.reply stream function system body) = false := by
  simp only [isInitiated, isRequest, p.isPrimary_reply hs hf, p.hasSession_reply hs]
  rfl

/-- The frame that an action sends to begin a transaction. -/
def Action.initiated? : Action → Option Bytes
  | .send frame => if isInitiated frame then some frame else none
  | _ => none

/-- The frames that begin a transaction, of those that actions send. -/
def initiatedIn (acts : List Action) : List Bytes :=
  acts.filterMap Action.initiated?

@[simp] theorem initiatedIn_nil : initiatedIn [] = [] :=
  rfl

@[simp] theorem initiatedIn_append (acts acts' : List Action) :
    initiatedIn (acts ++ acts') = initiatedIn acts ++ initiatedIn acts' :=
  List.filterMap_append

theorem initiatedIn_send (h : isInitiated frame = true) : initiatedIn [.send frame] = [frame] := by
  simp [initiatedIn, Action.initiated?, h]

theorem initiatedIn_eq_nil (h : ∀ a ∈ acts, a.initiated? = none) : initiatedIn acts = [] :=
  List.filterMap_eq_nil_iff.mpr h

theorem Action.initiated?_of_isNews {a : Action} (h : a.isNews = true) : a.initiated? = none := by
  cases a <;> first | rfl | cases h

theorem initiatedIn_of_news (h : ∀ a ∈ acts, a.isNews = true) : initiatedIn acts = [] :=
  initiatedIn_eq_nil fun a ha => Action.initiated?_of_isNews (h a ha)

theorem initiatedIn_reply (p : Parties) {stream function : UInt8} (hs : stream.toNat < 128)
    (hf : function.toNat % 2 = 0) (system : SystemBytes) (body : Item) :
    initiatedIn [.send (p.reply stream function system body)] = [] := by
  refine initiatedIn_eq_nil (List.forall_mem_singleton.mpr ?_)
  exact if_neg (by simp [p.isInitiated_reply hs hf])

/-- The frames that begin a transaction, of those that are sent at passages. -/
def initiatedFrames (ps : List Passage) : List Bytes :=
  ps.flatMap fun p => initiatedIn p.actions

/-! ## Consecutive numbers -/

/-- Frames that carry consecutive numbers, from the first one on; the last is the number after
theirs. The numbers return to zero after the greatest. -/
inductive Consecutive : UInt16 → List Bytes → UInt16 → Prop
  | nil (number : UInt16) : Consecutive number [] number
  | cons {number next : UInt16} {frame : Bytes} {rest : List Bytes}
      (h : transactionId? frame = some number) (hr : Consecutive (number + 1) rest next) :
      Consecutive number (frame :: rest) next

namespace Consecutive

variable {first next last : UInt16}

theorem append (h : Consecutive first frames next) (h' : Consecutive next more last) :
    Consecutive first (frames ++ more) last := by
  induction h with
  | nil => exact h'
  | cons hn _ ih => exact .cons hn (ih h')

theorem eq_of_nil (h : Consecutive first [] next) : next = first := by
  cases h
  rfl

/-- The frame at a place has the number of that place, counted from the first one. -/
theorem transactionId?_get (h : Consecutive first frames next) (i : Nat)
    (hi : i < frames.length) :
    transactionId? (frames.get ⟨i, hi⟩) = some (first + UInt16.ofNat i) := by
  induction h generalizing i with
  | nil => cases hi
  | @cons number _ frame rest hn _ ih =>
    cases i with
    | zero => simpa using hn
    | succ i =>
      have hrest := ih i (by simpa using hi)
      have hplace : number + 1 + UInt16.ofNat i = number + UInt16.ofNat (i + 1) := by
        rw [UInt16.ofNat_add, UInt16.add_assoc, UInt16.add_comm 1]
        rfl
      rw [← hplace]
      exact hrest

end Consecutive

namespace Session

variable {s t u : Session} {now : Nat} {m : Moment}

/-! ## What deeds draw -/

/-- A frame that begins a transaction carries its number. -/
theorem Initiates.numbered (h : s.Initiates frame) :
    isInitiated frame = true ∧ transactionId? frame = some s.nextTransaction := by
  cases h with
  | request request =>
    exact ⟨isInitiated_of_isRequest (isRequest_requestFrame s request _),
      transactionId?_requestFrame s request _⟩
  | write w =>
    exact ⟨isInitiated_of_isRequest (isRequest_writeFrame s w _), transactionId?_writeFrame s w _⟩
  | linkTest =>
    refine ⟨?_, s.parties.transactionId?_control _ _⟩
    simp [isInitiated, s.parties.hasSession_control]
  | separate =>
    refine ⟨?_, s.parties.transactionId?_control _ _⟩
    simp [isInitiated, s.parties.hasSession_control]

/-- The frames that begin a transaction on the way from `s` to `t` carry the next numbers. -/
def Draws (s t : Session) : Prop :=
  ∃ acts, t.outbox = s.outbox ++ acts ∧
    Consecutive s.nextTransaction (initiatedIn acts) t.nextTransaction

namespace Draws

theorem none (ho : t.outbox = s.outbox ++ acts) (ha : initiatedIn acts = [])
    (hn : t.nextTransaction = s.nextTransaction) : Draws s t := by
  refine ⟨acts, ho, ?_⟩
  rw [ha, hn]
  exact .nil _

theorem refl (s : Session) : Draws s s :=
  .none (List.append_nil _).symm rfl rfl

theorem trans (h : Draws s t) (h' : Draws t u) : Draws s u := by
  obtain ⟨acts, ho, hc⟩ := h
  obtain ⟨acts', ho', hc'⟩ := h'
  refine ⟨acts ++ acts', by rw [ho', ho, List.append_assoc], ?_⟩
  rw [initiatedIn_append]
  exact hc.append hc'

end Draws

/-- Attempts to connect apart, a deed uses up the numbers of the transactions that it begins. -/
theorem Deed.draws (h : Deed m s t) (ho : m ≠ .opened) (hr : m ≠ .expiry .reconnect) :
    Draws s t := by
  cases h with
  | shift _ hf _ =>
    have hout : t.outbox = s.outbox := congrArg Face.outbox hf
    exact .none (hout.trans (List.append_nil _).symm) rfl (congrArg Face.nextTransaction hf)
  | tell a ha =>
    refine .none rfl (initiatedIn_eq_nil ?_) rfl
    rw [List.forall_mem_singleton]
    cases a with
    | send _ => exact absurd ha id
    | _ => rfl
  | answer frame inbound stream function body _ _ hp _ =>
    have hreply : stream.toNat < 128 ∧ (function + 1).toNat % 2 = 0 := by
      simp only [answeredMessages, List.mem_cons, Prod.mk.injEq, List.not_mem_nil, or_false] at hp
      rcases hp with ⟨rfl, rfl⟩ | ⟨rfl, rfl⟩ | ⟨rfl, rfl⟩ | ⟨rfl, rfl⟩ <;> decide
    exact .none rfl (initiatedIn_reply s.parties hreply.1 hreply.2 _ _) rfl
  | ask frame hi =>
    obtain ⟨hinit, hnumber⟩ := hi.numbered
    refine ⟨[.send frame], rfl, ?_⟩
    rw [initiatedIn_send hinit]
    exact .cons hnumber (.nil _)
  | follow _ _ _ _ _ _ _ _ _ =>
    rw [publishAlarms_eq]
    refine .none rfl (initiatedIn_eq_nil ?_) rfl
    rw [List.forall_mem_append, List.forall_mem_map, List.forall_mem_map]
    exact ⟨fun _ _ => rfl, fun _ _ => rfl⟩
  | lose graceful now ho hs =>
    rw [disconnect_eq s now ho hs]
    exact .none rfl rfl rfl
  | finish ho =>
    rw [finishStop_eq s ho]
    exact .none rfl rfl rfl
  | launch hm => exact absurd hm ho
  | gain _ _ _ =>
    refine .none rfl (initiatedIn_eq_nil ?_) rfl
    rw [List.forall_mem_cons, List.forall_mem_append]
    refine ⟨rfl, ?_, by simp [Action.initiated?]⟩
    split
    · simp
    · rw [List.forall_mem_map]
      exact fun _ _ => rfl
  | forget _ _ => exact .none (List.append_nil _).symm rfl rfl
  | retry hm _ => exact absurd hm hr
  | hold _ _ _ _ => exact .none (List.append_nil _).symm rfl rfl
  | halt _ _ ho =>
    rw [finishStop_eq _ (by exact ho)]
    exact .none rfl rfl rfl
  | retire _ _ _ => exact .none (List.append_nil _).symm rfl rfl

/-- So does a moment. -/
theorem draws_advance (s : Session) (now : Nat) (ho : m ≠ .opened) (hr : m ≠ .expiry .reconnect) :
    Draws s (s.advance now m) :=
  keeps_advance s now Draws.refl Draws.trans (fun h => h.draws ho hr) fun _ =>
    .none (List.append_nil _).symm rfl rfl

/-! ## Answers -/

/-- What is sent on the way from `s` to `t` and begins no transaction answers the message of the
moment. -/
def AnswersOnly (m : Moment) (s t : Session) : Prop :=
  ∃ acts, t.outbox = s.outbox ++ acts ∧
    ∀ frame, .send frame ∈ acts → isInitiated frame = false →
      ∃ received inbound, m = .frame received ∧ Inbound.read? received = some inbound ∧
        inbound.isAnsweredBy frame = true

namespace AnswersOnly

theorem none (ho : t.outbox = s.outbox ++ acts) (ha : ∀ frame, .send frame ∉ acts) :
    AnswersOnly m s t :=
  ⟨acts, ho, fun frame hf => absurd hf (ha frame)⟩

theorem refl (s : Session) : AnswersOnly m s s :=
  .none (List.append_nil _).symm (by simp)

theorem trans (h : AnswersOnly m s t) (h' : AnswersOnly m t u) : AnswersOnly m s u := by
  obtain ⟨acts, ho, ha⟩ := h
  obtain ⟨acts', ho', ha'⟩ := h'
  refine ⟨acts ++ acts', by rw [ho', ho, List.append_assoc], fun frame hf => ?_⟩
  rcases List.mem_append.mp hf with hf | hf
  · exact ha frame hf
  · exact ha' frame hf

end AnswersOnly

theorem Deed.answersOnly (h : Deed m s t) : AnswersOnly m s t := by
  cases h with
  | shift _ hf _ =>
    have hout : t.outbox = s.outbox := congrArg Face.outbox hf
    exact .none (hout.trans (List.append_nil _).symm) (by simp)
  | tell a ha =>
    refine .none rfl fun frame hf => ?_
    rw [← List.mem_singleton.mp hf] at ha
    exact ha
  | answer received inbound stream function body hm hi hp hc =>
    have hs : stream.toNat < 128 := by
      simp only [answeredMessages, List.mem_cons, Prod.mk.injEq, List.not_mem_nil, or_false] at hp
      rcases hp with ⟨rfl, -⟩ | ⟨rfl, -⟩ | ⟨rfl, -⟩ | ⟨rfl, -⟩ <;> decide
    refine ⟨[.send (s.parties.reply stream (function + 1) inbound.header.system body)], rfl,
      fun frame hf _ => ?_⟩
    obtain rfl : frame = s.parties.reply stream (function + 1) inbound.header.system body := by
      simpa using hf
    exact ⟨received, inbound, hm, hi, isAnsweredBy_reply hs hc s.parties body⟩
  | ask frame hi =>
    refine ⟨[.send frame], rfl, fun frame' hf hn => ?_⟩
    obtain rfl : frame' = frame := by simpa using hf
    rw [hi.numbered.1] at hn
    cases hn
  | follow _ _ _ _ _ _ _ _ _ =>
    rw [publishAlarms_eq]
    exact .none rfl (by simp)
  | lose graceful now ho hs =>
    rw [disconnect_eq s now ho hs]
    exact .none rfl (by simp)
  | finish ho =>
    rw [finishStop_eq s ho]
    exact .none rfl (by simp)
  | launch _ =>
    rw [launch_eq]
    exact .none (List.append_assoc _ _ _) (by simp)
  | gain _ _ _ =>
    refine .none rfl fun frame => ?_
    split <;> simp
  | forget _ _ => exact .none (List.append_nil _).symm (by simp)
  | retry _ _ =>
    rw [reconnect_eq]
    split
    · exact .none rfl (by simp)
    · exact .none rfl (by simp)
  | hold _ _ _ _ => exact .none (List.append_nil _).symm (by simp)
  | halt _ _ ho =>
    rw [finishStop_eq _ (by exact ho)]
    exact .none rfl (by simp)
  | retire _ _ _ => exact .none (List.append_nil _).symm (by simp)

theorem answersOnly_advance (s : Session) (now : Nat) (m : Moment) :
    AnswersOnly m s (s.advance now m) :=
  keeps_advance s now AnswersOnly.refl AnswersOnly.trans Deed.answersOnly fun _ =>
    .none (List.append_nil _).symm (by simp)

end Session

end GemLink
