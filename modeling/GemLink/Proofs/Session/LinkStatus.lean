import GemLink.Proofs.Session.Tidings

/-!
What the host believes of the link. The connection status that was stored last is that of the link,
and the alert that the equipment cannot be reached was last cleared while there is a connection, and
last raised from a failed attempt or a loss until the next connection. `Mirrored` says so of a
session with its past, each moment keeps it (`Mirrored.advance`), and so it holds at every point of a
legal run until a stop begins (`host_follows_link`).
-/

namespace GemLink.Session

/-- What the host believes of a session that began as `s₀` and has this past. -/
structure Mirrored (s₀ : Session) (past : List Passage) (s : Session) : Prop
    extends Ongoing s₀ s where
  status : (last? Action.status? s.outbox).getD false = s.isConnected
  up : s.isConnected = true → last? Action.connectivity? s.outbox = some false
  down : ∀ earlier p since, past = earlier ++ p :: since → p.loses = true →
    (∀ q ∈ since, q.gains = false) → last? Action.connectivity? s.outbox = some true

variable {s₀ s t : Session} {past : List Passage} {now : Nat} {m : Moment} {acts : List Action}

theorem Unopened.mirrored (hu : s.Unopened) (ho : s.outbox = []) (hs : s.stopping = false) :
    Mirrored s [] s where
  toDescends := hu.descends
  settings := rfl
  running := hs
  status := by simp [ho, last?, isConnected, hu.connection]
  up h := by simp [isConnected, hu.connection] at h
  down earlier p since h := by simp at h

namespace Mirrored

/-- A moment that neither brings nor takes a connection and tells nothing of it. -/
theorem silent (h : Mirrored s₀ past s) (hnext : Ongoing s₀ (s.advance now m))
    (hm : m.isFailure = false) (hl : (s.advance now m).isConnected = s.isConnected)
    (ho : (s.advance now m).outbox = s.outbox ++ acts)
    (ha : ∀ a ∈ acts, a.status? = none ∧ a.connectivity? = none) :
    Mirrored s₀ (past ++ [⟨s, now, m⟩]) (s.advance now m) := by
  have hstatus : last? Action.status? (s.advance now m).outbox =
      last? Action.status? s.outbox := by
    rw [ho, last?_append, last?_of_none fun a hm => (ha a hm).1, Option.none_or]
  have halert : last? Action.connectivity? (s.advance now m).outbox =
      last? Action.connectivity? s.outbox := by
    rw [ho, last?_append, last?_of_none fun a hm => (ha a hm).2, Option.none_or]
  refine ⟨hnext, by rw [hstatus, hl, h.status], fun hc => ?_, ?_⟩
  · rw [halert]
    exact h.up (hl ▸ hc)
  · intro earlier p since hcut hp hg
    rw [halert]
    rcases cut_concat hcut with ⟨-, rfl⟩ | ⟨between, rfl, hpast⟩
    · have hnone : Passage.loses ⟨s, now, m⟩ = false :=
        Passage.loses_eq_false hm fun hc => hl.trans hc
      simp [hnone] at hp
    · exact h.down earlier p between hpast hp fun q hq => hg q (List.mem_append_left _ hq)

/-- A connection comes up: its announcements frame what the host may hear of the machine. -/
theorem up_next (hnext : Ongoing s₀ (s.advance now m)) (hm : m.isFailure = false)
    (hwas : s.isConnected = false) (hup : (s.advance now m).isConnected = true)
    {middle : List Action} (hmiddle : ∀ a ∈ middle, a.status? = none ∧ a.connectivity? = none)
    (ha : ∀ a ∈ acts, a.status? = none ∧ a.connectivity? = none)
    (ho : (s.advance now m).outbox =
      s.outbox ++ ([.clear .connectivity] ++ (middle ++ ([.status true] ++ acts)))) :
    Mirrored s₀ (past ++ [⟨s, now, m⟩]) (s.advance now m) := by
  refine ⟨hnext, ?_, fun _ => ?_, ?_⟩
  · have hlast : last? Action.status? [.status true] = some true := rfl
    rw [ho, hup]
    simp only [last?_append, last?_of_none fun a hm => (ha a hm).1, hlast, Option.none_or,
      Option.some_or, Option.getD_some]
  · have hlast : last? Action.connectivity? [.clear .connectivity] = some false := rfl
    have hnone : last? Action.connectivity? [.status true] = none := rfl
    rw [ho]
    simp only [last?_append, last?_of_none fun a hm => (ha a hm).2,
      last?_of_none fun a hm => (hmiddle a hm).2, hlast, hnone, Option.none_or, Option.some_or]
  · intro earlier p since hcut hp hg
    rcases cut_concat hcut with ⟨-, rfl⟩ | ⟨between, rfl, -⟩
    · have hnone : Passage.loses ⟨s, now, m⟩ = false := Passage.loses_eq_false hm fun _ => hup
      simp [hnone] at hp
    · have hgain := hg ⟨s, now, m⟩ (by simp)
      simp [Passage.gains, Passage.after, hwas, hup] at hgain

theorem advance (h : Mirrored s₀ past s) (hm : s.Permits m) (hstop : m ≠ .stop) :
    Mirrored s₀ (past ++ [⟨s, now, m⟩]) (s.advance now m) := by
  have hnext : Ongoing s₀ (s.advance now m) := h.toOngoing.advance hm hstop
  have hnobody : ∀ v, s.catalog.Reads v → ¬ False := fun _ _ => id
  cases bulletin_advance (P := fun _ => False) now h.consistent h.running hnobody hm hstop with
  | unseen hf hu =>
    obtain ⟨acts, ho, ha⟩ := hu.actions
    exact h.silent hnext hf hu.isConnected ho fun a hm => ⟨(ha a hm).status, (ha a hm).connectivity⟩
  | launched hm' hu hc _ ho =>
    obtain ⟨acts, ho, ha⟩ := ho
    refine h.silent hnext (by rw [hm']; rfl) ?_ ho
      fun a hm => ⟨(ha a hm).status, (ha a hm).connectivity⟩
    unfold isConnected
    rw [hc, hu.connection]
    rfl
  | reported hm' _ ht =>
    have ho : (s.advance now m).outbox = s.outbox ++ s.pushes false := by
      rw [ht, reportDisconnected_eq]
      rfl
    refine h.silent hnext (by rw [hm']; rfl) ?_ ho fun a hm => ?_
    · rw [ht, reportDisconnected_eq]
      rfl
    · obtain ⟨hstatus, halert, -⟩ := pushes_untold s false a hm
      exact ⟨hstatus, halert⟩
  | reconnected hm' hd ht =>
    obtain ⟨hbefore, hafter⟩ := h.consistent.not_connected_reconnect hd
    obtain ⟨a, ho, ha⟩ : ∃ a, (s.advance now m).outbox = s.outbox ++ [a] ∧
        a.status? = none ∧ a.connectivity? = none := by
      rw [ht, reconnect_eq]
      split
      · exact ⟨_, rfl, rfl, rfl⟩
      · exact ⟨_, rfl, rfl, rfl⟩
    refine h.silent hnext (by rw [hm']; rfl) ?_ ho (List.forall_mem_singleton.mpr ha)
    rw [ht, hbefore, hafter]
  | connected hm' hl hc _ _ _ ho =>
    obtain ⟨acts, ho, ha⟩ := ho
    refine up_next hnext (by rw [hm']; rfl) (by simp [isConnected, hl]) (isConnected_iff.mpr hc)
      (fun a hm => ?_) (fun a hm => ⟨(ha a hm).status, (ha a hm).connectivity⟩) ho
    split at hm
    · cases hm
    · obtain ⟨hstatus, halert, -⟩ := pushes_untold s true a hm
      exact ⟨hstatus, halert⟩
  | lost _ hc _ _ _ _ ho =>
    obtain ⟨acts, graceful, ho, -⟩ := ho
    have hdown : (s.advance now m).isConnected = false := by simp [isConnected, hc]
    have halert : last? Action.connectivity? (s.advance now m).outbox = some true := by
      rw [ho, last?_append, last?_append]
      rfl
    refine ⟨hnext, ?_, fun hup => ?_, fun _ _ _ _ _ _ => halert⟩
    · rw [hdown, ho, last?_append, last?_append]
      rfl
    · simp [hdown] at hup

end Mirrored

/-- At every point of a legal run until a stop begins, the connection status that was stored last
tells whether there is a connection; if none was stored there is none. The alert that the equipment
cannot be reached was last cleared if there is a connection, and last raised if an attempt to connect
has failed or a connection has been lost and none has come up since. -/
theorem host_follows_link (machine : String) (model : Model) (catalog : Catalog)
    (run : List Occurrence) (h : (ofCatalog machine model catalog).Legal run) :
    let s₀ := ofCatalog machine model catalog
    ∀ past future, s₀.history (beforeStop run) = past ++ future →
      let s := s₀.reached past
      (last? Action.status? s.outbox).getD false = s.isConnected ∧
        (s.isConnected = true → last? Action.connectivity? s.outbox = some false) ∧
        ∀ earlier p since, past = earlier ++ p :: since → p.loses = true →
          (∀ q ∈ since, q.gains = false) → last? Action.connectivity? s.outbox = some true := by
  intro s₀ past future hcut s
  have hu : s₀.Unopened := unopened_ofCatalog machine model catalog
  have hs : Mirrored s₀ past s :=
    record_beforeStop h hu (fun _ _ _ _ ht hm hstop => ht.advance hm hstop)
      (hu.mirrored rfl rfl) hcut
  exact ⟨hs.status, hs.up, hs.down⟩

/-- The first attempt to connect fails. On the second connection the equipment stays silent until it
is given up, the third is closed by the equipment, and then the session gives up. -/
def unsteadyLink : List Occurrence :=
  [(0, .opened), (5, .connectFailed), (5, .timer), (5005, .timer), (5010, .connected),
    (7010, .timer), (9010, .timer), (11010, .timer), (13010, .timer), (13010, .timer),
    (18010, .timer), (18020, .connected), (18100, .socketEnd), (18100, .timer), (23100, .timer)]

theorem host_follows_link_unsteadyLink :
    let s := ofCatalog "press" {} {}
    s.Legal unsteadyLink ∧
      (s.history unsteadyLink).countP Passage.gains = 2 ∧
      (s.history unsteadyLink).countP Passage.loses = 3 ∧
      ∀ past future, s.history unsteadyLink = past ++ future →
        let t := s.reached past
        (last? Action.status? t.outbox).getD false = t.isConnected ∧
          (t.isConnected = true → last? Action.connectivity? t.outbox = some false) ∧
          ∀ earlier p since, past = earlier ++ p :: since → p.loses = true →
            (∀ q ∈ since, q.gains = false) → last? Action.connectivity? t.outbox = some true := by
  intro s
  have h : s.Legal unsteadyLink := by decide +kernel
  exact ⟨h, by decide +kernel, by decide +kernel, host_follows_link "press" {} {} unsteadyLink h⟩

end GemLink.Session
