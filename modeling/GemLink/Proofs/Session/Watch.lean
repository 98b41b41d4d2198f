import GemLink.Proofs.Session.Frames
import GemLink.Proofs.Session.WellFormed

/-!
A session that talks is watched by a timer. Six kinds of timers make it go on by itself
(`watchTimers`), and at every point one of them is armed, but for one exception: the message that a
transaction took too long disarms the timer of the request that is open and sets no other, so that a
session may be left to wait for the answer alone (`Abandoned`).

While the equipment is silent these timers expire only so often: each expiry uses up some of the
`patience` of the session, unless by it the session comes to rest, sends a write, or gives the
connection up (`patience_expiry`). So a session that is not abandoned does not wait for ever
(`watched_unless_abandoned`).
-/

namespace GemLink

/-- Whether nothing is heard of the equipment at a moment. -/
def Moment.isSilent : Moment → Bool
  | .expiry _ | .write _ _ => true
  | _ => false

namespace Session

/-! ## Watches -/

/-- The timers that make a session go on by itself. -/
def watchTimers : List TimerKind :=
  [.commTimeout, .establishFallback, .poll, .writeTimeout, .separateRequest, .restartHandshake]

/-- Whether one of these timers is armed. -/
def isWatched (s : Session) : Bool :=
  watchTimers.any s.timers.isArmed

/-- A transaction was reported to take too long, and since then the session has waited for the
answer to a request without asking it again. -/
def Abandoned (past : List Passage) (request : Request) : Prop :=
  ∃ before p after, past = before ++ p :: after ∧ p.moment.isTimedOut = true ∧
    ∀ q ∈ p :: after, q.after.state = .awaitingReply request ∧
      q.after.timers.isArmed .commTimeout = false

variable {s₀ s t : Session} {now : Nat} {m : Moment} {past : List Passage} {request : Request}

theorem isWatched_of_isArmed {kind : TimerKind} (hk : kind ∈ watchTimers)
    (ha : s.timers.isArmed kind = true) : s.isWatched = true :=
  List.any_eq_true.mpr ⟨kind, hk, ha⟩

theorem isWatched_of_isGuarded (h : s.isGuarded = true) : s.isWatched = true := by
  simp only [isGuarded, Bool.or_eq_true] at h
  rcases h with (h | h) | h
  · exact isWatched_of_isArmed (by decide) h
  · exact isWatched_of_isArmed (by decide) h
  · exact isWatched_of_isArmed (by decide) h

/-- Whatever else than an answer a session waits for, it has a timer for it. -/
theorem Consistent.isWatched (h : s.Consistent) (ht : s.Talks)
    (hs : ∀ request, s.state ≠ .awaitingReply request) : s.isWatched = true := by
  have hset := h.settled ht.staying
  cases hstate : s.state with
  | idle => exact isWatched_of_isArmed (by decide) (hset.resting ht.link hstate).2
  | awaitingEquipment =>
    exact isWatched_of_isArmed (by decide) ((hset.fallback ht.link).mpr hstate)
  | awaitingWrite => exact isWatched_of_isArmed (by decide) (hset.writing hstate)
  | awaitingReply request => exact absurd hstate (hs request)

/-- A session that waits for an answer has a timer for it or has been abandoned. -/
structure Watched (s₀ : Session) (past : List Passage) (s : Session) : Prop
    extends Descends s₀ s where
  guarded : s.Talks → ∀ request, s.state = .awaitingReply request →
    s.isGuarded = true ∨ Abandoned past request

theorem commTimeout_of_not_isGuarded (h : ¬ s.isGuarded = true) :
    s.timers.isArmed .commTimeout = false := by
  simp only [isGuarded, Bool.or_eq_true, not_or, Bool.not_eq_true] at h
  exact h.1.1

/-- An abandoned session stays so while nothing but the time goes on. -/
theorem Abandoned.snoc (h : Abandoned past request)
    (hs : (s.advance now m).state = .awaitingReply request)
    (ha : (s.advance now m).timers.isArmed .commTimeout = false) :
    Abandoned (past ++ [⟨s, now, m⟩]) request := by
  obtain ⟨before, p, after, rfl, hp, hq⟩ := h
  refine ⟨before, p, after ++ [⟨s, now, m⟩], by simp, hp, ?_⟩
  rw [← List.cons_append, List.forall_mem_append, List.forall_mem_singleton]
  exact ⟨hq, hs, ha⟩

theorem Watched.advance (h : Watched s₀ past s) (hm : s.Permits m) :
    Watched s₀ (past ++ [⟨s, now, m⟩]) (s.advance now m) := by
  refine ⟨h.toDescends.advance hm, fun ht request hr => ?_⟩
  by_cases hg : (s.advance now m).isGuarded = true
  · exact .inl hg
  right
  have hcomm := commTimeout_of_not_isGuarded hg
  have hstays : s.connection.link = .connected → s.state = .awaitingReply request →
      (s.isGuarded = true → m.isTimedOut = true) →
        Abandoned (past ++ [⟨s, now, m⟩]) request := by
    intro hl hs hout
    rcases h.guarded ⟨hl, ht.stayed⟩ request hs with hguard | hab
    · refine ⟨past, ⟨s, now, m⟩, [], rfl, hout hguard, ?_⟩
      rw [List.forall_mem_singleton]
      exact ⟨hr, hcomm⟩
    · exact hab.snoc hr hcomm
  obtain ⟨acts, -, hc⟩ := course_advance h.consistent now hm
  generalize s.accepted now m = calls at hc
  cases hc with
  | unmoved _ _ _ _ hmoves hguard =>
    refine hstays (hmoves.link ▸ ht.link) (hmoves.state ▸ hr) fun hs => ?_
    exact (hguard hs).resolve_left hg
  | selected _ _ _ _ _ _ _ _ _ hmoves => simp [hmoves.state] at hr
  | asked _ _ _ _ _ _ _ _ _ _ hguard => simp [hcomm] at hguard
  | rested _ _ _ _ _ _ hmoves => simp [hmoves.state] at hr
  | drained _ _ _ _ _ _ _ _ hmoves => simp [hmoves.state] at hr
  | posted _ _ _ _ _ _ _ _ _ _ hmoves => simp [hmoves.state] at hr
  | queued _ _ _ _ _ _ _ _ _ _ hmoves hguard =>
    exact hstays (hmoves.link ▸ ht.link) (hmoves.state ▸ hr) fun hs => absurd (hguard hs) hg
  | lost _ _ _ _ _ _ hd => simp [ht.link] at hd
  | down _ _ _ _ hd => exact absurd ht.link hd
  | halted _ _ hp _ => simp [ht.staying] at hp

theorem Unopened.watched (hu : s.Unopened) : Watched s [] s := by
  refine ⟨hu.descends, fun ht => ?_⟩
  have hl := ht.link
  rw [hu.connection] at hl
  cases hl

/-! ## Silence -/

/-- Whether a timer that makes the session go on by itself expires at a passage. -/
def wakes (p : Passage) : Bool :=
  match p.moment with
  | .expiry kind => decide (kind ∈ watchTimers) && p.before.timers.isDue p.now kind
  | _ => false

/-- A session goes on when it comes to rest, sends a write, or gives the connection up. -/
def GoesOn (p : Passage) : Prop :=
  p.after.state = .idle ∨ sentFrames 2 15 [p] ≠ [] ∨ p.after.connection.link ≠ .connected

/-- One for a timer that is armed. -/
def armedCount (s : Session) (kind : TimerKind) : Nat :=
  (s.timers.isArmed kind).toNat

/-- How often timers can expire without the session going on. The request that is open may be
overdue some times; and the other timers expire once, but the one that ends the communication sets
the one that begins it anew. -/
def patience (s : Session) : Nat :=
  2 * s.armedCount .separateRequest + s.armedCount .restartHandshake + s.armedCount .poll +
    s.armedCount .writeTimeout + (maxRequestRetries + 1 - s.retries) +
    (s.state == .awaitingEquipment).toNat

@[simp] theorem awaitingReply_beq_awaitingEquipment (request : Request) :
    (CommState.awaitingReply request == .awaitingEquipment) = false :=
  rfl

theorem patience_le (s : Session) : s.patience ≤ 10 := by
  have hone : ∀ kind, s.armedCount kind ≤ 1 := fun kind => Bool.toNat_le _
  have h₁ := hone .separateRequest
  have h₂ := hone .restartHandshake
  have h₃ := hone .poll
  have h₄ := hone .writeTimeout
  have h₅ : (s.state == .awaitingEquipment).toNat ≤ 1 := Bool.toNat_le _
  unfold patience maxRequestRetries
  omega

theorem armedCount_of_isDue {kind : TimerKind} (h : s.timers.isDue now kind = true) :
    s.armedCount kind = 1 := by
  unfold armedCount
  rw [Timers.isArmed_of_isDue h]
  rfl

/-- A poll that falls due and a write that is overdue use up patience. -/
theorem patience_cancel {kind : TimerKind} (hk : kind = .poll ∨ kind = .writeTimeout)
    (hd : s.timers.isDue now kind = true) : (s.cancel kind).patience + 1 ≤ s.patience := by
  have hone : s.armedCount kind = 1 := armedCount_of_isDue hd
  rcases hk with rfl | rfl
  · simp only [patience, armedCount] at hone ⊢
    simp only [cancel, Timers.isArmed_cancel, reduceCtorEq, decide_false, Bool.not_false,
      Bool.true_and, decide_true, Bool.not_true, Bool.false_and, Bool.toNat_false]
    omega
  · simp only [patience, armedCount] at hone ⊢
    simp only [cancel, Timers.isArmed_cancel, reduceCtorEq, decide_false, Bool.not_false,
      Bool.true_and, decide_true, Bool.not_true, Bool.false_and, Bool.toNat_false]
    omega

/-- When nothing is open any more the session rests or sends a write. -/
theorem goesOn_enterIdle {u : Session} {acts : List Action} (hu : s.advance now m = u.enterIdle now)
    (ho : u.outbox = s.outbox ++ acts) (hp : u.stopping = false) : GoesOn ⟨s, now, m⟩ := by
  cases hw : u.pendingWrites with
  | nil =>
    left
    show (s.advance now m).state = .idle
    rw [hu, enterIdle_of_none_pending u now hp hw]
  | cons w rest =>
    right
    left
    have hout : (s.advance now m).outbox =
        s.outbox ++ (acts ++ [.send (u.writeFrame w u.nextTransaction)]) := by
      rw [hu, enterIdle_of_pending u now hp hw, sendWrite_eq]
      show u.outbox ++ _ = _
      rw [ho, List.append_assoc]
      rfl
    rw [sentFrames_singleton hout, framesIn_append, framesIn_send, carries_writeFrame]
    simp

theorem advance_expiry {kind : TimerKind} (hd : s.timers.isDue now kind = true) :
    s.advance now (.expiry kind) = (s.cancel kind).fire kind now :=
  if_pos hd

section

variable (h : s.Consistent) (ht : s.Talks)
include h ht

theorem patience_commTimeout (hd : s.timers.isDue now .commTimeout = true) :
    GoesOn ⟨s, now, .expiry .commTimeout⟩ ∨
      (s.advance now (.expiry .commTimeout)).patience + 1 ≤ s.patience := by
  obtain ⟨request, hr⟩ := h.sound.asking (Timers.isArmed_of_isDue hd)
  have hretry : s.state.retry? = some request := by rw [hr]; rfl
  have hadv := advance_expiry hd
  rw [fire, requestOverdue_eq (s.cancel .commTimeout) now hretry] at hadv
  dsimp only at hadv
  split at hadv
  · left
    right
    right
    show (s.advance now (.expiry .commTimeout)).connection.link ≠ .connected
    rw [hadv, disconnect_eq _ now (by exact h.opened_of_connected ht.link) (by exact ht.staying)]
    simp
  · next hmax =>
    right
    have hlt : s.retries < maxRequestRetries := by
      have hle : ¬ maxRequestRetries < s.retries + 1 := hmax
      omega
    rw [hadv, sendRequest_eq _ now (by exact ht.staying)]
    simp only [patience, armedCount, cancel, hr, Timers.isArmed_arm, Timers.isArmed_cancel,
      reduceCtorEq, decide_false, Bool.not_false, Bool.true_and, Bool.false_or,
      awaitingReply_beq_awaitingEquipment]
    omega

theorem patience_establish (hd : s.timers.isDue now .establishFallback = true) :
    (s.advance now (.expiry .establishFallback)).patience + 1 ≤ s.patience := by
  have hs : s.state = .awaitingEquipment :=
    ((h.settled ht.staying).fallback ht.link).mp (Timers.isArmed_of_isDue hd)
  rw [advance_expiry hd, fire, sendRequest_eq (s.cancel .establishFallback) now ht.staying]
  simp [patience, armedCount, Session.cancel, hs]

omit h in
theorem patience_poll (hd : s.timers.isDue now .poll = true) :
    GoesOn ⟨s, now, .expiry .poll⟩ ∨
      (s.advance now (.expiry .poll)).patience + 1 ≤ s.patience := by
  have hone : s.armedCount .poll = 1 := armedCount_of_isDue hd
  have hadv := advance_expiry hd
  have hask : ∀ request,
      ((s.cancel .poll).sendRequest request now).patience + 1 ≤ s.patience := by
    intro request
    rw [sendRequest_eq (s.cancel .poll) now ht.staying]
    simp only [patience, armedCount] at hone ⊢
    simp only [cancel, Timers.isArmed_arm, Timers.isArmed_cancel, reduceCtorEq, decide_false,
      decide_true, Bool.not_false, Bool.not_true, Bool.true_and, Bool.false_and, Bool.false_or,
      Bool.toNat_false, awaitingReply_beq_awaitingEquipment]
    omega
  rw [fire, Session.poll] at hadv
  split at hadv
  · right
    rw [hadv]
    exact patience_cancel (.inl rfl) hd
  · split at hadv
    · rw [hadv]
      exact .inr (hask _)
    · split at hadv
      · rw [hadv]
        exact .inr (hask _)
      · exact .inl (goesOn_enterIdle hadv (List.append_nil _).symm ht.staying)

omit h in
theorem patience_writeOverdue (hd : s.timers.isDue now .writeTimeout = true) :
    GoesOn ⟨s, now, .expiry .writeTimeout⟩ ∨
      (s.advance now (.expiry .writeTimeout)).patience + 1 ≤ s.patience := by
  have hadv := advance_expiry hd
  rw [fire, writeOverdue_eq] at hadv
  dsimp only at hadv
  split at hadv
  · left
    exact goesOn_enterIdle hadv rfl ht.staying
  · right
    rw [hadv]
    exact patience_cancel (.inr rfl) hd

omit h ht in
theorem patience_separate (hd : s.timers.isDue now .separateRequest = true) :
    (s.advance now (.expiry .separateRequest)).patience + 1 ≤ s.patience := by
  have hone : s.armedCount .separateRequest = 1 := armedCount_of_isDue hd
  rw [advance_expiry hd, fire, separate_eq]
  simp only [patience, armedCount] at hone ⊢
  simp only [cancel, Timers.isArmed_arm, Timers.isArmed_cancel, reduceCtorEq, decide_false,
    decide_true, Bool.not_false, Bool.not_true, Bool.true_and, Bool.true_or, Bool.false_and,
    Bool.false_or, Bool.or_self, Bool.toNat_false, Bool.toNat_true]
  omega

omit h in
theorem patience_restart (hd : s.timers.isDue now .restartHandshake = true) :
    (s.advance now (.expiry .restartHandshake)).patience + 1 ≤ s.patience := by
  have hone : s.armedCount .restartHandshake = 1 := armedCount_of_isDue hd
  rw [advance_expiry hd, fire, startHandshake_eq, sendRequest_eq _ now (by exact ht.staying)]
  simp only [patience, armedCount] at hone ⊢
  simp only [cancel, Timers.isArmed_arm, Timers.isArmed_cancel, reduceCtorEq, decide_false,
    decide_true, Bool.not_false, Bool.not_true, Bool.true_and, Bool.false_and, Bool.and_false,
    Bool.false_or, Bool.toNat_false, awaitingReply_beq_awaitingEquipment]
  omega

/-- An expiry uses up patience, or the session goes on. -/
theorem patience_expiry (kind : TimerKind) :
    GoesOn ⟨s, now, .expiry kind⟩ ∨
      (s.advance now (.expiry kind)).patience + (wakes ⟨s, now, .expiry kind⟩).toNat ≤
        s.patience := by
  by_cases hd : s.timers.isDue now kind = true
  · have hwake : (wakes ⟨s, now, .expiry kind⟩).toNat ≤ 1 := Bool.toNat_le _
    have hrare : kind ∉ watchTimers → (wakes ⟨s, now, .expiry kind⟩).toNat = 0 := by
      intro hk
      simp [wakes, hk]
    have hless : GoesOn ⟨s, now, .expiry kind⟩ ∨
          (s.advance now (.expiry kind)).patience + 1 ≤ s.patience →
        GoesOn ⟨s, now, .expiry kind⟩ ∨
          (s.advance now (.expiry kind)).patience + (wakes ⟨s, now, .expiry kind⟩).toNat ≤
            s.patience := by
      rintro (hg | hp)
      · exact .inl hg
      · right
        omega
    cases kind with
    | commTimeout => exact hless (patience_commTimeout h ht hd)
    | establishFallback => exact hless (.inr (patience_establish h ht hd))
    | poll => exact hless (patience_poll ht hd)
    | writeTimeout => exact hless (patience_writeOverdue ht hd)
    | separateRequest => exact hless (.inr (patience_separate hd))
    | restartHandshake => exact hless (.inr (patience_restart ht hd))
    | dataComplete =>
      right
      rw [hrare (by decide), advance_expiry hd]
      simp [patience, armedCount, fire, dropIncomplete, Session.cancel, count]
    | linkTest =>
      right
      rw [hrare (by decide), advance_expiry hd, fire]
      cases hi : s.settings.linkTestInterval with
      | none =>
        unfold testLink
        rw [show (s.cancel .linkTest).settings.linkTestInterval = none from hi]
        simp [patience, armedCount, Session.cancel]
      | some interval =>
        rw [testLink_eq (s.cancel .linkTest) now hi]
        simp [patience, armedCount, Session.cancel]
    | disconnectReport =>
      right
      rw [hrare (by decide), advance_expiry hd, fire, reportDisconnected_eq]
      simp [patience, armedCount, Session.cancel]
    | reconnect =>
      obtain ⟨hl, -⟩ := h.sound.reconnect (Timers.isArmed_of_isDue hd)
      simp [ht.link] at hl
    | stopGrace =>
      have hstop := h.sound.stopGrace (Timers.isArmed_of_isDue hd)
      simp [ht.staying] at hstop
  · right
    have hadv : s.advance now (.expiry kind) = s := if_neg hd
    rw [hadv]
    simp [wakes, hd]

omit h ht in
/-- A call of the host uses up no patience. -/
theorem patience_write (name : String) (value : Value) :
    GoesOn ⟨s, now, .write name value⟩ ∨
      (s.advance now (.write name value)).patience ≤ s.patience := by
  have hc := called_write s name value now
  have hadv : s.advance now (.write name value) = (s.write name value now).1 := rfl
  generalize s.write name value now = r at hc hadv
  cases hc with
  | refused u hu _ =>
    obtain ⟨acts, rfl, -⟩ := hu
    right
    rw [hadv]
    exact Nat.le_refl _
  | sent u hu _ _ w _ =>
    obtain ⟨acts, rfl, -⟩ := hu
    left
    right
    left
    rw [sendWrite_eq] at hadv
    have hout : (s.advance now (.write name value)).outbox =
        s.outbox ++ (acts ++ [.send (s.writeFrame w s.nextTransaction)]) := by
      rw [hadv, ← List.append_assoc]
      rfl
    rw [sentFrames_singleton hout, framesIn_append, framesIn_send, carries_writeFrame]
    simp
  | queued u hu _ _ w _ =>
    obtain ⟨acts, rfl, -⟩ := hu
    right
    rw [hadv]
    exact Nat.le_refl _

/-- While the equipment is silent, each expiry uses up patience until the session goes on. -/
theorem patience_silent (hm : m.isSilent = true) :
    GoesOn ⟨s, now, m⟩ ∨ (s.advance now m).Talks ∧
      (s.advance now m).patience + (wakes ⟨s, now, m⟩).toNat ≤ s.patience := by
  have hp : (s.advance now m).stopping = false :=
    stopping_advance ht.staying (by rintro rfl; cases hm)
  by_cases hl : (s.advance now m).connection.link = .connected
  · have hless : GoesOn ⟨s, now, m⟩ ∨
        (s.advance now m).patience + (wakes ⟨s, now, m⟩).toNat ≤ s.patience := by
      cases m with
      | expiry kind => exact patience_expiry h ht kind
      | write name value => exact patience_write name value
      | _ => cases hm
    exact hless.imp_right fun hle => ⟨⟨hl, hp⟩, hle⟩
  · exact .inl (.inr (.inr hl))

end

/-- In a silence the timers expire no oftener than the patience allows, or the session goes on. -/
theorem countP_wakes_le {ps : List Passage} (hc : Chain s ps t) (h : s.Consistent) (ht : s.Talks)
    (hm : ∀ p ∈ ps, p.moment.isSilent = true) :
    (∃ p ∈ ps, GoesOn p) ∨ ps.countP wakes + t.patience ≤ s.patience := by
  induction hc with
  | nil => simp
  | @cons s t now m rest hperm _ ih =>
    rw [List.forall_mem_cons] at hm
    obtain ⟨hsilent, hm⟩ := hm
    have hfirst : GoesOn ⟨s, now, m⟩ ∨ (s.advance now m).Talks ∧
        (s.advance now m).patience + (wakes ⟨s, now, m⟩).toNat ≤ s.patience :=
      patience_silent h ht hsilent
    rcases hfirst with hg | ⟨hnext, hle⟩
    · exact .inl ⟨_, List.mem_cons_self, hg⟩
    · rcases ih (h.advance hperm) hnext hm with ⟨p, hp, hg⟩ | hrest
      · exact .inl ⟨p, List.mem_cons_of_mem _ hp, hg⟩
      · right
        rw [List.countP_cons]
        have hone : (if wakes ⟨s, now, m⟩ = true then 1 else 0) =
            (wakes ⟨s, now, m⟩).toNat := by
          cases wakes ⟨s, now, m⟩ <;> rfl
        omega

/-- At every point of a connection before it is lost or a stop begins, a timer is armed that makes
the session go on by itself, unless the session waits for an answer and was abandoned since it
asked. And while the equipment is silent such timers expire at most ten times before the session
comes to rest, sends a write or gives the connection up. -/
theorem watched_unless_abandoned (machine : String) (model : Model) (catalog : Catalog)
    (run : List Occurrence) (h : (ofCatalog machine model catalog).Legal run) :
    let s := ofCatalog machine model catalog
    ∀ past rest future, s.history run = past ++ (rest ++ future) → (s.reached past).Talks →
      ((s.reached past).isWatched = true ∨ ∃ request,
          (s.reached past).state = .awaitingReply request ∧ Abandoned past request) ∧
        ((∀ p ∈ rest, p.moment.isSilent = true) → 10 < rest.countP wakes →
          ∃ p ∈ rest, GoesOn p) := by
  intro s past rest future hp ht
  have hu : s.Unopened := unopened_ofCatalog machine model catalog
  have hchain := chain_history h hu
  rw [hp] at hchain
  obtain ⟨hpast, hlater⟩ := hchain.split
  have hw : Watched s past (s.reached past) :=
    hpast.record (fun _ _ _ _ hI hm => hI.advance hm) hu.watched
  refine ⟨?_, fun hsilent hmany => ?_⟩
  · cases hs : (s.reached past).state with
    | awaitingReply request =>
      rcases hw.guarded ht request hs with hg | hab
      · exact .inl (isWatched_of_isGuarded hg)
      · exact .inr ⟨request, rfl, hab⟩
    | _ => exact .inl (hw.consistent.isWatched ht (by simp [hs]))
  · rcases countP_wakes_le hlater.split.1 hw.consistent ht hsilent with hg | hle
    · exact hg
    · have hfew : rest.countP wakes ≤ 10 :=
        Nat.le_trans (Nat.le_add_right _ _) (Nat.le_trans hle (s.reached past).patience_le)
      exact absurd hmany (Nat.not_lt_of_ge hfew)

/-- Nothing is polled, and the equipment is silent after communication is established. -/
def restingTalk : List Occurrence :=
  openTalk ++ (List.range 11).map fun i => (6000 + 6000 * i, .timer)

theorem watched_unless_abandoned_restingTalk :
    let s := ofCatalog "press" {} {}
    let past := (s.history restingTalk).take 12
    let rest := (s.history restingTalk).drop 12
    s.Legal restingTalk ∧ (s.reached past).Talks ∧ (∀ p ∈ rest, p.moment.isSilent = true) ∧
      10 < rest.countP wakes ∧
      ((s.reached past).isWatched = true ∨ ∃ request,
        (s.reached past).state = .awaitingReply request ∧ Abandoned past request) ∧
      ∃ p ∈ rest, GoesOn p := by
  intro s past rest
  have h : s.Legal restingTalk := by decide +kernel
  have hsplit : s.history restingTalk = past ++ (rest ++ []) := by
    rw [List.append_nil, List.take_append_drop]
  have ht : (s.reached past).Talks := ⟨by decide +kernel, by decide +kernel⟩
  have hsilent : ∀ p ∈ rest, p.moment.isSilent = true := by decide +kernel
  have hmany : 10 < rest.countP wakes := by decide +kernel
  obtain ⟨hwatched, hgoes⟩ :=
    watched_unless_abandoned "press" {} {} restingTalk h past rest [] hsplit ht
  exact ⟨h, ht, hsilent, hmany, hwatched, hgoes hsilent hmany⟩

/-- The equipment reports that the request to open the communication takes too long. -/
def lateTransaction : List Occurrence :=
  [(0, .opened), (5, .connected), (6, .data [0, 0, 0, 10, 0, 0, 9, 9, 0, 0, 0, 0, 0, 40])]

/-- No timer is armed then, although the session waits. -/
theorem not_isWatched_lateTransaction :
    let s := ofCatalog "press" {} {}
    s.Legal lateTransaction ∧ (s.after lateTransaction).Talks ∧
      (s.after lateTransaction).state = .awaitingReply .select ∧
      (s.after lateTransaction).isWatched = false := by
  intro s
  exact ⟨by decide +kernel, ⟨by decide +kernel, by decide +kernel⟩, by decide +kernel,
    by decide +kernel⟩

end Session

end GemLink
