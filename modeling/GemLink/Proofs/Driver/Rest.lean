import GemLink.Proofs.Driver.Upkeep
import Mathlib.Algebra.GroupWithZero.Nat

/-!
How a reactor comes to rest. What it does by itself, without the equipment, a call or the clock, is
to take its actions, to give its answers, and to deal with commands, with a connection that it has
got, with what there is to be read and with timers that are due (`Reactor.Proceeds`). None of that
can go on for ever: an event leaves less to deal with (`Reactor.business_handle`), an action leaves
fewer actions and nothing more to deal with, and answers are given once
(`Reactor.Proceeds.rank_lt`).

The bounds rest on two facts. A look at the clock leaves less to do at the same moment
(`Session.dueness_tick`), and a connection can be lost only once.
-/

namespace GemLink

/-- One number less makes a smaller sum. -/
theorem sum_map_modify_lt {α : Type} {f : α → α} {g : α → Nat} {l : List α} {i : Nat} {a : α}
    (h : l[i]? = some a) (hlt : g (f a) < g a) :
    ((l.modify i f).map g).sum < (l.map g).sum := by
  induction l generalizing i with
  | nil => cases h
  | cons b rest ih =>
    cases i with
    | zero =>
      cases h
      simp only [List.modify_zero_cons, List.map_cons, List.sum_cons]
      omega
    | succ i =>
      have hrest := ih (i := i) h
      simp only [List.modify_succ_cons, List.map_cons, List.sum_cons]
      omega

/-! ## What waits to be read -/

namespace Network

variable {n n' : Network} {socket : Nat} {k : Socket}

theorem waiting_eq (n : Network) :
    n.waiting = (n.sockets.map fun k => k.unread.length).sum := by
  have hfold : ∀ (sockets : List Socket) (size : Nat),
      sockets.foldl (fun size k => size + k.unread.length) size =
        size + (sockets.map fun k => k.unread.length).sum := by
    intro sockets
    induction sockets with
    | nil => exact fun _ => rfl
    | cons k rest ih =>
      intro size
      rw [List.foldl_cons, ih, List.map_cons, List.sum_cons, Nat.add_assoc]
  exact (hfold n.sockets 0).trans (Nat.zero_add _)

theorem waiting_hangUp (n : Network) (socket : Nat) : (n.hangUp socket).waiting = n.waiting := by
  rw [waiting_eq, waiting_eq]
  exact congrArg List.sum (map_modify_of_eq (fun _ => by rfl) n.sockets socket)

theorem waiting_send? {bytes : Bytes} (h : n.send? socket bytes = some n') :
    n'.waiting = n.waiting := by
  unfold send? at h
  split at h
  · split at h
    · cases h
    · split at h
      · cases h
        rfl
      · cases h
        rfl
  · cases h
    rfl

/-- At least one byte is read. -/
theorem waiting_read (hk : n.sockets[socket]? = some k) (hu : k.unread ≠ []) :
    ({ n with sockets := n.sockets.modify socket fun k =>
        { k with unread := k.unread.drop readChunk } } : Network).waiting < n.waiting := by
  rw [waiting_eq, waiting_eq]
  refine sum_map_modify_lt hk ?_
  have hpos : 0 < k.unread.length := List.length_pos_iff.mpr hu
  simp only [List.length_drop, readChunk]
  omega

end Network

theorem Surroundings.waiting_hangUp (w : Surroundings) (socket? : Option Nat) :
    (w.hangUp socket?).network.waiting = w.network.waiting := by
  cases socket? with
  | none => rfl
  | some socket => exact w.network.waiting_hangUp socket

/-! ## Equipment that reads -/

namespace Network

variable {n n' : Network} {socket : Nat}

/-- Whether the equipment reads all that it is sent. -/
def Reads (n : Network) : Prop :=
  ∀ k ∈ n.sockets, k.full = false

instance : Decidable n.Reads :=
  inferInstanceAs (Decidable (∀ k ∈ n.sockets, k.full = false))

theorem reads_iff : n.Reads ↔ ∀ full ∈ n.sockets.map Socket.full, full = false := by
  rw [List.forall_mem_map, Reads]

theorem reads_congr (h : n'.sockets.map Socket.full = n.sockets.map Socket.full) :
    n'.Reads ↔ n.Reads := by
  rw [reads_iff, reads_iff, h]

theorem reads_hangUp : (n.hangUp socket).Reads ↔ n.Reads :=
  reads_congr (map_modify_of_eq (fun _ => by rfl) _ _)

theorem Reads.accept? (h : n.Reads) (ha : n.accept? = some (n', socket)) : n'.Reads := by
  unfold Network.accept? at ha
  split at ha
  · cases ha
    exact List.forall_mem_append.mpr ⟨h, List.forall_mem_singleton.mpr rfl⟩
  · cases ha

theorem Reads.send? {bytes : Bytes} (h : n.Reads) (hs : n.send? socket bytes = some n') :
    n'.Reads := by
  unfold Network.send? at hs
  split at hs
  · split at hs
    · cases hs
    · split at hs <;> cases hs <;> exact h
  · cases hs
    exact h

theorem Reads.isStalled (h : n.Reads) (socket : Nat) : n.isStalled socket = false := by
  unfold Network.isStalled
  cases hk : n.sockets[socket]? with
  | none => rfl
  | some k => simp [Socket.isStalled, h k (List.mem_of_getElem? hk)]

end Network

namespace Surroundings

variable {w : Surroundings}

theorem reads_hangUp {socket? : Option Nat} : (w.hangUp socket?).network.Reads ↔ w.network.Reads := by
  cases socket? with
  | none => rfl
  | some socket => exact Network.reads_hangUp

end Surroundings

namespace Reactor

variable {w w' : Surroundings} {r r' : Reactor} {after : ReactorTask}

/-- Equipment that reads holds no reactor up. -/
theorem isHeldUp_of_reads (h : w.network.Reads) (r : Reactor) : r.isHeldUp w = false := by
  unfold isHeldUp
  split
  · exact h.isStalled _
  · rfl

theorem reads_release (h : w.network.Reads) (r : Reactor) : (r.release w).1.network.Reads :=
  Surroundings.reads_hangUp.mpr (Surroundings.reads_hangUp.mpr h)

theorem reads_act (h : w.network.Reads) (r : Reactor) (a : Action) :
    (r.act w a).1.network.Reads := by
  cases a with
  | connect | close _ | stopped | terminate _ => exact reads_release h r
  | send frame =>
    unfold act
    dsimp only
    split
    · exact h
    · split
      · next hs => exact h.send? hs
      · exact Surroundings.reads_hangUp.mpr h
  | publish target value report =>
    have hsame := w.network_publish r.machine target value report
    change (w.publish r.machine target value report).network.Reads
    rwa [hsame]
  | raise _ _ | clear _ | status _ => exact h

theorem Happens.reads {event : ReactorEvent} (hh : r.Happens w event w' r')
    (h : w.network.Reads) : w'.network.Reads := by
  cases hh with
  | acceptance _ network socket hn => exact h.accept? hn
  | connection _ _ | refusal _ _ | breakdown _ _ | ending _ _ =>
    exact Surroundings.reads_hangUp.mpr h
  | bytes socket k _ _ _ => exact (Network.reads_congr (map_modify_of_eq (fun _ => by rfl) _ _)).mpr h
  | command _ _ _ | closed _ _ | timer _ _ _ => exact h

/-- Whether the equipment reads is not for a reactor to change. -/
theorem Step.reads (hs : r.Step w w' after) (h : w.network.Reads) : w'.network.Reads := by
  cases hs with
  | act ht =>
    obtain ⟨a, rest, -, hact⟩ := take?_eq_some ht
    have hreads := reads_act (w := w.tally r.session) h
      { r with session := { r.session with outbox := rest, counters := {} } } a
    rwa [hact] at hreads
  | answer _ => exact h
  | handle event _ _ hh => exact (happens_of_handle hh).reads h

end Reactor

/-! ## What a reactor does by itself -/

/-- Whether an event needs nobody but the reactor: that an attempt is accepted or refused is for the
equipment and the network. -/
def ReactorEvent.isOwn : ReactorEvent → Bool
  | .command | .connection | .reading | .timer => true
  | .acceptance | .refusal => false

namespace Reactor

variable {w w' : Surroundings} {r r' : Reactor} {after : ReactorTask} {event : ReactorEvent}

/-- A step that a reactor takes by itself, and at which it gets something done. -/
inductive Proceeds (w : Surroundings) (r : Reactor) : Surroundings → ReactorTask → Prop
  /-- An action is taken. -/
  | act {w' : Surroundings} {after : ReactorTask} (h : r.take? w = some (w', after)) :
      Proceeds w r w' after
  /-- Answers are given. -/
  | answer (ho : r.session.outbox = []) (ha : r.replies ≠ []) :
      Proceeds w r (r.answer w).1 (r.answer w).2
  /-- Something is dealt with. -/
  | handle (event : ReactorEvent) {w' : Surroundings} {r' : Reactor} (he : event.isOwn = true)
      (ho : r.session.outbox = []) (ha : r.replies = []) (h : r.handle w event = some (w', r')) :
      Proceeds w r w' (.running r')

theorem Proceeds.step (h : r.Proceeds w w' after) : r.Step w w' after := by
  cases h with
  | act h => exact .act h
  | answer ho _ => exact .answer ho
  | handle event _ ho ha h => exact .handle event ho ha h

/-- A reactor that is held up gets nothing done. -/
theorem not_proceeds_of_isHeldUp (hheld : r.isHeldUp w = true) : ¬ r.Proceeds w w' after := by
  have hout : r.session.outbox ≠ [] := fun ho => by
    rw [isHeldUp, ho] at hheld
    cases hheld
  intro h
  cases h with
  | act h =>
    rw [take?, if_pos hheld] at h
    cases h
  | answer ho _ | handle _ _ ho _ _ => exact hout ho

/-- What a reactor looks like that has nothing to do by itself, and is not held up. -/
structure Resting (w : Surroundings) (r : Reactor) : Prop where
  outbox : r.session.outbox = []
  replies : r.replies = []
  events : ∀ event : ReactorEvent, event.isOwn = true → r.handle w event = none

theorem resting_of_not_proceeds (hfree : r.isHeldUp w = false)
    (h : ∀ w' after, ¬ r.Proceeds w w' after) : r.Resting w := by
  have ho : r.session.outbox = [] := by
    cases ht : r.take? w with
    | none => exact outbox_of_take? ht hfree
    | some x => exact absurd (.act ht) (h x.1 x.2)
  have ha : r.replies = [] := by
    by_cases ha : r.replies = []
    · exact ha
    · exact absurd (.answer ho ha) (h _ _)
  refine ⟨ho, ha, fun event he => ?_⟩
  cases hh : r.handle w event with
  | none => rfl
  | some x => exact absurd (.handle event he ho ha hh) (h x.1 _)

/-- A reactor at rest that looks for commands has none. -/
theorem Resting.inbox (h : r.Resting w) (ha : r.Attended) : r.inbox = [] := by
  have hnone := h.events .command rfl
  cases hi : r.inbox with
  | nil => rfl
  | cons c rest =>
    simp only [handle, ha.commands, hi] at hnone
    cases hnone

/-- And none of its timers is due. -/
theorem Resting.lt_next (h : r.Resting w) {deadline : Nat}
    (hd : r.session.timers.next? = some deadline) : w.now < deadline := by
  have hnone := h.events .timer rfl
  simp only [handle, hd] at hnone
  split at hnone
  · cases hnone
  · omega

/-! ## How much there is to do -/

/-- A bound on what a reactor has to deal with at one moment, the actions that are to be taken and
the answers apart. What the loss of a connection may set for the present counts less than the
connection. -/
def business (w : Surroundings) (r : Reactor) : Nat :=
  2 * r.inbox.length + 2 * r.commandsOpen.toNat + 2 * w.network.waiting +
    4 * (r.attempt.bind Attempt.socket?).isSome.toNat + 2 * r.socket.isSome.toNat +
    r.session.dueness w.now

theorem waiting_release (w : Surroundings) (r : Reactor) :
    (r.release w).1.network.waiting = w.network.waiting :=
  (Surroundings.waiting_hangUp _ _).trans (w.waiting_hangUp _)

theorem business_act {a : Action} (hs : r.session.settings.Spaced)
    (h : r.act w a = (w', .running r')) : r'.business w' ≤ r.business w := by
  cases a with
  | connect | close _ =>
    cases h
    have hnow := (around_release w r).now
    have hwaiting := waiting_release w r
    unfold release at hnow hwaiting
    dsimp only at hnow hwaiting
    simp only [business, hnow, hwaiting, Option.bind_none, Option.bind_some, Attempt.socket?,
      Option.isSome_none, Bool.toNat_false]
    omega
  | send frame =>
    unfold act at h
    dsimp only at h
    split at h
    · cases h
      exact Nat.le_refl _
    · next socket hsocket =>
      split at h
      · next network hn =>
        cases h
        have hsame := Network.waiting_send? hn
        simp only [business, Surroundings.count, hsame, Nat.le_refl]
      · cases h
        have hlost := (Session.defers_disconnect r.session w.now false).dueness_le hs
        have hsame := w.waiting_hangUp (some socket)
        simp only [business, hsocket, hsame, Surroundings.hangUp, Option.isSome_some,
          Option.isSome_none, Bool.toNat_true, Bool.toNat_false] at hsame ⊢
        omega
  | stopped | terminate _ => cases h
  | publish target value report =>
    cases h
    simp only [business, Surroundings.network_publish, (w.around_publish _ _ _ _).now, Nat.le_refl]
  | status connected =>
    cases h
    simp only [business, (w.around_storeStatus _ _).now]
    exact Nat.le_refl _
  | raise _ _ | clear _ =>
    cases h
    exact Nat.le_refl _

theorem business_take? (hs : r.session.settings.Spaced) (h : r.take? w = some (w', .running r')) :
    r'.business w' ≤ r.business w := by
  obtain ⟨a, rest, -, hact⟩ := take?_eq_some h
  have hle := business_act (by exact hs) hact
  exact hle

/-- What is dealt with is not to be dealt with any more. -/
theorem business_handle (hs : r.session.settings.Spaced) (he : event.isOwn = true)
    (h : r.handle w event = some (w', r')) : r'.business w' < r.business w := by
  have hstep : ∀ e, (r.session.step w.now e).dueness w.now ≤ r.session.dueness w.now + 1 :=
    fun e => (Session.defers_step r.session w.now e).dueness_le hs
  cases happens_of_handle h with
  | command c rest hi =>
    cases c with
    | write ticket name value =>
      have hle := hstep (.write name value)
      simp only [Session.step] at hle
      simp only [business, command, hi, List.length_cons]
      omega
    | stop =>
      have hle := hstep .stop
      simp only [Session.step] at hle
      simp only [business, command, hi, List.length_cons]
      omega
  | closed _ ho =>
    have hle := hstep .stop
    simp only [Session.step] at hle
    simp only [business, ho, Bool.toNat_true, Bool.toNat_false]
    omega
  | acceptance _ _ _ _ => cases he
  | connection socket ha =>
    have hle := hstep .connected
    have hsame := w.waiting_hangUp r.socket
    simp only [Session.step] at hle
    simp only [business, ha, hsame, (w.around_hangUp r.socket).now, Option.bind_none,
      Option.bind_some, Attempt.socket?, Option.isSome_none, Option.isSome_some, Bool.toNat_true,
      Bool.toNat_false]
    omega
  | refusal _ _ => cases he
  | bytes socket k hsocket hk hu =>
    have hle := hstep (.data (k.unread.take readChunk))
    have hread := Network.waiting_read hk hu
    simp only [Session.step] at hle
    simp only [business]
    omega
  | breakdown socket hsocket =>
    have hle := hstep .socketError
    have hsame := w.waiting_hangUp (some socket)
    simp only [Session.step] at hle
    simp only [business, hsocket, hsame, (w.around_hangUp (some socket)).now, Option.isSome_none,
      Option.isSome_some, Bool.toNat_true, Bool.toNat_false]
    omega
  | ending socket hsocket =>
    have hle := hstep .socketEnd
    have hsame := w.waiting_hangUp (some socket)
    simp only [Session.step] at hle
    simp only [business, hsocket, hsame, (w.around_hangUp (some socket)).now, Option.isSome_none,
      Option.isSome_some, Bool.toNat_true, Bool.toNat_false]
    omega
  | timer deadline hd hle =>
    obtain ⟨kind, hkind⟩ := Timers.exists_of_next? hd
    have hless := Session.dueness_tick hs (Timers.isDue_iff.mpr ⟨_, hkind, hle⟩)
    simp only [business]
    omega

/-- What there is to deal with, the actions that may be taken before that, and the answers. -/
def rank (w : Surroundings) (r : Reactor) : Nat × Nat × Nat :=
  (r.business w, r.load, r.replies.length)

/-- Whatever a reactor does by itself brings it nearer to rest. -/
theorem Proceeds.rank_lt (h : r.Proceeds w w' (.running r')) (hs : r.session.settings.Spaced) :
    Prod.Lex (· < ·) (Prod.Lex (· < ·) (· < ·)) (r'.rank w') (r.rank w) := by
  cases h with
  | act ht =>
    have hload := load_take? ht
    rcases Nat.lt_or_eq_of_le (business_take? hs ht) with hless | hsame
    · exact .left _ _ hless
    · unfold rank
      rw [hsame]
      exact .right _ (.left _ _ hload)
  | answer _ ha => exact .right _ (.right _ (List.length_pos_iff.mpr ha))
  | handle event he _ _ hh => exact .left _ _ (business_handle hs he hh)

end Reactor

end GemLink
