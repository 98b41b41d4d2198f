import GemLink.Proofs.Session.Custody
import GemLink.Proofs.Session.Deeds

/-!
Every received byte is accounted for. A byte that has come waits to become part of a frame, is part
of a frame that is handled, or has been counted as discarded. The account is kept from event to
event (`settles_step`): within an event the frames that a delivery completes have left the bytes
that wait before they are handled. So it holds of whatever a session has received, with any chunks,
losses of the connection and stops, in legal runs and in others (`bytes_accounted`), and the registers
that report the counts show it up to multiples of their size (`registers_accounted`).
-/

namespace GemLink.Session

variable {s t u : Session} {now : Nat} {m : Moment}

/-- Between `s` and `t` the given bytes have come and the given frames been handled: what has come
or waited before is in these frames, waits, or has been counted as discarded, and each frame has
been counted. -/
structure Settles (s t : Session) (received : Bytes) (frames : List Bytes) : Prop where
  bytes : s.buffer.bytes.length + received.length + s.counters.bytesDiscarded =
    frames.flatten.length + t.counters.bytesDiscarded + t.buffer.bytes.length
  counted : t.counters.framesReceived = s.counters.framesReceived + frames.length

namespace Settles

theorem refl (s : Session) : Settles s s [] [] :=
  ⟨by simp; omega, rfl⟩

theorem trans {received others : Bytes} {frames more : List Bytes}
    (h : Settles s t received frames) (h' : Settles t u others more) :
    Settles s u (received ++ others) (frames ++ more) := by
  have hb := h.bytes
  have hb' := h'.bytes
  refine ⟨?_, ?_⟩
  · rw [List.length_append, List.flatten_append, List.length_append]
    omega
  · rw [h'.counted, h.counted, List.length_append, Nat.add_assoc]

theorem of_keepsFront (h : KeepsFront s t)
    (hc : t.counters.framesReceived = s.counters.framesReceived) : Settles s t [] [] := by
  refine ⟨?_, hc⟩
  rw [h.buffer, h.discarded]
  exact (Settles.refl s).bytes

theorem of_dropsFront (h : DropsFront s t)
    (hc : t.counters.framesReceived = s.counters.framesReceived) : Settles s t [] [] := by
  refine ⟨?_, hc⟩
  rw [h.buffer, h.discarded]
  simp only [FrameBuffer.clear, List.length_nil, List.flatten_nil]
  omega

end Settles

/-! ## Frames are counted where they are handled -/

theorem Deed.framesReceived (h : Deed m s t) :
    t.counters.framesReceived = s.counters.framesReceived := by
  cases h with
  | shift _ hf _ => exact congrArg Face.framesReceived hf
  | tell _ _ => rfl
  | answer _ _ _ _ _ _ _ _ _ => rfl
  | ask _ _ => rfl
  | follow _ _ _ _ _ _ _ _ _ => rw [publishAlarms_eq]
  | lose graceful now ho hs =>
    rw [disconnect_eq s now ho hs]
    rfl
  | finish ho => rw [finishStop_eq s ho]
  | launch _ => rw [launch_eq]
  | gain _ _ _ => rfl
  | forget _ _ => rfl
  | retry _ _ =>
    rw [reconnect_eq]
    split <;> rfl
  | hold _ _ _ _ => rfl
  | halt _ _ ho => rw [finishStop_eq _ (by exact ho)]
  | retire _ _ _ => rfl

theorem Deeds.framesReceived (h : Deeds m s t) :
    t.counters.framesReceived = s.counters.framesReceived :=
  h.keeps (R := fun s t => t.counters.framesReceived = s.counters.framesReceived)
    (fun _ => rfl) (fun h h' => h'.trans h) Deed.framesReceived

variable (s now)

theorem framesReceived_handleFrame (frame : Bytes) :
    (s.handleFrame now frame).counters.framesReceived = s.counters.framesReceived + 1 :=
  (deeds_handleFrame s now frame).framesReceived

theorem framesReceived_handleFrames (frames : List Bytes) :
    (frames.foldl (handleFrame now) s).counters.framesReceived =
      s.counters.framesReceived + frames.length := by
  induction frames generalizing s with
  | nil => rfl
  | cons frame rest ih =>
    rw [List.foldl_cons, ih, framesReceived_handleFrame, List.length_cons]
    omega

/-! ## Events -/

/-- A moment at which nothing arrives and no frame is handled. -/
theorem settles_advance (ha : ∀ received, m ≠ .arrival received)
    (hf : ∀ frame, m ≠ .frame frame) : Settles s (s.advance now m) [] [] := by
  have hc := (deeds_advance s now hf).framesReceived
  rcases front_advance s now ha with hk | ⟨hd, -⟩
  · exact .of_keepsFront hk hc
  · exact .of_dropsFront hd hc

theorem settles_moments {ms : List Moment} (ha : ∀ m ∈ ms, ∀ received, m ≠ .arrival received)
    (hf : ∀ m ∈ ms, ∀ frame, m ≠ .frame frame) :
    Settles s (ms.foldl (fun s m => s.advance now m) s) [] [] := by
  induction ms generalizing s with
  | nil => exact .refl s
  | cons m rest ih =>
    rw [List.forall_mem_cons] at ha hf
    exact (settles_advance s now ha.1 hf.1).trans (ih _ ha.2 hf.2)

/-- Received bytes are cut into frames together with those that wait, unless they do not fit. -/
theorem bytes_accept (received : Bytes) :
    s.buffer.bytes.length + received.length + s.counters.bytesDiscarded =
      (s.accept received).buffer.bytes.length + (s.accept received).counters.bytesDiscarded := by
  rcases Nat.lt_or_ge s.buffer.capacity (s.buffer.bytes.length + received.length) with h | h
  · rw [accept_of_lt h]
    simp only [count, Counters.add]
    omega
  · rw [accept_of_le h]
    simp only [FrameBuffer.extend, List.length_append]

theorem framesReceived_accept (received : Bytes) :
    (s.accept received).counters.framesReceived = s.counters.framesReceived := by
  unfold accept
  split <;> rfl

theorem settles_receive (received : Bytes) :
    Settles s (s.receive received now) received (s.accept received).buffer.drain.1 := by
  have hbytes := s.bytes_accept received
  have hframes := s.framesReceived_accept received
  unfold receive
  generalize s.accept received = a at *
  dsimp only
  have hcut := congrArg List.length a.buffer.flatten_drain
  rw [List.length_append] at hcut
  have hdone := (keepsFront_handleFrames { a with buffer := a.buffer.drain.2 } now
    a.buffer.drain.1).trans (keepsFront_awaitRest _ now)
  refine ⟨?_, ?_⟩
  · rw [hdone.buffer, hdone.discarded]
    dsimp only
    omega
  · rw [awaitRest_eq]
    exact (framesReceived_handleFrames _ now _).trans (congrArg (· + _) hframes)

theorem ne_frame_of_mem_moments {event : SessionEvent} (he : event.received? = none) :
    ∀ m ∈ s.moments now event, ∀ frame, m ≠ .frame frame := by
  rintro m hm frame rfl
  have hmoments : (s.moments now event).filterMap Moment.handled? = [] :=
    handled_moments_of_none he
  cases List.filterMap_eq_nil_iff.mp hmoments _ hm

theorem settles_step (event : SessionEvent) :
    Settles s (s.step now event) (event.received?.getD [])
      (handledFrames (s.passages now (s.moments now event))) := by
  cases he : event.received? with
  | none =>
    rw [handledFrames_passages, handled_moments_of_none he, step_eq_foldl]
    exact settles_moments s now (ne_arrival_of_mem_moments s now he)
      (ne_frame_of_mem_moments s now he)
  | some received =>
    obtain rfl := SessionEvent.eq_data_of_received? he
    rw [handledFrames_passages, handled_moments_delivery]
    exact settles_receive s now received

/-! ## Runs -/

theorem settles_after (run : List Occurrence) :
    Settles s (s.after run) (deliveries run).flatten (handledFrames (s.history run)) := by
  induction run generalizing s with
  | nil => exact .refl s
  | cons o rest ih =>
    obtain ⟨now, event⟩ := o
    have hhandled : handledFrames (s.history ((now, event) :: rest)) =
        handledFrames (s.passages now (s.moments now event)) ++
          handledFrames ((s.step now event).history rest) := List.filterMap_append
    rw [flatten_deliveries_cons, hhandled]
    exact (settles_step s now event).trans (ih _)

/-- Whatever happens to a session, the bytes that it has received are those of the frames that it
has handled, those that it has counted as discarded and those that wait; and it has counted as many
frames as it has handled. -/
theorem bytes_accounted (machine : String) (model : Model) (catalog : Catalog)
    (run : List Occurrence) :
    let s := ofCatalog machine model catalog
    (deliveries run).flatten.length =
        (handledFrames (s.history run)).flatten.length + (s.after run).counters.bytesDiscarded +
          (s.after run).buffer.bytes.length ∧
      (s.after run).counters.framesReceived = (handledFrames (s.history run)).length := by
  intro s
  obtain ⟨hbytes, hcounted⟩ := settles_after s run
  have hbuffer : s.buffer.bytes = [] := rfl
  have hdiscarded : s.counters.bytesDiscarded = 0 := rfl
  have hreceived : s.counters.framesReceived = 0 := rfl
  rw [hbuffer, hdiscarded, List.length_nil] at hbytes
  rw [hreceived] at hcounted
  exact ⟨by omega, by omega⟩

/-- What is reported of these counts are registers, which begin anew after their last number: between
two readings they grow by the bytes that have been discarded and the frames that have been handled
in the meantime, without regard to multiples of their size. -/
theorem registers_accounted (s : Session) (run : List Occurrence) :
    let discarded := (s.after run).counters.register .bytesDiscarded -
      s.counters.register .bytesDiscarded
    let counted := (s.after run).counters.register .framesReceived -
      s.counters.register .framesReceived
    UInt64.ofNat (s.buffer.bytes.length + (deliveries run).flatten.length) =
        UInt64.ofNat (handledFrames (s.history run)).flatten.length + discarded +
          UInt64.ofNat (s.after run).buffer.bytes.length ∧
      counted = UInt64.ofNat (handledFrames (s.history run)).length := by
  intro discarded counted
  obtain ⟨hbytes, hcounted⟩ := settles_after s run
  replace hbytes := congrArg UInt64.ofNat hbytes
  replace hcounted := congrArg UInt64.ofNat hcounted
  rw [UInt64.ofNat_add, UInt64.ofNat_add _ (s.after run).buffer.bytes.length,
    UInt64.ofNat_add _ (s.after run).counters.bytesDiscarded] at hbytes
  rw [UInt64.ofNat_add] at hcounted
  simp only [discarded, counted, Counters.register, Counters.get]
  grind

end GemLink.Session
