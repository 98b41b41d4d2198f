import GemLink.Proofs.Driver.Log

/-!
Whose command a reactor carries out. A call to write gets the next ticket, and its command waits
with that ticket in the inbox of one reactor. Whatever happens at a site, a command that waits is
that of a call that was made, and no command is carried out twice (`Tickets`, `Tickets.step`).
-/

namespace GemLink

/-- The ticket of a command to write. -/
def Command.ticket? : Command → Option Nat
  | .write ticket _ _ => some ticket
  | .stop => none

/-- The tickets of the writes that a reactor has yet to carry out. -/
def Reactor.tickets (r : Reactor) : List Nat :=
  r.inbox.filterMap Command.ticket?

/-- The tickets of the writes that have been carried out. -/
def carriedOut (log : List Happening) : List Nat :=
  log.filterMap Happening.wrote?

/-- What the log says of the tickets: each was given to one call and is less than the next one, and
a command that waits is that of the call. No command waits twice or is carried out twice. -/
structure Tickets (log : List Happening) (site : Site) : Prop where
  fresh : ∀ {task ticket name value}, .called task ticket name value ∈ log →
    ticket < site.nextTicket
  once : ∀ {task ticket name value task' name' value'}, .called task ticket name value ∈ log →
    .called task' ticket name' value' ∈ log → task' = task ∧ name' = name ∧ value' = value
  commanded : ∀ {task r ticket name value}, site.Runs task r → .write ticket name value ∈ r.inbox →
    .called task ticket name value ∈ log
  waiting : ∀ {task r}, site.Runs task r → r.tickets.Nodup
  spent : ∀ {ticket}, ticket ∈ carriedOut log → ticket < site.nextTicket
  left : ∀ {task r ticket}, site.Runs task r → ticket ∈ r.tickets → ticket ∉ carriedOut log
  carried : (carriedOut log).Nodup

section
variable {log : List Happening} {site site' : Site} {happening : Happening} {task ticket : Nat}
  {name : String} {value : Value} {r r' : Reactor} {w w' : Surroundings} {after : ReactorTask}

theorem called_mem_concat (h : happening.called? = none) :
    .called task ticket name value ∈ log ++ [happening] ↔ .called task ticket name value ∈ log := by
  rw [List.mem_append, List.mem_singleton, or_iff_left]
  rintro rfl
  cases h

theorem carriedOut_concat (h : happening.wrote? = none) :
    carriedOut (log ++ [happening]) = carriedOut log := by
  rw [carriedOut, List.filterMap_append, List.filterMap_cons_none h, List.filterMap_nil,
    List.append_nil, carriedOut]

theorem carriedOut_concat_wrote {s : Session} {now : Nat} :
    carriedOut (log ++ [.wrote task ticket name value s now]) = carriedOut log ++ [ticket] := by
  rw [carriedOut, List.filterMap_append]
  rfl

namespace Reactor

theorem exists_write_of_ticket (h : ticket ∈ r.tickets) :
    ∃ name value, .write ticket name value ∈ r.inbox := by
  obtain ⟨c, hc, ht⟩ := List.mem_filterMap.mp h
  cases c with
  | stop => cases ht
  | write k name value =>
    cases ht
    exact ⟨name, value, hc⟩

/-- What a step of a reactor does to its inbox: the write at the front is carried out, or commands
are dropped from the front and no write is carried out. -/
theorem Does.inbox (h : r.Does task w happening w' (.running r')) :
    (∃ ticket name value, r.inbox = .write ticket name value :: r'.inbox ∧
      happening = .wrote task ticket name value r.session w.now) ∨
    r'.inbox <:+ r.inbox ∧ happening.wrote? = none := by
  cases h with
  | act ho ht =>
    obtain ⟨a, rest, -, hact⟩ := take?_eq_some ht
    obtain ⟨-, _, _, _, rfl, -⟩ := act_running hact
    exact .inr ⟨List.suffix_refl _, rfl⟩
  | answer ho => exact .inr ⟨List.suffix_refl _, rfl⟩
  | handle event ho ha hh =>
    cases event with
    | command =>
      simp only [Reactor.handle] at hh
      split at hh
      · next c rest _ hi =>
        cases hh
        unfold noted
        rw [hi]
        cases c with
        | write ticket name value => exact .inl ⟨ticket, name, value, rfl, rfl⟩
        | stop => exact .inr ⟨List.suffix_cons _ _, rfl⟩
      · next hi _ =>
        cases hh
        unfold noted
        rw [hi]
        exact .inr ⟨List.suffix_refl _, rfl⟩
      · cases hh
    | _ => cases happens_of_handle hh <;> exact .inr ⟨List.suffix_refl _, rfl⟩

end Reactor

/-! ## Steps -/

namespace Tickets

theorem nil (hi : ∀ task r, ¬ site.Runs task r) : Tickets [] site where
  fresh h := nomatch h
  once h := nomatch h
  commanded h := absurd h (hi _ _)
  waiting h := absurd h (hi _ _)
  spent h := nomatch h
  left h := absurd h (hi _ _)
  carried := List.nodup_nil

/-- A reactor carries out a write that waits with it, and no other reactor has that write. -/
theorem wrote (h : Tickets log site) (hr : site.Runs task r)
    (hi : r.inbox = .write ticket name value :: r'.inbox) (s : Session) (now : Nat) :
    Tickets (log ++ [.wrote task ticket name value s now])
      { site with surroundings := w, tasks := site.tasks.set task (.running r') } := by
  have hcalled := h.commanded hr (by rw [hi]; exact List.mem_cons_self ..)
  have htickets : r.tickets = ticket :: r'.tickets := by
    rw [Reactor.tickets, hi]
    rfl
  have hnodup := h.waiting hr
  have hleft : ticket ∉ carriedOut log := h.left hr (by rw [htickets]; exact List.mem_cons_self ..)
  rw [htickets, List.nodup_cons] at hnodup
  refine ⟨fun hc => h.fresh ((called_mem_concat rfl).mp hc),
    fun hc hc' => h.once ((called_mem_concat rfl).mp hc) ((called_mem_concat rfl).mp hc'),
    fun hj hc => ?_, fun hj => ?_, fun hk => ?_, fun {j r₀ k} hj hk => ?_, ?_⟩
  · rw [called_mem_concat rfl]
    rcases runs_set hr hj with ⟨rfl, hafter⟩ | ⟨-, hj⟩
    · cases hafter
      exact h.commanded hr (by rw [hi]; exact List.mem_cons_of_mem _ hc)
    · exact h.commanded hj hc
  · rcases runs_set hr hj with ⟨rfl, hafter⟩ | ⟨-, hj⟩
    · cases hafter
      exact hnodup.2
    · exact h.waiting hj
  · rw [carriedOut_concat_wrote, List.mem_append, List.mem_singleton] at hk
    rcases hk with hk | rfl
    · exact h.spent hk
    · exact h.fresh hcalled
  · rw [carriedOut_concat_wrote, List.mem_append, List.mem_singleton, not_or]
    rcases runs_set hr hj with ⟨rfl, hafter⟩ | ⟨hne, hj⟩
    · cases hafter
      refine ⟨h.left hr (by rw [htickets]; exact List.mem_cons_of_mem _ hk), ?_⟩
      rintro rfl
      exact hnodup.1 hk
    · refine ⟨h.left hj hk, ?_⟩
      rintro rfl
      obtain ⟨name', value', hc⟩ := Reactor.exists_write_of_ticket hk
      exact hne (h.once hcalled (h.commanded hj hc)).1
  · rw [carriedOut_concat_wrote, List.nodup_append_comm, List.singleton_append, List.nodup_cons]
    exact ⟨hleft, h.carried⟩

/-- A step of a reactor that carries no write out. -/
theorem dropped (h : Tickets log site) (hr : site.Runs task r)
    (hi : ∀ r', after = .running r' → r'.inbox <:+ r.inbox) (hwrote : happening.wrote? = none)
    (hcalled : happening.called? = none) :
    Tickets (log ++ [happening])
      { site with surroundings := w, tasks := site.tasks.set task after } := by
  -- What waits with a reactor after the step waited with it before.
  have hruns : ∀ {j r₀}, ({ site with surroundings := w, tasks := site.tasks.set task after } :
      Site).Runs j r₀ → ∃ r₁, site.Runs j r₁ ∧ r₀.inbox <:+ r₁.inbox := by
    intro j r₀ hj
    rcases runs_set hr hj with ⟨rfl, hafter⟩ | ⟨-, hj⟩
    · exact ⟨r, hr, hi r₀ hafter⟩
    · exact ⟨r₀, hj, List.suffix_refl _⟩
  refine ⟨fun hc => h.fresh ((called_mem_concat hcalled).mp hc),
    fun hc hc' => h.once ((called_mem_concat hcalled).mp hc) ((called_mem_concat hcalled).mp hc'),
    fun hj hc => ?_, fun hj => ?_, fun hk => ?_, fun hj hk => ?_, ?_⟩
  · obtain ⟨r₁, h₁, hsuffix⟩ := hruns hj
    exact (called_mem_concat hcalled).mpr (h.commanded h₁ (hsuffix.mem hc))
  · obtain ⟨r₁, h₁, hsuffix⟩ := hruns hj
    exact (h.waiting h₁).sublist (hsuffix.sublist.filterMap _)
  · rw [carriedOut_concat hwrote] at hk
    exact h.spent hk
  · obtain ⟨r₁, h₁, hsuffix⟩ := hruns hj
    rw [carriedOut_concat hwrote]
    exact h.left h₁ ((hsuffix.sublist.filterMap _).subset hk)
  · rw [carriedOut_concat hwrote]
    exact h.carried

/-- A ticket that waits with a reactor is less than the next one. -/
theorem lt_nextTicket (h : Tickets log site) (hr : site.Runs task r) (hk : ticket ∈ r.tickets) :
    ticket < site.nextTicket := by
  obtain ⟨name, value, hc⟩ := Reactor.exists_write_of_ticket hk
  exact h.fresh (h.commanded hr hc)

end Tickets

/-- The tickets that wait with a reactor that has not taken the step itself. -/
theorem Site.Heir.tickets (h : site.Heir task happening r) :
    r.tickets = [] ∨ ∃ r₀, site.Runs task r₀ ∧
      (r.tickets = r₀.tickets ∨ r.tickets = r₀.tickets ++ [site.nextTicket]) := by
  cases h with
  | same r₀ h₀ closed hr =>
    rw [hr]
    exact .inr ⟨r₀, h₀, .inl rfl⟩
  | stopped r₀ h₀ hr =>
    rw [hr]
    refine .inr ⟨r₀, h₀, .inl ?_⟩
    rw [Reactor.tickets, List.filterMap_append]
    exact List.append_nil _
  | told r₀ h₀ name value hr _ =>
    rw [hr]
    refine .inr ⟨r₀, h₀, .inr ?_⟩
    rw [Reactor.tickets, List.filterMap_append]
    rfl
  | begun _ _ _ _ hr =>
    rw [hr]
    exact .inl rfl

/-- A write that waits with such a reactor waited before, or is that of the call that is made. -/
theorem Site.Heir.write_mem (h : site.Heir task happening r)
    (hc : .write ticket name value ∈ r.inbox) :
    (∃ r₀, site.Runs task r₀ ∧ .write ticket name value ∈ r₀.inbox) ∨
      happening = .called task ticket name value := by
  cases h with
  | same r₀ h₀ closed hr =>
    rw [hr] at hc
    exact .inl ⟨r₀, h₀, hc⟩
  | stopped r₀ h₀ hr =>
    rw [hr, List.mem_append, List.mem_singleton] at hc
    exact .inl ⟨r₀, h₀, hc.resolve_right nofun⟩
  | told r₀ h₀ name' value' hr hh =>
    rw [hr, List.mem_append, List.mem_singleton] at hc
    rcases hc with hc | hc
    · exact .inl ⟨r₀, h₀, hc⟩
    · cases hc
      exact .inr hh
  | begun _ _ _ _ hr =>
    rw [hr] at hc
    cases hc

namespace Tickets

/-- A step that is not a reactor's may give the next ticket to a call. -/
theorem quiet (h : Tickets log site) (hq : site.Quiet happening site') :
    Tickets (log ++ [happening]) site' := by
  have hwrote : happening.wrote? = none := by
    rcases hq.note with ⟨rfl, -⟩ | ⟨_, _, _, rfl, -⟩ <;> rfl
  have hnext : site.nextTicket ≤ site'.nextTicket := by
    rcases hq.note with ⟨-, hn⟩ | ⟨_, _, _, -, hn⟩ <;> omega
  -- Only the call that is made can be a new one.
  have hcalled : ∀ {j k n v}, .called j k n v ∈ log ++ [happening] → .called j k n v ∈ log ∨
      happening = .called j k n v ∧ k = site.nextTicket ∧ k < site'.nextTicket := by
    intro j k n v hc
    rw [List.mem_append, List.mem_singleton] at hc
    refine hc.imp_right fun hc => ?_
    rcases hq.note with ⟨hnote, -⟩ | ⟨_, _, _, hnote, hn⟩
    · rw [hnote] at hc
      cases hc
    · rw [hnote] at hc
      cases hc
      exact ⟨hnote, rfl, by omega⟩
  refine ⟨fun hc => ?_, fun hc hc' => ?_, fun hj hc => ?_, fun hj => ?_, fun hk => ?_,
    fun hj hk => ?_, ?_⟩
  · rcases hcalled hc with hc | ⟨-, -, hlt⟩
    · exact Nat.lt_of_lt_of_le (h.fresh hc) hnext
    · exact hlt
  · rcases hcalled hc with hc | ⟨hn, hk, -⟩
    · rcases hcalled hc' with hc' | ⟨-, hk', -⟩
      · exact h.once hc hc'
      · exact absurd (h.fresh hc) (by omega)
    · rcases hcalled hc' with hc' | ⟨hn', -, -⟩
      · exact absurd (h.fresh hc') (by omega)
      · cases hn.symm.trans hn'
        exact ⟨rfl, rfl, rfl⟩
  · rcases (hq.heir hj).write_mem hc with ⟨r₀, h₀, hc⟩ | hnote
    · exact List.mem_append_left _ (h.commanded h₀ hc)
    · rw [hnote]
      exact List.mem_append_right _ (List.mem_singleton_self _)
  · rcases (hq.heir hj).tickets with hk | ⟨r₀, h₀, hk | hk⟩
    · rw [hk]
      exact List.nodup_nil
    · rw [hk]
      exact h.waiting h₀
    · rw [hk, List.nodup_append_comm, List.singleton_append, List.nodup_cons]
      exact ⟨fun hmem => Nat.lt_irrefl _ (h.lt_nextTicket h₀ hmem), h.waiting h₀⟩
  · rw [carriedOut_concat hwrote] at hk
    exact Nat.lt_of_lt_of_le (h.spent hk) hnext
  · rw [carriedOut_concat hwrote]
    rcases (hq.heir hj).tickets with hnil | ⟨r₀, h₀, hsame | hmore⟩
    · rw [hnil] at hk
      cases hk
    · rw [hsame] at hk
      exact h.left h₀ hk
    · rw [hmore, List.mem_append, List.mem_singleton] at hk
      rcases hk with hk | rfl
      · exact h.left h₀ hk
      · exact fun hspent => Nat.lt_irrefl _ (h.spent hspent)
  · rw [carriedOut_concat hwrote]
    exact h.carried

theorem step (h : Tickets log site) (hs : site.Step happening site') :
    Tickets (log ++ [happening]) site' := by
  rcases hs.quiet with ⟨task, r, w, after, hr, hdoes, rfl⟩ | hq
  · by_cases hwrote : happening.wrote? = none
    · refine h.dropped hr (fun r' hafter => ?_) hwrote hdoes.called
      rw [hafter] at hdoes
      rcases hdoes.inbox with ⟨_, _, _, -, rfl⟩ | ⟨hi, -⟩
      · cases hwrote
      · exact hi
    · cases after with
      | running r' =>
        rcases hdoes.inbox with ⟨_, _, _, hi, rfl⟩ | ⟨-, hnone⟩
        · exact h.wrote hr hi _ _
        · exact absurd hnone hwrote
      | ended outcome =>
        cases hdoes with
        | act _ _ => exact absurd rfl hwrote
  · exact h.quiet hq

end Tickets

end

end GemLink
