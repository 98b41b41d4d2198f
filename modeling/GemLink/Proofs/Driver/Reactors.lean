import GemLink.Proofs.Driver.Connections

/-!
How many reactors there are. A driver lets a new reactor begin only when the one before has ended:
it knows the one that runs, or has told it to stop and waits for its end (`Scene.Sound`). So one
reactor runs at most, the connections are its own, and there is none when it has ended
(`Site.Orderly`). Each step of a scene keeps that (`Scene.Step.sound`), and so does a row of them.

It follows that there is one connection at most, at every moment, and none when a call to stop has
returned (`single_connection`).
-/

namespace GemLink

/-- Where all entries with a property stand at one place, there is one at most. -/
theorem length_filter_le_one {α : Type} {p : α → Bool} {l : List α}
    (h : ∀ (i j : Nat) (a b : α),
      l[i]? = some a → p a = true → l[j]? = some b → p b = true → i = j) :
    (l.filter p).length ≤ 1 := by
  have hpair : l.Pairwise fun a b => p a = true → p b = true → False := by
    rw [List.pairwise_iff_getElem]
    intro i j hi hj hlt ha hb
    exact Nat.ne_of_lt hlt (h i j _ _ (List.getElem?_eq_getElem hi) ha
      (List.getElem?_eq_getElem hj) hb)
  have hnone := List.pairwise_filter.mpr hpair
  match l.filter p, hnone with
  | [], _ => exact Nat.zero_le 1
  | [_], _ => exact Nat.le_refl 1
  | a :: b :: _, hnone => exact ((List.pairwise_cons.mp hnone).1 b (List.mem_cons_self ..)).elim

/-- The reactor of a task, if it runs. -/
def ReactorTask.reactor? : ReactorTask → Option Reactor
  | .running r => some r
  | .ended _ => none

theorem ReactorTask.reactor?_eq_some {t : ReactorTask} {r : Reactor} (h : t.reactor? = some r) :
    t = .running r := by
  cases t with
  | running r' => exact congrArg _ (Option.some.inj h)
  | ended _ => cases h

/-- Whether a reactor runs. -/
def ReactorTask.isRunning (t : ReactorTask) : Bool :=
  t.reactor?.isSome

/-- A reactor that runs when one more has begun ran before, or is that one. -/
theorem runs_concat {tasks : List ReactorTask} {task : Nat} {r r₀ : Reactor}
    (h : (tasks ++ [.running r₀])[task]? = some (.running r)) :
    tasks[task]? = some (.running r) ∨ task = tasks.length ∧ r = r₀ := by
  rcases Nat.lt_trichotomy task tasks.length with hlt | rfl | hgt
  · rw [List.getElem?_append_left hlt] at h
    exact .inl h
  · rw [List.getElem?_concat_length] at h
    exact .inr ⟨rfl, (ReactorTask.running.inj (Option.some.inj h)).symm⟩
  · rw [List.getElem?_eq_none (by simp; omega)] at h
    cases h

/-- A reactor that runs after a step of a task is that of the task, or has been left alone. -/
theorem runs_set {tasks : List ReactorTask} {task j : Nat} {r r' : Reactor} {after : ReactorTask}
    (hr : tasks[task]? = some (.running r)) (hj : (tasks.set task after)[j]? = some (.running r')) :
    (j = task ∧ after = .running r') ∨ (j ≠ task ∧ tasks[j]? = some (.running r')) := by
  have hlt : task < tasks.length := (List.getElem?_eq_some_iff.mp hr).1
  by_cases hne : task = j
  · rw [← hne, List.getElem?_set_self hlt] at hj
    exact .inl ⟨hne.symm, Option.some.inj hj⟩
  · rw [List.getElem?_set_ne hne] at hj
    exact .inr ⟨Ne.symm hne, hj⟩

/-! ## Sites -/

namespace Site

variable {site site' : Site} {task j : Nat} {r : Reactor} {d : Driver}

/-- Whether a task is a reactor that runs. -/
def Runs (site : Site) (task : Nat) (r : Reactor) : Prop :=
  site.tasks[task]? = some (.running r)

theorem exists_runs_of_any {p : Reactor → Bool}
    (h : (site.tasks[task]?.bind ReactorTask.reactor?).any p = true) :
    ∃ r, site.Runs task r ∧ p r = true := by
  obtain ⟨r, hr, hp⟩ := (Option.any_eq_true _ _).mp h
  obtain ⟨t, ht, hr⟩ := Option.bind_eq_some_iff.mp hr
  exact ⟨r, ht.trans (congrArg some (ReactorTask.reactor?_eq_some hr)), hp⟩

/-- One reactor runs at most; it owns the connections, and without it there are none. -/
structure Orderly (site : Site) : Prop where
  one : ∀ {task j : Nat} {r r' : Reactor}, site.Runs task r → site.Runs j r' → task = j
  owns : ∀ {task : Nat} {r : Reactor}, site.Runs task r →
    (ReactorTask.running r).Owns site.surroundings
  none : (∀ task r, ¬ site.Runs task r) → ∀ k, ¬ site.surroundings.network.IsHeld k

/-- No reactor runs, and there are no connections. -/
structure Idle (site : Site) : Prop where
  runs : ∀ task r, ¬ site.Runs task r
  held : ∀ k, ¬ site.surroundings.network.IsHeld k

theorem Orderly.idle (h : site.Orderly) (hr : ∀ task r, ¬ site.Runs task r) : site.Idle :=
  ⟨hr, h.none hr⟩

theorem Idle.orderly (h : site.Idle) : site.Orderly :=
  ⟨fun hr _ => absurd hr (h.runs _ _), fun hr => absurd hr (h.runs _ _), fun _ => h.held⟩

/-- What changes neither the reactors nor the driver's ends of the connections keeps the order. -/
theorem Orderly.same (h : site.Orderly) (ht : site'.tasks = site.tasks)
    (hn : ∀ k, site'.surroundings.network.IsHeld k ↔ site.surroundings.network.IsHeld k) :
    site'.Orderly := by
  have hruns : ∀ {task r}, site'.Runs task r → site.Runs task r := by
    intro task r hr
    rwa [Runs, ht] at hr
  refine ⟨fun hr hr' => h.one (hruns hr) (hruns hr'), fun hr => ?_, fun hr k => ?_⟩
  · obtain ⟨hsound, ho⟩ := h.owns (hruns hr)
    exact ⟨hsound, fun k hk => ho k ((hn k).mp hk)⟩
  · rw [hn]
    exact h.none (fun task r hr' => hr task r (by rwa [Runs, ht])) k

theorem Idle.same (h : site.Idle) (ht : site'.tasks = site.tasks)
    (hn : site'.surroundings.network = site.surroundings.network) : site'.Idle := by
  refine ⟨fun task r hr => h.runs task r ?_, fun k => ?_⟩
  · rwa [Runs, ht] at hr
  · rw [hn]
    exact h.held k

theorem runs_onReactor {f : Reactor → Reactor} : (site.onReactor task f).Runs j r ↔
    ∃ r', site.Runs j r' ∧ r = if task = j then f r' else r' := by
  unfold Runs onReactor
  rw [List.getElem?_modify]
  cases site.tasks[j]? with
  | none => simp
  | some t =>
    by_cases hj : task = j
    · cases t <;> simp [hj, eq_comm]
    · simp [hj]

/-- What a reactor is told does not matter to the order, if it does not matter to what it owns. -/
theorem Orderly.onReactor (h : site.Orderly) (task : Nat) {f : Reactor → Reactor}
    (hf : ∀ r w, (ReactorTask.running r).Owns w → (ReactorTask.running (f r)).Owns w) :
    (site.onReactor task f).Orderly := by
  refine ⟨fun hr hr' => ?_, fun hr => ?_, fun hr => h.none fun j r hj => ?_⟩
  · obtain ⟨_, hr, _⟩ := runs_onReactor.mp hr
    obtain ⟨_, hr', _⟩ := runs_onReactor.mp hr'
    exact h.one hr hr'
  · obtain ⟨r, hj, rfl⟩ := runs_onReactor.mp hr
    have howns := h.owns hj
    split
    · exact hf _ _ howns
    · exact howns
  · exact hr j _ (runs_onReactor.mpr ⟨r, hj, rfl⟩)

theorem Orderly.tell (h : site.Orderly) (task : Nat) (c : Command) :
    (site.tell task c).Orderly := by
  refine h.onReactor task fun r w ho => ?_
  exact ⟨⟨ho.1.ready, ho.1.suits, ho.1.alone⟩, ho.2⟩

theorem Orderly.release (h : site.Orderly) : site.release.Orderly := by
  unfold Site.release
  dsimp only
  split
  · refine (h.onReactor _ fun r w ho => ?_).same rfl fun _ => Iff.rfl
    exact ⟨⟨ho.1.ready, ho.1.suits, ho.1.alone⟩, ho.2⟩
  · exact h.same rfl fun _ => Iff.rfl

/-- After a step of a reactor. -/
theorem Orderly.react (h : site.Orderly) (hr : site.Runs task r) {w : Surroundings}
    {after : ReactorTask} (hs : r.Step site.surroundings w after) :
    ({ site with surroundings := w, tasks := site.tasks.set task after } : Site).Orderly := by
  have hlt : task < site.tasks.length := (List.getElem?_eq_some_iff.mp hr).1
  have howns : after.Owns w := hs.owns (h.owns hr)
  have hself : (site.tasks.set task after)[task]? = some after := List.getElem?_set_self hlt
  -- No other task runs, neither before nor after the step.
  have hruns : ∀ {j r'}, (site.tasks.set task after)[j]? = some (.running r') →
      j = task ∧ after = .running r' := by
    intro j r' hj
    exact (runs_set hr hj).resolve_right fun ⟨hne, hj⟩ => hne (h.one hj hr)
  refine ⟨fun hj hj' => (hruns hj).1.trans (hruns hj').1.symm, fun hj => ?_, fun hnone => ?_⟩
  · rw [← (hruns hj).2]
    exact howns
  · cases after with
    | running r' => exact absurd hself (hnone task r')
    | ended _ => exact howns

/-! ### Starting and stopping -/

/-- To tell the host of the variables of a machine is to raise and clear alerts. -/
theorem reportCatalog_keeps {P : Surroundings → Prop}
    (hclear : ∀ w key, P w → P (w.onHost fun h => h.clear key))
    (hraise : ∀ w alert, P w → P (w.onHost fun h => h.raise alert)) {w : Surroundings} (h : P w)
    (machine : String) (catalog : Except LinkError Catalog) :
    P (reportCatalog machine w catalog) := by
  unfold reportCatalog
  split
  · next catalog =>
    have hcleared := hclear w AlertKey.numericIdMissing.text h
    dsimp only
    split
    · exact hclear _ _ hcleared
    · exact catalog.unreported.foldlRecOn _ hcleared fun w' hw v _ => hraise w' _ hw
  · exact hraise w _ h
  · exact h

theorem network_reportCatalog (machine : String) (w : Surroundings)
    (catalog : Except LinkError Catalog) :
    (reportCatalog machine w catalog).network = w.network :=
  reportCatalog_keeps (P := fun w' => w'.network = w.network) (fun _ _ => id) (fun _ _ => id) rfl
    machine catalog

/-- A new reactor holds nothing, and its session asks it to connect. -/
theorem sound_launch (name path : String) (model : Model) (catalog : Catalog) :
    ({ session := (Session.ofCatalog name model catalog).launch, machine := name,
       statusPath := path } : Reactor).Sound := by
  have hready : (Session.ofCatalog name model catalog).launch.Ready :=
    (Session.unopened_ofCatalog name model catalog).ready.advance 0 .opened
  obtain ⟨acts, hout, hsuits⟩ :=
    Session.ties_step (Session.ofCatalog name model catalog) 0 (e := .opened) nofun
  refine ⟨hready, ?_, nofun⟩
  have hacts : (Session.ofCatalog name model catalog).launch.outbox = acts := hout
  rw [hacts]
  exact hsuits .nothing (Hold.suits_nothing _)

theorem Idle.finishStop (h : site.Idle) (d : Driver) : (site.finishStop d).1.Idle := by
  unfold Site.finishStop
  dsimp only
  split
  · exact h.same rfl rfl
  · exact h.same rfl rfl

end Site

/-! ## Scenes -/

/-- Whether a driver is in the state in which a call of it waits. -/
def Pending.Fits (d : Driver) : Pending → Prop
  | .stopping _ _ => d.running = none
  | .ending task => d.running = some task
  | .writing _ _ => True

namespace Scene

variable {site site' : Site} {scene scene' : Scene} {pending : Option Pending} {d : Driver}
  {task : Nat} {r : Reactor} {thenStart : Bool} {result : Except LinkError Unit}

/-- The driver knows the reactor that runs, unless it has told it to stop and waits for its end. -/
structure Sound (scene : Scene) : Prop where
  orderly : scene.site.Orderly
  known : ∀ {task r d}, scene.site.Runs task r → scene.site.driver = some d →
    d.running = some task ∨ ∃ thenStart, scene.pending = some (.stopping task thenStart)
  called : ∀ {p}, scene.pending = some p → ∃ d, scene.site.driver = some d ∧ p.Fits d

/-- A call to stop returns, at once or when it is looked at again. -/
inductive StopReturns : Scene → Except LinkError Unit → Site → Prop
  | atOnce {site site' : Site} {d : Driver} {result : Except LinkError Unit}
      (hd : site.driver = some d) (h : site.issue .stop = (site', .finished result)) :
      StopReturns ⟨site, none⟩ result site'
  | later {site site' : Site} {task : Nat} {result : Except LinkError Unit}
      (h : site.look (.stopping task false) = (site', .finished result)) :
      StopReturns ⟨site, some (.stopping task false)⟩ result site'

/-! ### No reactor runs -/

theorem sound_of_idle (h : site.Idle) : Sound ⟨site, none⟩ :=
  ⟨h.orderly, fun hr => absurd hr (h.runs _ _), nofun⟩

/-- A driver that knows of no reactor, and waits for none, has none. -/
theorem Sound.idle_of_unknown (h : Sound ⟨site, none⟩) (hd : site.driver = some d)
    (hr : d.running = none) : site.Idle := by
  refine h.orderly.idle fun task r htask => ?_
  rcases h.known htask hd with hknown | ⟨_, hp⟩
  · rw [hr] at hknown
    cases hknown
  · cases hp

/-- Nor has one that has waited for the end of its reactor. -/
theorem Sound.idle_of_stopped (h : Sound ⟨site, some (.stopping task thenStart)⟩)
    (ht : ∀ r, ¬ site.Runs task r) : site.Idle := by
  obtain ⟨d, hd, hr⟩ := h.called rfl
  refine h.orderly.idle fun j r hj => ?_
  rcases h.known hj hd with hknown | ⟨_, hp⟩
  · rw [hr] at hknown
    cases hknown
  · cases hp
    exact ht r hj

/-- A new reactor is the only one, and the driver knows it. -/
theorem sound_add (h : site.Idle) (hr : r.Sound) (hd : d.running = some site.tasks.length) :
    Sound ⟨{ site with tasks := site.tasks ++ [.running r], driver := some d }, none⟩ := by
  have hruns : ∀ {j r'}, (site.tasks ++ [.running r])[j]? = some (.running r') →
      j = site.tasks.length ∧ r' = r :=
    fun hj => (runs_concat hj).resolve_left (h.runs _ _)
  refine ⟨⟨fun hj hj' => (hruns hj).1.trans (hruns hj').1.symm, fun hj => ?_, fun hnone => ?_⟩,
    fun hj hd' => ?_, fun hp => ?_⟩
  · rw [(hruns hj).2]
    exact ⟨hr, fun k hk => absurd hk (h.held k)⟩
  · exact absurd List.getElem?_concat_length (hnone site.tasks.length r)
  · cases hd'
    rw [(hruns hj).1]
    exact .inl hd
  · cases hp

theorem sound_begin (h : site.Idle) (d : Driver) : Sound ⟨(site.begin d).1, none⟩ := by
  unfold Site.begin
  dsimp only
  split
  · exact sound_of_idle (h.same rfl rfl)
  · split
    · refine sound_of_idle ?_
      exact h.same rfl ((Site.network_reportCatalog _ _ _).trans rfl)
    · refine sound_add ?_ (Site.sound_launch _ _ _ _) rfl
      exact h.same rfl ((Site.network_reportCatalog _ _ _).trans rfl)

theorem sound_afterStop (h : site.Idle) (d : Driver) (thenStart : Bool) :
    Sound (ofProgress (site.afterStop d thenStart)) := by
  have hidle := h.finishStop d
  unfold Site.afterStop
  split
  · next hfinish =>
    rw [hfinish] at hidle
    exact sound_of_idle hidle
  · next site' hfinish =>
    rw [hfinish] at hidle
    split
    · exact sound_begin hidle d
    · exact sound_of_idle hidle

theorem idle_afterStop (h : site.Idle)
    (ha : site.afterStop d false = (site', .finished result)) : site'.Idle := by
  have hidle := h.finishStop d
  unfold Site.afterStop at ha
  split at ha
  · next hfinish =>
    rw [hfinish] at hidle
    cases ha
    exact hidle
  · next hfinish =>
    rw [hfinish] at hidle
    cases ha
    exact hidle

/-! ### Each step -/

theorem Sound.halt (h : Sound ⟨site, none⟩) (hd : site.driver = some d) (thenStart : Bool) :
    Sound (ofProgress (site.halt d thenStart)) := by
  unfold Site.halt
  split
  · next hr => exact sound_afterStop (h.idle_of_unknown hd hr) d thenStart
  · next task hr =>
    refine ⟨Site.Orderly.tell ?_ task .stop, fun hj _ => .inr ?_, ?_⟩
    · exact h.orderly.same rfl fun _ => Iff.rfl
    · obtain ⟨_, hj, _⟩ := Site.runs_onReactor.mp hj
      rcases h.known hj hd with hknown | ⟨_, hp⟩
      · rw [hr] at hknown
        cases hknown
        exact ⟨thenStart, rfl⟩
      · cases hp
    · intro p hp
      cases hp
      exact ⟨_, rfl, rfl⟩

theorem Sound.issue (h : Sound ⟨site, none⟩) (c : Call) : Sound (ofProgress (site.issue c)) := by
  unfold Site.issue
  split
  · exact h
  next d hd =>
  cases c with
  | start =>
    dsimp only
    split
    · exact h.halt hd true
    · next hr =>
      exact sound_begin (h.idle_of_unknown hd (by simpa using hr)) d
  | stop => exact h.halt hd false
  | restart =>
    dsimp only
    split
    · exact h.halt hd true
    · exact h
  | wait =>
    dsimp only
    split
    · exact h
    · next task hr =>
      refine ⟨h.orderly, fun hj hd' => ?_, ?_⟩
      · exact .inl ((h.known hj hd').resolve_right nofun)
      · intro p hp
        cases hp
        exact ⟨d, hd, hr⟩
  | updateModel model =>
    have hnew : Sound ⟨{ site with driver := some { d with
        machine := { d.machine with model } } }, none⟩ := by
      refine ⟨h.orderly.same rfl fun _ => Iff.rfl, fun hj hd' => ?_, nofun⟩
      cases hd'
      exact h.known (d := d) hj hd
    dsimp only
    split
    · exact hnew.halt rfl true
    · exact hnew
  | write name value =>
    dsimp only
    split
    · exact h
    · next task hr =>
      split
      · refine ⟨Site.Orderly.tell ?_ task _, fun hj hd' => ?_, ?_⟩
        · exact h.orderly.same rfl fun _ => Iff.rfl
        · obtain ⟨_, hj, _⟩ := Site.runs_onReactor.mp hj
          exact .inl ((h.known hj hd').resolve_right nofun)
        · intro p hp
          cases hp
          exact ⟨d, hd, trivial⟩
      · exact h

/-- A call that stops nothing may return, or be given up. -/
theorem Sound.returned {p : Pending} (h : Sound ⟨site, some p⟩) (hp : p.isStop = false) :
    Sound ⟨site, none⟩ := by
  refine ⟨h.orderly, fun hj hd => .inl ((h.known hj hd).resolve_right ?_), nofun⟩
  rintro ⟨thenStart, hp'⟩
  cases hp'
  cases hp

theorem Sound.look {p : Pending} (h : Sound ⟨site, some p⟩) :
    Sound (ofProgress (site.look p)) := by
  obtain ⟨d, hd, hfits⟩ := h.called rfl
  unfold Site.look
  rw [hd]
  cases p with
  | stopping task thenStart =>
    dsimp only
    split
    · exact h
    · next ht => exact sound_afterStop (h.idle_of_stopped ht) d thenStart
  | ending task =>
    dsimp only
    split
    · exact h
    · next outcome ht =>
      have hr : d.running = some task := hfits
      refine ⟨h.orderly.same rfl fun _ => Iff.rfl, fun {j r _} hj _ => ?_, nofun⟩
      -- The driver knew of no other task than the one that has ended.
      have hj : site.tasks[j]? = some (.running r) := hj
      rcases h.known hj hd with hknown | ⟨_, hp⟩
      · rw [hr] at hknown
        cases hknown
        rw [ht] at hj
        cases hj
      · cases hp
    · exact h.returned rfl
  | writing task ticket =>
    dsimp only
    split
    · exact h.returned rfl
    · split
      · exact h
      · exact h.returned rfl

theorem Sound.release (h : Sound ⟨site, none⟩) : Sound ⟨site.release, none⟩ :=
  ⟨h.orderly.release, fun _ => nofun, nofun⟩

/-- What changes neither driver nor reactors nor the driver's ends of the connections. -/
theorem Sound.same (h : Sound ⟨site, pending⟩) (ht : site'.tasks = site.tasks)
    (hd : site'.driver = site.driver)
    (hn : ∀ k, site'.surroundings.network.IsHeld k ↔ site.surroundings.network.IsHeld k) :
    Sound ⟨site', pending⟩ := by
  refine ⟨h.orderly.same ht hn, fun {j r d} hj hd' => ?_, fun hp => ?_⟩
  · have hj : site'.tasks[j]? = some (.running r) := hj
    have hd' : site'.driver = some d := hd'
    rw [ht] at hj
    rw [hd] at hd'
    exact h.known hj hd'
  · have hcalled := h.called hp
    rwa [← hd] at hcalled

theorem Step.sound (h : scene.Sound) (hs : Step scene scene') : scene'.Sound := by
  cases hs with
  | @react site pending task r w after hr hstep =>
    refine ⟨h.orderly.react hr hstep, fun {j r' _} hj hd => ?_, h.called⟩
    rcases runs_set hr hj with ⟨rfl, -⟩ | ⟨-, hj⟩
    · exact h.known hr hd
    · exact h.known hj hd
  | issue _ c => exact h.issue c
  | look p => exact h.look
  | abandon hp => exact h.returned hp
  | drop => exact h.release
  | clock _ => exact h.same rfl rfl fun _ => Iff.rfl
  | network hn => exact h.same rfl rfl fun _ => hn.isHeld
  | host _ => exact h.same rfl rfl fun _ => Iff.rfl

theorem Steps.sound (h : scene.Sound) (hs : Steps scene scene') : scene'.Sound := by
  induction hs with
  | refl => exact h
  | tail _ hstep ih => exact hstep.sound ih

theorem StopReturns.idle (h : scene.Sound) (hs : StopReturns scene result site') : site'.Idle := by
  cases hs with
  | @atOnce site _ d _ hd hi =>
    unfold Site.issue at hi
    rw [hd] at hi
    dsimp only at hi
    unfold Site.halt at hi
    split at hi
    · next hr => exact idle_afterStop (h.idle_of_unknown hd hr) hi
    · cases hi
  | @later site _ task _ hl =>
    obtain ⟨d, hd, _⟩ := h.called rfl
    have hd : site.driver = some d := hd
    unfold Site.look at hl
    rw [hd] at hl
    dsimp only at hl
    split at hl
    · cases hl
    · next ht => exact idle_afterStop (h.idle_of_stopped ht) hl

end Scene

/-! ## One connection at a time -/

theorem Scene.ofProgress_eq (x : Site × Progress) :
    ofProgress x = ⟨x.1, (ofProgress x).pending⟩ := by
  obtain ⟨site, progress⟩ := x
  cases progress <;> rfl

theorem Scene.finished_of_pending {x : Site × Progress} (h : (ofProgress x).pending = none) :
    ∃ result, x = (x.1, .finished result) := by
  obtain ⟨site, progress⟩ := x
  cases progress with
  | finished result => exact ⟨result, rfl⟩
  | pending p => cases h

theorem Scene.pending_of_some {x : Site × Progress} {p : Pending}
    (h : (ofProgress x).pending = some p) : x = (x.1, .pending p) := by
  obtain ⟨site, progress⟩ := x
  cases progress with
  | finished result => cases h
  | pending p' =>
    cases h
    rfl

/-- A call of a driver, and what then can happen. -/
theorem Scene.ownSteps_called {site : Site} {c : Call} {pending : Option Pending}
    (hd : site.driver.isSome = true) (hp : (ofProgress (site.call c)).pending = pending) :
    OwnSteps ⟨site, none⟩ ⟨(site.call c).1, pending⟩ := by
  obtain ⟨d, hd⟩ := Option.isSome_iff_exists.mp hd
  have hcalled := ownSteps_call hd c
  rwa [ofProgress_eq, hp] at hcalled

namespace Site

variable {site : Site} {j k : Nat}

theorem Orderly.isHeld_unique (h : site.Orderly) (hj : site.surroundings.network.IsHeld j)
    (hk : site.surroundings.network.IsHeld k) : j = k := by
  by_cases hr : ∃ task r, site.Runs task r
  · obtain ⟨task, r, hr⟩ := hr
    obtain ⟨hsound, ho⟩ := h.owns hr
    exact hsound.holds_unique (ho j hj) (ho k hk)
  · exact absurd hj (h.none (fun task r hruns => hr ⟨task, r, hruns⟩) j)

theorem Orderly.length_held_le_one (h : site.Orderly) :
    site.surroundings.network.held.length ≤ 1 :=
  length_filter_le_one fun _ _ _ _ hi ha hj hb =>
    h.isHeld_unique (Network.isHeld_of_getElem? hi ha) (Network.isHeld_of_getElem? hj hb)

theorem Orderly.length_running_le_one (h : site.Orderly) :
    (site.tasks.filter ReactorTask.isRunning).length ≤ 1 := by
  refine length_filter_le_one fun i j a b hi ha hj hb => ?_
  obtain ⟨r, hr⟩ := Option.isSome_iff_exists.mp ha
  obtain ⟨r', hr'⟩ := Option.isSome_iff_exists.mp hb
  rw [ReactorTask.reactor?_eq_some hr] at hi
  rw [ReactorTask.reactor?_eq_some hr'] at hj
  exact h.one hi hj

theorem Idle.held_eq_nil (h : site.Idle) : site.surroundings.network.held = [] := by
  refine List.filter_eq_nil_iff.mpr fun s hs hopen => ?_
  obtain ⟨k, hk⟩ := List.getElem?_of_mem hs
  exact h.held k (Network.isHeld_of_getElem? hk hopen)

theorem idle_ofMachine (reachable listening : Bool) (machine : Machine) :
    (ofMachine { reachable, listening } machine).Idle :=
  ⟨fun _ _ => nofun, fun _ => nofun⟩

end Site

/-- However a driver is called, and whatever happens to it, its equipment and the clock: at every
moment one connection is open at most, one reactor runs at most, and a reactor that has taken all
actions has a connection only while the link of its session is up. When a call to stop returns,
whatever its result, no reactor runs and no connection is open. Every call to stop, to restart or to
change the model is waited for here: a driver of which one has been given up in the middle has
forgotten a reactor that still runs. -/
theorem single_connection (reachable listening : Bool) (machine : Machine) {scene : Scene}
    (h : Scene.Steps ⟨Site.ofMachine { reachable, listening } machine, none⟩ scene) :
    scene.site.surroundings.network.held.length ≤ 1 ∧
    (scene.site.tasks.filter ReactorTask.isRunning).length ≤ 1 ∧
    (∀ task r, scene.site.Runs task r → r.session.outbox = [] → r.socket.isSome = true →
      r.session.connection.link = .connected) ∧
    ∀ result site', scene.StopReturns result site' →
      site'.surroundings.network.held = [] ∧ ∀ task r, ¬ site'.Runs task r := by
  have hsound : scene.Sound :=
    h.sound (Scene.sound_of_idle (Site.idle_ofMachine reachable listening machine))
  have horderly := hsound.orderly
  refine ⟨horderly.length_held_le_one, horderly.length_running_le_one, ?_, ?_⟩
  · intro task r hr hout hs
    obtain ⟨socket, hs⟩ := Option.isSome_iff_exists.mp hs
    exact (horderly.owns hr).1.connected hout hs
  · intro result site' hstop
    have hidle := hstop.idle hsound
    exact ⟨hidle.held_eq_nil, hidle.runs⟩

/-! ### A connection that breaks down, and a stop -/

/-- The driver of a machine with no variables, before it is started. -/
def freshSite : Site :=
  Site.ofMachine { reachable := true, listening := true }
    { info := { name := "press" }, model := { enable := true }, vars := [] }

/-- It has been started and has got a connection. -/
def startedSite : Site :=
  (freshSite.call .start).1

/-- It has been started, its connection has broken down, and it has connected again. -/
def reconnectedSite : Site :=
  ((freshSite.call .start).1.onNetwork Network.breakDown).advance 5000

/-- It has been told to stop in the middle of the handshake, and has waited for an answer of the
equipment as long as it does. -/
def stoppingSite : Site :=
  (reconnectedSite.call .stop).1.advance 2000

theorem ownSteps_startedSite : Scene.OwnSteps ⟨freshSite, none⟩ ⟨startedSite, none⟩ :=
  Scene.ownSteps_called rfl (by decide +kernel)

theorem ownSteps_reconnectedSite : Scene.OwnSteps ⟨freshSite, none⟩ ⟨reconnectedSite, none⟩ :=
  (ownSteps_startedSite.trans (Scene.ownSteps_onNetwork .broken)).trans
    (Scene.ownSteps_advance _ none 5000)

theorem ownSteps_stoppingSite :
    Scene.OwnSteps ⟨freshSite, none⟩ ⟨stoppingSite, some (.stopping 0 false)⟩ := by
  have hstop : Scene.OwnSteps ⟨reconnectedSite, none⟩
      ⟨(reconnectedSite.call .stop).1, some (.stopping 0 false)⟩ :=
    Scene.ownSteps_called (by decide +kernel) (by decide +kernel)
  exact (ownSteps_reconnectedSite.trans hstop).trans (Scene.ownSteps_advance _ _ 2000)

theorem runs_reconnectedSite :
    ∃ r, reconnectedSite.Runs 0 r ∧ r.session.outbox = [] ∧ r.socket.isSome = true := by
  have hruns : ∃ r, reconnectedSite.Runs 0 r ∧
      (r.session.outbox.isEmpty && r.socket.isSome) = true :=
    Site.exists_runs_of_any (by decide +kernel)
  obtain ⟨r, hr, hwaits⟩ := hruns
  rw [Bool.and_eq_true, List.isEmpty_iff] at hwaits
  exact ⟨r, hr, hwaits⟩

theorem single_connection_reconnected :
    reconnectedSite.surroundings.network.accepted = 2 ∧
    reconnectedSite.surroundings.network.held.length = 1 ∧
    reconnectedSite.surroundings.network.held.length ≤ 1 ∧
    (reconnectedSite.tasks.filter ReactorTask.isRunning).length ≤ 1 ∧
    (∃ r, reconnectedSite.Runs 0 r ∧ r.socket.isSome = true ∧
      r.session.connection.link = .connected) ∧
    ∃ result site', Scene.StopReturns ⟨stoppingSite, some (.stopping 0 false)⟩ result site' ∧
      site'.surroundings.network.held = [] := by
  have hreconnected := single_connection true true _ ownSteps_reconnectedSite.steps
  have hstopping := single_connection true true _ ownSteps_stoppingSite.steps
  have hreturned : (Scene.ofProgress (stoppingSite.look (.stopping 0 false))).pending = none := by
    decide +kernel
  obtain ⟨result, hlook⟩ := Scene.finished_of_pending hreturned
  have hstop : Scene.StopReturns ⟨stoppingSite, some (.stopping 0 false)⟩ result _ := .later hlook
  obtain ⟨r, hr, hout, hs⟩ := runs_reconnectedSite
  exact ⟨by decide +kernel, by decide +kernel, hreconnected.1, hreconnected.2.1,
    ⟨r, hr, hs, hreconnected.2.2.1 0 r hr hout hs⟩, result, _, hstop,
    (hstopping.2.2.2 result _ hstop).1⟩

end GemLink
