import GemLink.Proofs.Driver.Upkeep

/-!
What the calls of a driver do to its reactors. A call, or a look at one that waits, leaves the
reactors as they are, gives a command to one, or lets a new one begin; and it changes neither the
clock nor whether the host works (`Site.Managed`). So what a reactor keeps up is kept up by whatever
happens at a site (`Scene.Upheld`, `Scene.Steps.upheld`), and a reactor that has ended never runs
again (`Scene.Steps.retired`).
-/

namespace GemLink

/-! ## Calls -/

/-- A reactor that has just begun. -/
def Reactor.fresh (name path : String) (model : Model) (catalog : Catalog) : Reactor where
  session := (Session.ofCatalog name model catalog).launch
  machine := name
  statusPath := path

namespace Site

variable {site site' site'' : Site} {task : Nat} {r : Reactor} {d : Driver}

/-- What a call, or a look at one, does to the reactors and to what is around them. -/
structure Managed (site site' : Site) : Prop where
  around : site.surroundings.Around site'.surroundings
  tasks : site'.tasks = site.tasks ∨
    (∃ task c, site'.tasks = (site.tell task c).tasks) ∨
    ∃ name path model catalog,
      site'.tasks = site.tasks ++ [.running (Reactor.fresh name path model catalog)]

/-- Where a reactor that runs after a call comes from. -/
inductive Origin (site : Site) (task : Nat) (r : Reactor) : Prop
  /-- It ran before. -/
  | same (h : site.Runs task r)
  /-- It ran before and has been given a command. -/
  | told (r₀ : Reactor) (c : Command) (h : site.Runs task r₀)
      (hr : r = { r₀ with inbox := r₀.inbox ++ [c] })
  /-- It has just begun. -/
  | begun (name path : String) (model : Model) (catalog : Catalog)
      (ht : task = site.tasks.length) (hr : r = Reactor.fresh name path model catalog)

theorem around_refl (w : Surroundings) : w.Around w :=
  ⟨rfl, rfl, rfl⟩

theorem Managed.still (ht : site'.tasks = site.tasks)
    (hw : site.surroundings.Around site'.surroundings) : Managed site site' :=
  ⟨hw, .inl ht⟩

theorem Managed.refl (site : Site) : Managed site site :=
  .still rfl (around_refl _)

/-- What is done before, without touching a reactor, does not count. -/
theorem Managed.after (ht : site'.tasks = site.tasks)
    (hw : site.surroundings.Around site'.surroundings) (h : Managed site' site'') :
    Managed site site'' := by
  refine ⟨hw.trans h.around, ?_⟩
  have htell : ∀ task c, (site'.tell task c).tasks = (site.tell task c).tasks := by
    intro task c
    simp only [tell, onReactor, ht]
  simpa only [htell, ht] using h.tasks

theorem Managed.origin (h : Managed site site') (hr : site'.Runs task r) :
    site.Origin task r := by
  rcases h.tasks with ht | ⟨j, c, ht⟩ | ⟨name, path, model, catalog, ht⟩
  · exact .same (by rwa [Runs, ht] at hr)
  · have hr : (site.tell j c).Runs task r := by rwa [Runs, ht] at hr
    obtain ⟨r₀, h₀, hr⟩ := runs_onReactor.mp hr
    split at hr
    · exact .told r₀ c h₀ hr
    · exact .same (hr ▸ h₀)
  · rw [Runs, ht] at hr
    rcases runs_concat hr with hr | ⟨htask, rfl⟩
    · exact .same hr
    · exact .begun name path model catalog htask rfl

theorem Managed.length_le (h : Managed site site') : site.tasks.length ≤ site'.tasks.length := by
  rcases h.tasks with ht | ⟨task, c, ht⟩ | ⟨_, _, _, _, ht⟩
  · exact Nat.le_of_eq (congrArg List.length ht.symm)
  · have hlength : (site.tell task c).tasks.length = site.tasks.length := List.length_modify _ _ _
    exact Nat.le_of_eq (by rw [ht, hlength])
  · rw [ht, List.length_append]
    omega

/-! ### Each call -/

theorem around_reportCatalog (machine : String) (w : Surroundings)
    (catalog : Except LinkError Catalog) : w.Around (reportCatalog machine w catalog) :=
  reportCatalog_keeps (fun _ _ h => h.trans ⟨rfl, rfl, rfl⟩) (fun _ _ h => h.trans ⟨rfl, rfl, rfl⟩)
    (around_refl w) machine catalog

theorem managed_begin (site : Site) (d : Driver) : Managed site (site.begin d).1 := by
  have hstored := site.surroundings.around_storeStatus d.machine.statusPath false
  unfold begin
  dsimp only
  split
  · exact .still rfl hstored
  · split
    · exact .still rfl (hstored.trans (around_reportCatalog _ _ _))
    · exact ⟨hstored.trans (around_reportCatalog _ _ _), .inr (.inr ⟨_, _, _, _, rfl⟩)⟩

theorem around_clearAll (w : Surroundings) :
    w.Around { w with host := w.host.clearAll.1 } := by
  unfold Host.clearAll
  dsimp only
  split
  · exact ⟨rfl, rfl, rfl⟩
  · exact ⟨rfl, rfl, rfl⟩

theorem finishStop_same (site : Site) (d : Driver) : (site.finishStop d).1.tasks = site.tasks ∧
    site.surroundings.Around (site.finishStop d).1.surroundings := by
  have hcleared := around_clearAll site.surroundings
  unfold finishStop
  dsimp only
  split
  · exact ⟨rfl, hcleared.trans (Surroundings.around_storeStatus _ _ _)⟩
  · exact ⟨rfl, hcleared⟩

theorem managed_afterStop (site : Site) (d : Driver) (thenStart : Bool) :
    Managed site (site.afterStop d thenStart).1 := by
  obtain ⟨ht, hw⟩ := finishStop_same site d
  unfold afterStop
  split
  · next hfinish =>
    rw [hfinish] at ht hw
    exact .still ht hw
  · next site' hfinish =>
    rw [hfinish] at ht hw
    split
    · exact .after ht hw (managed_begin site' d)
    · exact .still ht hw

theorem managed_halt (site : Site) (d : Driver) (thenStart : Bool) :
    Managed site (site.halt d thenStart).1 := by
  unfold halt
  split
  · exact managed_afterStop site d thenStart
  · next task _ => exact ⟨around_refl _, .inr (.inl ⟨task, .stop, rfl⟩)⟩

theorem managed_issue (site : Site) (c : Call) : Managed site (site.issue c).1 := by
  unfold issue
  split
  · exact .refl site
  next d _ =>
  cases c with
  | start =>
    dsimp only
    split
    · exact managed_halt site d true
    · exact managed_begin site d
  | stop => exact managed_halt site d false
  | restart =>
    dsimp only
    split
    · exact managed_halt site d true
    · exact .refl site
  | wait =>
    dsimp only
    split <;> exact .refl site
  | updateModel model =>
    dsimp only
    split
    · refine .after ?_ ?_ (managed_halt _ _ true)
      · rfl
      · exact around_refl _
    · exact .still rfl (around_refl _)
  | write name value =>
    dsimp only
    split
    · exact .refl site
    · next task _ =>
      split
      · exact ⟨around_refl _, .inr (.inl ⟨task, _, rfl⟩)⟩
      · exact .refl site

theorem managed_look (site : Site) (p : Pending) : Managed site (site.look p).1 := by
  unfold look
  split
  · exact .refl site
  next d _ =>
  cases p with
  | stopping task thenStart =>
    dsimp only
    split
    · exact .refl site
    · exact managed_afterStop site d thenStart
  | ending task =>
    dsimp only
    split
    · exact .refl site
    · exact .still rfl (around_refl _)
    · exact .refl site
  | writing task ticket =>
    dsimp only
    split
    · exact .refl site
    · split <;> exact .refl site

theorem surroundings_release (site : Site) : site.release.surroundings = site.surroundings := by
  unfold release
  dsimp only
  split <;> rfl

theorem length_release (site : Site) : site.release.tasks.length = site.tasks.length := by
  unfold release
  dsimp only
  split
  · exact List.length_modify _ _ _
  · rfl

theorem runs_release (h : site.release.Runs task r) :
    ∃ r₀, site.Runs task r₀ ∧ r.session = r₀.session := by
  unfold release at h
  dsimp only at h
  split at h
  · next known _ =>
    have h : (site.onReactor known fun r => { r with inboxClosed := true }).Runs task r := h
    obtain ⟨r₀, h₀, hr⟩ := runs_onReactor.mp h
    refine ⟨r₀, h₀, ?_⟩
    rw [hr]
    split <;> rfl
  · exact ⟨r, h, rfl⟩

end Site

/-! ## What is kept up -/

namespace Scene

variable {scene scene' : Scene} {site site' : Site} {pending pending' : Option Pending}

/-- The time of a scene. -/
def clock (scene : Scene) : Nat :=
  scene.site.surroundings.now

/-- What is kept up in a scene: besides who holds the connections, that the session of a reactor is
in order, and that it looks for commands while there is a driver to give some. -/
structure Upheld (scene : Scene) : Prop where
  sound : scene.Sound
  steady : ∀ {task r}, scene.site.Runs task r → r.session.Steady scene.clock
  attended : ∀ {task r d}, scene.site.Runs task r → scene.site.driver = some d → r.Attended

/-- A call keeps up what the driver it is made on had kept up. -/
theorem Upheld.managed {d : Driver} (h : Upheld ⟨site, pending⟩) (hd : site.driver = some d)
    (hm : site.Managed site') (hs : Sound ⟨site', pending'⟩) : Upheld ⟨site', pending'⟩ := by
  have hclock : clock ⟨site', pending'⟩ = clock ⟨site, pending⟩ := hm.around.now
  refine ⟨hs, fun hr => ?_, fun hr _ => ?_⟩
  · rw [hclock]
    cases hm.origin hr with
    | same h₀ => exact h.steady h₀
    | told r₀ c h₀ hr₀ =>
      have hsteady := h.steady h₀
      rw [hr₀]
      exact hsteady
    | begun name path model catalog _ hr₀ =>
      rw [hr₀]
      exact Session.Steady.launch name model catalog _
  · cases hm.origin hr with
    | same h₀ => exact h.attended h₀ hd
    | told r₀ c h₀ hr₀ =>
      rw [hr₀]
      exact ⟨(h.attended h₀ hd).inbox, (h.attended h₀ hd).commands⟩
    | begun _ _ _ _ _ hr₀ =>
      rw [hr₀]
      exact ⟨rfl, rfl⟩

theorem Step.upheld (h : scene.Upheld) (hs : Step scene scene') : scene'.Upheld := by
  have hsound := hs.sound h.sound
  cases hs with
  | @react site pending task r w after hr hstep =>
    have hclock : w.now = site.surroundings.now := hstep.around.now
    refine ⟨hsound, fun hj => ?_, fun hj hd => ?_⟩
    · rcases runs_set hr hj with ⟨rfl, rfl⟩ | ⟨-, hj⟩
      · have hnext := (h.steady hr).driven (hstep.driven (h.sound.orderly.owns hr).1)
        exact hnext.later (Nat.le_of_eq hclock.symm)
      · exact (h.steady hj).later (Nat.le_of_eq hclock.symm)
    · rcases runs_set hr hj with ⟨rfl, rfl⟩ | ⟨-, hj⟩
      · exact hstep.heeds.attended (h.attended hr hd)
      · exact h.attended hj hd
  | issue hd c =>
    rw [ofProgress_eq] at hsound ⊢
    exact h.managed hd (Site.managed_issue _ c) hsound
  | @look site p =>
    obtain ⟨d, hd, -⟩ := h.sound.called rfl
    rw [ofProgress_eq] at hsound ⊢
    exact h.managed hd (Site.managed_look _ p) hsound
  | abandon _ => exact ⟨hsound, h.steady, h.attended⟩
  | @drop site =>
    refine ⟨hsound, fun hj => ?_, fun _ => nofun⟩
    obtain ⟨r₀, h₀, hsession⟩ := Site.runs_release hj
    have hclock : Scene.clock ⟨site.release, none⟩ = Scene.clock ⟨site, none⟩ :=
      congrArg Surroundings.now site.surroundings_release
    rw [hsession, hclock]
    exact h.steady h₀
  | clock _ => exact ⟨hsound, fun hr => (h.steady hr).later (Nat.le_add_right _ _), h.attended⟩
  | network _ => exact ⟨hsound, h.steady, h.attended⟩
  | host _ => exact ⟨hsound, h.steady, h.attended⟩

theorem Steps.upheld (h : scene.Upheld) (hs : Steps scene scene') : scene'.Upheld := by
  induction hs with
  | refl => exact h
  | tail _ hstep ih => exact hstep.upheld ih

/-- Where no reactor runs at the beginning, everything is kept up. -/
theorem upheld_of_idle (h : site.Idle) : Upheld ⟨site, none⟩ :=
  ⟨sound_of_idle h, fun hr => absurd hr (h.runs _ _), fun hr => absurd hr (h.runs _ _)⟩

/-! ## Reactors that have ended -/

/-- The first `n` reactors have ended. -/
structure Retired (n : Nat) (scene : Scene) : Prop where
  begun : n ≤ scene.site.tasks.length
  ended : ∀ {task r}, scene.site.Runs task r → n ≤ task

theorem Retired.managed {n : Nat} (h : Retired n ⟨site, pending⟩) (hm : site.Managed site') :
    Retired n ⟨site', pending'⟩ := by
  refine ⟨Nat.le_trans h.begun hm.length_le, fun hr => ?_⟩
  cases hm.origin hr with
  | same h₀ => exact h.ended h₀
  | told _ _ h₀ _ => exact h.ended h₀
  | begun _ _ _ _ ht _ => exact ht ▸ h.begun

theorem Step.retired {n : Nat} (h : scene.Retired n) (hs : Step scene scene') :
    scene'.Retired n := by
  cases hs with
  | @react site _ task r w after hr _ =>
    refine ⟨?_, fun hj => ?_⟩
    · have hlength : (site.tasks.set task after).length = site.tasks.length := List.length_set
      exact Nat.le_trans h.begun (Nat.le_of_eq hlength.symm)
    · rcases runs_set hr hj with ⟨rfl, -⟩ | ⟨-, hj⟩
      · exact h.ended hr
      · exact h.ended hj
  | issue _ c =>
    rw [ofProgress_eq]
    exact h.managed (Site.managed_issue _ c)
  | look p =>
    rw [ofProgress_eq]
    exact h.managed (Site.managed_look _ p)
  | abandon _ => exact ⟨h.begun, h.ended⟩
  | @drop site =>
    refine ⟨?_, fun hj => ?_⟩
    · exact Nat.le_trans h.begun (Nat.le_of_eq site.length_release.symm)
    · obtain ⟨_, h₀, -⟩ := Site.runs_release hj
      exact h.ended h₀
  | clock _ => exact ⟨h.begun, h.ended⟩
  | network _ => exact ⟨h.begun, h.ended⟩
  | host _ => exact ⟨h.begun, h.ended⟩

/-- A reactor that has ended never runs again. -/
theorem Steps.retired {n : Nat} (h : scene.Retired n) (hs : Steps scene scene') :
    scene'.Retired n := by
  induction hs with
  | refl => exact h
  | tail _ hstep ih => exact hstep.retired ih

end Scene

end GemLink
