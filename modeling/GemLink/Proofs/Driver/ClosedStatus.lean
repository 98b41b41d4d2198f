import GemLink.Proofs.Driver.Calls
import GemLink.Proofs.Driver.Showing

/-!
What is stored of the connection of a driver that has been closed. The driver stores that its
machine is not connected when it begins, and at the end of a stop; in between its reactor stores
what becomes of the connection. `Scene.Shown` says what is stored at every moment, as long as nobody
else stores anything and storing works (`Scene.ReliableStep`).

So a call that closes the driver leaves behind that the machine is not connected, unless not all
alerts could be cleared; a reactor that waits has it stored rightly whether there is a connection;
and when no reactor runs, it is stored that there is none, or the last reactor was stopped
(`status_shown`). A stop alone stores nothing: where the call fails, or there is no driver any more
to end it, the machine may be shown as connected for good (`not_neverShows_failedStop`).
-/

namespace GemLink

/-- Whether a call closes the driver, or opens it anew. -/
def Call.closes : Call → Bool
  | .start | .stop | .restart | .updateModel _ => true
  | .wait | .write _ _ => false

namespace Scene

/-- One step of a scene with a reliable store: nobody else stores anything, and storing goes on to
work or to fail. -/
def ReliableStep : Scene → Scene → Prop :=
  StepWith fun host host' =>
    host'.config = host.config ∧ host'.configFailing = host.configFailing

/-- Some steps of a scene with a reliable store. -/
def ReliableSteps : Scene → Scene → Prop :=
  Relation.ReflTransGen ReliableStep

theorem OwnSteps.reliable {scene scene' : Scene} (h : OwnSteps scene scene') :
    ReliableSteps scene scene' :=
  Relation.ReflTransGen.mono (fun _ _ => StepWith.mono fun _ _ => False.elim) _ _ h

/-- A call that closes the driver, or opens it anew, returns: at once, or when looked at again. -/
inductive CloseReturns : Scene → Except LinkError Unit → Site → Prop
  | atOnce {site site' : Site} {d : Driver} {c : Call} {result : Except LinkError Unit}
      (hd : site.driver = some d) (hc : c.closes = true)
      (h : site.issue c = (site', .finished result)) : CloseReturns ⟨site, none⟩ result site'
  | later {site site' : Site} {task : Nat} {thenStart : Bool} {result : Except LinkError Unit}
      (h : site.look (.stopping task thenStart) = (site', .finished result)) :
      CloseReturns ⟨site, some (.stopping task thenStart)⟩ result site'

end Scene

/-! ## What calls store -/

namespace Site

variable {site site' site₀ : Site} {path : String} {d : Driver} {task : Nat} {r : Reactor}

/-- What is stored under a path. -/
def stored? (site : Site) (path : String) : Option Bool :=
  site.surroundings.stored? path

/-- Whether no reactor runs. -/
def Still (site : Site) : Prop :=
  ∀ task r, ¬ site.Runs task r

/-- The reactors are the same, but for what they have been told. -/
structure Alike (site site' : Site) : Prop where
  runs : ∀ {task r}, site'.Runs task r →
    ∃ r₀, site.Runs task r₀ ∧ r.session = r₀.session ∧ r.statusPath = r₀.statusPath
  length : site'.tasks.length = site.tasks.length
  still : site'.Still → site.Still ∧ site'.tasks = site.tasks

theorem Still.same (h : site.Still) (ht : site'.tasks = site.tasks) : site'.Still := by
  intro task r hr
  exact h task r (by rwa [Runs, ← ht])

theorem alike_of_eq (ht : site'.tasks = site.tasks) : site.Alike site' :=
  ⟨fun hr => ⟨_, by rwa [Runs, ← ht], rfl, rfl⟩, congrArg _ ht, fun h => ⟨h.same ht.symm, ht⟩⟩

/-- A task that does not run is told nothing. -/
theorem tasks_onReactor (h : site.Still) (task : Nat) (f : Reactor → Reactor) :
    (site.onReactor task f).tasks = site.tasks := by
  refine List.ext_getElem? fun j => ?_
  unfold onReactor
  rw [List.getElem?_modify]
  cases hj : site.tasks[j]? with
  | none => rfl
  | some t =>
    cases t with
    | running r => exact absurd hj (h j r)
    | ended outcome => simp

theorem alike_onReactor {f : Reactor → Reactor} (ht : site'.tasks = (site.onReactor task f).tasks)
    (hf : ∀ r : Reactor, (f r).session = r.session ∧ (f r).statusPath = r.statusPath) :
    site.Alike site' := by
  have hlength : site'.tasks.length = site.tasks.length := by
    rw [ht]
    exact List.length_modify _ _ _
  have hruns : ∀ {j r}, site'.Runs j r ↔ (site.onReactor task f).Runs j r := by
    intro j r
    rw [Runs, ht, Runs]
  refine ⟨fun {j r} hr => ?_, hlength, fun hstill => ?_⟩
  · obtain ⟨r₀, h₀, rfl⟩ := runs_onReactor.mp (hruns.mp hr)
    refine ⟨r₀, h₀, ?_⟩
    split
    · exact hf r₀
    · exact ⟨rfl, rfl⟩
  · have hbefore : site.Still := fun j r hr =>
      hstill j _ (hruns.mpr (runs_onReactor.mpr ⟨r, hr, rfl⟩))
    exact ⟨hbefore, ht.trans (tasks_onReactor hbefore task f)⟩

theorem alike_tell {c : Command} (ht : site'.tasks = (site.tell task c).tasks) :
    site.Alike site' :=
  alike_onReactor ht fun _ => ⟨rfl, rfl⟩

/-- What a call, or a look at one, does to the reactors and to what is stored. -/
inductive Does (path : String) (site site' : Site) : Prop
  /-- A reactor is told something, if anything. -/
  | tells (hs : site'.stored? path = site.stored? path) (ht : site.Alike site')
  /-- It is stored that the machine is not connected. -/
  | stores (hr : site.Still) (hs : site'.stored? path = some false) (ht : site'.tasks = site.tasks)
  /-- The same, and a reactor begins. -/
  | begins (hr : site.Still) (hs : site'.stored? path = some false) (name : String) (model : Model)
      (catalog : Catalog)
      (ht : site'.tasks = site.tasks ++ [.running (Reactor.fresh name path model catalog)])

/-- What a call, or a look at one, does, besides to the driver: storing goes on to work, the machine
of the driver remains, and a driver that still has never been started begins no reactor. -/
structure Acted (path : String) (site site' : Site) : Prop where
  works : site'.surroundings.host.configFailing = false
  statusPath : ∀ {d'}, site'.driver = some d' → d'.machine.statusPath = path
  unused : ∀ {d'}, site'.driver = some d' → d'.hasSink = false →
    (∃ d, site.driver = some d ∧ d.hasSink = false) ∧ site'.tasks.length = site.tasks.length
  does : site.Does path site'

/-- The driver of a site, whose status is stored under a path and whose host stores. -/
structure Drives (path : String) (site : Site) (d : Driver) : Prop where
  driver : site.driver = some d
  statusPath : d.machine.statusPath = path
  works : site.surroundings.host.configFailing = false

/-- A call that leaves everything as it is. -/
theorem Drives.acted (h : site.Drives path d) : site.Acted path site := by
  refine ⟨h.works, fun hd => ?_, fun hd hs => ⟨⟨_, hd, hs⟩, rfl⟩, .tells rfl (alike_of_eq rfl)⟩
  cases h.driver.symm.trans hd
  exact h.statusPath

/-- What is done before, to the driver alone, does not count. -/
theorem Acted.after (h : site₀.Acted path site') (hw : site₀.surroundings = site.surroundings)
    (ht : site₀.tasks = site.tasks)
    (hd : ∀ {d₀}, site₀.driver = some d₀ → d₀.hasSink = false →
      ∃ d, site.driver = some d ∧ d.hasSink = false) : site.Acted path site' := by
  have hstored : site₀.stored? path = site.stored? path := by rw [stored?, hw, stored?]
  have hstill : site₀.Still → site.Still := fun h => h.same ht.symm
  refine ⟨h.works, h.statusPath, fun hd' hs => ?_, ?_⟩
  · obtain ⟨⟨_, hd₀, hs₀⟩, hlength⟩ := h.unused hd' hs
    exact ⟨hd hd₀ hs₀, by rw [hlength, ht]⟩
  · cases h.does with
    | tells hs hsame =>
      refine .tells (hs.trans hstored) ⟨fun hr => ?_, by rw [hsame.length, ht], fun hs => ?_⟩
      · obtain ⟨r₀, h₀, hr⟩ := hsame.runs hr
        exact ⟨r₀, by rwa [Runs, ← ht], hr⟩
      · exact ⟨hstill (hsame.still hs).1, (hsame.still hs).2.trans ht⟩
    | stores hr hs htasks => exact .stores (hstill hr) hs (htasks.trans ht)
    | begins hr hs name model catalog htasks =>
      exact .begins (hstill hr) hs name model catalog (by rw [htasks, ht])

theorem stored?_reportCatalog (machine : String) (w : Surroundings)
    (catalog : Except LinkError Catalog) (path : String) :
    (reportCatalog machine w catalog).stored? path = w.stored? path :=
  reportCatalog_keeps (P := fun w' => w'.stored? path = w.stored? path) (fun _ _ => id)
    (fun _ _ => id) rfl machine catalog

/-- A driver that begins stores that its machine is not connected; a reactor begins or not. -/
theorem begin_cases (hw : site.surroundings.host.configFailing = false) (d : Driver) :
    ∃ w : Surroundings, w.stored? d.machine.statusPath = some false ∧
      w.host.configFailing = false ∧
      ((site.begin d).1 = { site with
          surroundings := w, driver := some { d with hasSink := true, running := none } } ∨
        ∃ name model catalog, (site.begin d).1 = { site with
          surroundings := w
          tasks := site.tasks ++
            [.running (Reactor.fresh name d.machine.statusPath model catalog)]
          driver := some { d with hasSink := true, running := some site.tasks.length } }) := by
  have hstored := Surroundings.stored?_storeStatus hw d.machine.statusPath false
  have hworks := (site.surroundings.around_storeStatus d.machine.statusPath false).config.trans hw
  have hreport := fun catalog => (stored?_reportCatalog d.machine.info.name
    (site.surroundings.storeStatus d.machine.statusPath false) catalog
    d.machine.statusPath).trans hstored
  have hreportWorks := fun catalog => (around_reportCatalog d.machine.info.name
    (site.surroundings.storeStatus d.machine.statusPath false) catalog).config.trans hworks
  unfold Site.begin
  dsimp only
  split
  · exact ⟨_, hstored, hworks, .inl rfl⟩
  · split
    · exact ⟨_, hreport _, hreportWorks _, .inl rfl⟩
    · exact ⟨_, hreport _, hreportWorks _, .inr ⟨_, _, _, rfl⟩⟩

/-- What has been done to a site `site₀` before its driver begins, without touching a reactor, does
not count. -/
theorem Drives.begin (h : site.Drives path d) (ht : site.tasks = site₀.tasks) (hr : site₀.Still) :
    site₀.Acted path (site.begin d).1 ∧ (site.begin d).1.stored? path = some false := by
  obtain rfl := h.statusPath
  obtain ⟨w, hstored, hworks, hsite | ⟨name, model, catalog, hsite⟩⟩ := begin_cases h.works d
  · rw [hsite]
    refine ⟨⟨hworks, ?_, ?_, .stores hr hstored ht⟩, hstored⟩
    · rintro _ ⟨⟩
      rfl
    · rintro _ ⟨⟩ ⟨⟩
  · rw [hsite]
    refine ⟨⟨hworks, ?_, ?_, .begins hr hstored name model catalog (by rw [ht])⟩, hstored⟩
    · rintro _ ⟨⟩
      rfl
    · rintro _ ⟨⟩ ⟨⟩

theorem clearAll_cases (h : Host) : (∃ h' : Host, h.clearAll = (h', .error .lock) ∧
      h'.config = h.config ∧ h'.configFailing = h.configFailing) ∨
    ∃ h' : Host, h.clearAll = (h', .ok ()) ∧ h'.configFailing = h.configFailing := by
  unfold Host.clearAll
  dsimp only
  split
  · exact .inl ⟨_, rfl, rfl, rfl⟩
  · exact .inr ⟨_, rfl, rfl⟩

/-- The end of a stop fails if not all alerts can be cleared, and else stores that the machine is
not connected. -/
theorem finishStop_cases (hw : site.surroundings.host.configFailing = false) (d : Driver) :
    ∃ w : Surroundings, w.host.configFailing = false ∧
      ((site.finishStop d = ({ site with surroundings := w }, .error (.host .lock)) ∧
          w.stored? d.machine.statusPath = site.stored? d.machine.statusPath) ∨
        (site.finishStop d = ({ site with surroundings := w }, .ok ()) ∧
          w.stored? d.machine.statusPath = some false)) := by
  unfold Site.finishStop
  rcases clearAll_cases site.surroundings.host with ⟨host, hclear, hc, hf⟩ | ⟨host, hclear, hf⟩
  · rw [hclear]
    refine ⟨{ site.surroundings with host }, hf.trans hw, .inl ⟨rfl, ?_⟩⟩
    exact congrArg (Keyed.get? · _) hc
  · rw [hclear]
    have hworks : Host.configFailing (Surroundings.host { site.surroundings with host }) = false :=
      hf.trans hw
    exact ⟨_, (Surroundings.around_storeStatus _ _ _).config.trans hworks,
      .inr ⟨rfl, Surroundings.stored?_storeStatus hworks _ false⟩⟩

/-- What a call has done to a site from which it returns, if it does: unless not all alerts could be
cleared, it is stored that the machine is not connected. -/
def Closed (path : String) (site : Site) (x : Site × Progress) : Prop :=
  site.Acted path x.1 ∧ ∀ result, x.2 = .finished result → result ≠ .error (.host .lock) →
    x.1.stored? path = some false

theorem Drives.afterStop (h : site.Drives path d) (hr : site.Still) (thenStart : Bool) :
    site.Closed path (site.afterStop d thenStart) := by
  obtain rfl := h.statusPath
  obtain ⟨w, hw, ⟨hfinish, hstored⟩ | ⟨hfinish, hstored⟩⟩ := finishStop_cases h.works d
  · unfold Site.afterStop
    rw [hfinish]
    refine ⟨⟨hw, fun hd => ?_, fun hd hs => ⟨⟨_, hd, hs⟩, rfl⟩,
      .tells hstored (alike_of_eq rfl)⟩, ?_⟩
    · cases h.driver.symm.trans hd
      rfl
    · rintro _ ⟨⟩ hfailed
      exact absurd rfl hfailed
  · have hdrives : Drives d.machine.statusPath { site with surroundings := w } d :=
      ⟨h.driver, rfl, hw⟩
    have hbegin : site.Acted d.machine.statusPath _ ∧ _ := hdrives.begin rfl hr
    unfold Site.afterStop
    rw [hfinish]
    dsimp only
    split
    · exact ⟨hbegin.1, fun _ _ _ => hbegin.2⟩
    · refine ⟨⟨hw, fun hd => ?_, fun hd hs => ⟨⟨_, hd, hs⟩, rfl⟩, .stores hr hstored rfl⟩,
        fun _ _ _ => hstored⟩
      cases h.driver.symm.trans hd
      rfl

theorem Drives.halt (h : site.Drives path d) (hr : d.running = none → site.Still)
    (thenStart : Bool) : site.Closed path (site.halt d thenStart) := by
  unfold Site.halt
  split
  · next hnone => exact h.afterStop (hr hnone) thenStart
  · refine ⟨⟨h.works, ?_, ?_, .tells rfl (alike_tell rfl)⟩, nofun⟩
    · rintro _ ⟨⟩
      exact h.statusPath
    · rintro _ ⟨⟩ hs
      exact ⟨⟨d, h.driver, hs⟩, List.length_modify _ _ _⟩

/-- A call that closes the driver, or opens it anew. -/
theorem Drives.closed (h : site.Drives path d) (hr : d.running = none → site.Still)
    (hunused : d.hasSink = false → site.stored? path = some false) {c : Call}
    (hc : c.closes = true) : site.Closed path (site.issue c) := by
  unfold Site.issue
  rw [h.driver]
  cases c with
  | start =>
    dsimp only
    split
    · exact h.halt hr true
    · next hnone =>
      have hbegin : site.Acted path _ ∧ _ := h.begin rfl (hr (by simpa using hnone))
      exact ⟨hbegin.1, fun _ _ _ => hbegin.2⟩
  | stop => exact h.halt hr false
  | restart =>
    dsimp only
    split
    · exact h.halt hr true
    · next hnever => exact ⟨h.acted, fun _ _ _ => hunused (by simpa using hnever)⟩
  | updateModel model =>
    have hnew : Drives path
        { site with driver := some { d with machine := { d.machine with model } } }
        { d with machine := { d.machine with model } } :=
      ⟨rfl, h.statusPath, h.works⟩
    have hafter : ∀ {site'}, Acted path
        { site with driver := some { d with machine := { d.machine with model } } } site' →
        site.Acted path site' := fun hacted =>
      hacted.after rfl rfl fun hd hs => by
        cases hd
        exact ⟨d, h.driver, hs⟩
    dsimp only
    split
    · obtain ⟨hacted, hstored⟩ := hnew.halt hr true
      exact ⟨hafter hacted, hstored⟩
    · next hnever => exact ⟨hafter hnew.acted, fun _ _ _ => hunused (by simpa using hnever)⟩
  | wait | write _ _ => cases hc

theorem Drives.acted_issue (h : site.Drives path d) (hr : d.running = none → site.Still)
    (hunused : d.hasSink = false → site.stored? path = some false) (c : Call) :
    site.Acted path (site.issue c).1 := by
  cases c with
  | wait =>
    unfold Site.issue
    rw [h.driver]
    dsimp only
    split <;> exact h.acted
  | write name value =>
    unfold Site.issue
    rw [h.driver]
    dsimp only
    split
    · exact h.acted
    · next task _ =>
      split
      · refine ⟨h.works, ?_, ?_, .tells rfl (alike_tell rfl)⟩
        · rintro _ ⟨⟩
          exact h.statusPath
        · rintro _ ⟨⟩ hs
          exact ⟨⟨d, h.driver, hs⟩, List.length_modify _ _ _⟩
      · exact h.acted
  | start | stop | restart | updateModel _ => exact (h.closed hr hunused rfl).1

/-- A look at a call that waits for the end of a reactor. -/
theorem Drives.look_stopping (h : site.Drives path d) (thenStart : Bool)
    (hr : (∀ r, ¬ site.Runs task r) → site.Still) :
    site.Closed path (site.look (.stopping task thenStart)) := by
  unfold Site.look
  rw [h.driver]
  dsimp only
  split
  · exact ⟨h.acted, nofun⟩
  · next hnot => exact h.afterStop (hr hnot) thenStart

theorem Drives.acted_look (h : site.Drives path d) {p : Pending} (hp : p.isStop = false) :
    site.Acted path (site.look p).1 := by
  unfold Site.look
  rw [h.driver]
  cases p with
  | stopping _ _ => cases hp
  | ending task =>
    dsimp only
    split
    · exact h.acted
    · refine ⟨h.works, fun hd => ?_, fun hd hs => ?_, .tells rfl (alike_of_eq rfl)⟩
      · obtain ⟨d', hd', rfl⟩ := Option.map_eq_some_iff.mp hd
        cases h.driver.symm.trans hd'
        exact h.statusPath
      · obtain ⟨d', hd', rfl⟩ := Option.map_eq_some_iff.mp hd
        exact ⟨⟨d', hd', hs⟩, rfl⟩
    · exact h.acted
  | writing task ticket =>
    dsimp only
    split
    · exact h.acted
    · split <;> exact h.acted

theorem acted_release (hw : site.surroundings.host.configFailing = false) :
    site.Acted path site.release := by
  have hsurroundings := site.surroundings_release
  refine ⟨by rwa [hsurroundings], nofun, nofun, .tells ?_ ?_⟩
  · rw [stored?, hsurroundings, stored?]
  · unfold release
    dsimp only
    split
    · exact alike_onReactor rfl fun _ => ⟨rfl, rfl⟩
    · exact alike_of_eq rfl

end Site

/-! ## What is stored at every moment -/

namespace Scene

variable {scene scene' : Scene} {site site' : Site} {pending pending' : Option Pending}
  {path : String}

/-- What is stored at every moment: the last reactor has it stored, if it runs, and else it is
stored that the machine is not connected, unless the last reactor was stopped. -/
structure Shown (path : String) (scene : Scene) : Prop where
  upheld : scene.Upheld
  works : scene.site.surroundings.host.configFailing = false
  statusPath : ∀ {d}, scene.site.driver = some d → d.machine.statusPath = path
  unused : ∀ {d}, scene.site.driver = some d → d.hasSink = false → scene.site.tasks = []
  running : ∀ {task r}, scene.site.Runs task r → task + 1 = scene.site.tasks.length ∧
    (ReactorTask.running r).Shows path scene.site.surroundings
  still : scene.site.Still → scene.site.stored? path = some false ∨
    scene.site.tasks.getLast? = some (.ended (.ok ()))

namespace Shown

theorem drives (h : Shown path ⟨site, pending⟩) {d : Driver} (hd : site.driver = some d) :
    site.Drives path d :=
  ⟨hd, h.statusPath hd, h.works⟩

/-- A driver that has never been started is not shown as connected. -/
theorem stored_of_unused (h : Shown path ⟨site, pending⟩) {d : Driver} (hd : site.driver = some d)
    (hs : d.hasSink = false) : site.stored? path = some false := by
  have hnil : site.tasks = [] := h.unused hd hs
  refine (h.still fun task r hr => ?_).resolve_right fun hlast => ?_
  · have hr : site.tasks[task]? = some (.running r) := hr
    rw [hnil] at hr
    cases hr
  · have hlast : site.tasks.getLast? = some (.ended (.ok ())) := hlast
    rw [hnil] at hlast
    cases hlast

theorem react {task : Nat} {r : Reactor} {w : Surroundings} {after : ReactorTask}
    (h : Shown path ⟨site, pending⟩) (hr : site.Runs task r)
    (hs : r.Step site.surroundings w after)
    (hu : Upheld ⟨{ site with surroundings := w, tasks := site.tasks.set task after }, pending⟩) :
    Shown path ⟨{ site with surroundings := w, tasks := site.tasks.set task after }, pending⟩ := by
  obtain ⟨hlast, hshows⟩ := h.running hr
  have hlast : task + 1 = site.tasks.length := hlast
  have hself : (site.tasks.set task after)[task]? = some after :=
    List.getElem?_set_self (by omega)
  have hafter : after.Shows path w :=
    hs.shows h.works (h.upheld.sound.orderly.owns hr).1 (h.upheld.steady hr).consistent hshows
  refine ⟨hu, hs.around.config.trans h.works, h.statusPath, fun hd hsink => ?_, fun hj => ?_,
    fun hstill => ?_⟩
  · have hnil : site.tasks = [] := h.unused hd hsink
    rw [hnil] at hlast
    cases hlast
  · rcases runs_set hr hj with ⟨rfl, rfl⟩ | ⟨hne, hj⟩
    · exact ⟨by rw [List.length_set]; exact hlast, hafter⟩
    · exact absurd (h.upheld.sound.orderly.one hj hr) hne
  · cases after with
    | running r' => exact absurd hself (hstill task r')
    | ended outcome =>
      -- The task that has just ended is the last one.
      refine hafter.imp id fun hok => ?_
      rw [List.getLast?_eq_getElem?, List.length_set, ← hlast, Nat.add_sub_cancel, hself, hok]

theorem acted (h : Shown path ⟨site, pending⟩) (ha : site.Acted path site')
    (hu : Upheld ⟨site', pending'⟩) : Shown path ⟨site', pending'⟩ := by
  refine ⟨hu, ha.works, ha.statusPath, fun hd hs => ?_, fun {task r} hr => ?_, fun hstill => ?_⟩
  · obtain ⟨⟨d, hd, hs⟩, hlength⟩ := ha.unused hd hs
    have hnil : site.tasks = [] := h.unused hd hs
    rw [hnil] at hlength
    exact List.eq_nil_of_length_eq_zero hlength
  · cases ha.does with
    | tells hs hsame =>
      obtain ⟨r₀, h₀, hsession, hpath⟩ := hsame.runs hr
      obtain ⟨hlast, hpath₀, hshows⟩ := h.running h₀
      have hstored : site'.surroundings.stored? path = site.surroundings.stored? path := hs
      refine ⟨hlast.trans hsame.length.symm, hpath.trans hpath₀, ?_⟩
      rw [hsession, hstored]
      exact hshows
    | stores hnone hs ht => exact absurd hr (hnone.same ht task r)
    | begins hnone hs name model catalog ht =>
      -- Only the new reactor runs, and the driver has stored just before that it is not connected.
      have hr : site'.tasks[task]? = some (.running r) := hr
      rw [ht] at hr
      rcases runs_concat hr with hr | ⟨rfl, rfl⟩
      · exact absurd hr (hnone task r)
      · have hstored : site'.surroundings.stored? path = some false := hs
        refine ⟨by rw [ht, List.length_append]; rfl, rfl, ?_⟩
        rw [hstored]
        exact Session.shows_launch name model catalog
  · cases ha.does with
    | tells hs hsame =>
      obtain ⟨hbefore, ht⟩ := hsame.still hstill
      exact (h.still hbefore).imp hs.trans fun hlast => ht ▸ hlast
    | stores _ hs _ => exact .inl hs
    | begins _ hs _ _ _ _ => exact .inl hs

/-- What changes neither the driver nor the reactors nor what is stored. -/
theorem same (h : Shown path ⟨site, pending⟩) (ht : site'.tasks = site.tasks)
    (hd : site'.driver = site.driver)
    (hc : site'.surroundings.host.config = site.surroundings.host.config)
    (hf : site'.surroundings.host.configFailing = site.surroundings.host.configFailing)
    (hu : Upheld ⟨site', pending'⟩) : Shown path ⟨site', pending'⟩ := by
  have hstored : site'.stored? path = site.stored? path := congrArg (Keyed.get? · path) hc
  refine h.acted ⟨hf.trans h.works, fun hd' => h.statusPath (hd ▸ hd'), fun hd' hs => ?_,
    .tells hstored (Site.alike_of_eq ht)⟩ hu
  exact ⟨⟨_, hd ▸ hd', hs⟩, congrArg List.length ht⟩

theorem still_of_unknown (h : Shown path ⟨site, none⟩) {d : Driver} (hd : site.driver = some d)
    (hr : d.running = none) : site.Still :=
  (h.upheld.sound.idle_of_unknown hd hr).runs

/-- A look at a call that closes the driver. -/
theorem look_stopping {task : Nat} {thenStart : Bool}
    (h : Shown path ⟨site, some (.stopping task thenStart)⟩) :
    site.Closed path (site.look (.stopping task thenStart)) := by
  obtain ⟨d, hd, -⟩ := h.upheld.sound.called rfl
  exact (h.drives hd).look_stopping thenStart fun hnot =>
    (h.upheld.sound.idle_of_stopped hnot).runs

theorem acted_look {p : Pending} (h : Shown path ⟨site, some p⟩) :
    site.Acted path (site.look p).1 := by
  obtain ⟨d, hd, -⟩ := h.upheld.sound.called rfl
  cases p with
  | stopping task thenStart => exact h.look_stopping.1
  | ending _ | writing _ _ => exact (h.drives hd).acted_look rfl

/-- When a call returns that closes the driver, it is stored that the machine is not connected,
unless not all alerts could be cleared. -/
theorem returns {result : Except LinkError Unit} (h : Shown path scene)
    (hs : scene.CloseReturns result site') (hr : result ≠ .error (.host .lock)) :
    site'.stored? path = some false := by
  cases hs with
  | @atOnce site _ d c _ hd hc hi =>
    have hclosed := (h.drives hd).closed (h.still_of_unknown hd) (h.stored_of_unused hd) hc
    rw [hi] at hclosed
    exact hclosed.2 result rfl hr
  | later hl =>
    have hclosed := h.look_stopping
    rw [hl] at hclosed
    exact hclosed.2 result rfl hr

end Shown

theorem ReliableStep.shown (h : scene.Shown path) (hs : ReliableStep scene scene') :
    scene'.Shown path := by
  have hu := hs.step.upheld h.upheld
  cases hs with
  | react hr hstep => exact h.react hr hstep hu
  | issue hd c =>
    rw [ofProgress_eq] at hu ⊢
    exact h.acted ((h.drives hd).acted_issue (h.still_of_unknown hd) (h.stored_of_unused hd) c) hu
  | look p =>
    rw [ofProgress_eq] at hu ⊢
    exact h.acted h.acted_look hu
  | abandon _ => exact h.same rfl rfl rfl rfl hu
  | drop => exact h.acted (Site.acted_release h.works) hu
  | clock _ => exact h.same rfl rfl rfl rfl hu
  | network _ => exact h.same rfl rfl rfl rfl hu
  | host host hh => exact h.same rfl rfl hh.1 hh.2 hu

theorem ReliableSteps.shown (h : scene.Shown path) (hs : ReliableSteps scene scene') :
    scene'.Shown path := by
  induction hs with
  | refl => exact h
  | tail _ hstep ih => exact hstep.shown ih

/-- A new driver has stored that its machine is not connected. -/
theorem shown_ofMachine (reachable listening : Bool) (machine : Machine) :
    Shown machine.statusPath ⟨Site.ofMachine { reachable, listening } machine, none⟩ := by
  refine ⟨upheld_of_idle (Site.idle_ofMachine reachable listening machine), rfl, ?_, fun _ _ => rfl,
    nofun, fun _ => .inl ?_⟩
  · rintro _ ⟨⟩
    rfl
  · exact Surroundings.stored?_storeStatus (by rfl) machine.statusPath false

end Scene

/-- However a driver is called, and whatever happens to it, its equipment, the clock and the rest of
its host, as long as storing works and nobody else stores anything: when a call returns that closes
the driver, or opens it anew, it is stored that the machine is not connected, unless not all alerts
could be cleared; while a reactor waits, it is stored rightly whether there is a connection; and
when no reactor runs, of a driver that has been dropped as well, it is stored that there is none, or
the last reactor ended because it was stopped. Every call to stop, to restart or to change the model
is waited for: after one that is given up in the middle the old reactor and the next one would store
the status side by side. -/
theorem status_shown (reachable listening : Bool) (machine : Machine) {scene : Scene}
    (h : Scene.ReliableSteps ⟨Site.ofMachine { reachable, listening } machine, none⟩ scene) :
    (∀ result site', scene.CloseReturns result site' → result ≠ .error (.host .lock) →
      site'.stored? machine.statusPath = some false) ∧
    (∀ task r, scene.site.Runs task r → r.session.outbox = [] →
      scene.site.stored? machine.statusPath = some r.session.isConnected) ∧
    ((∀ task r, ¬ scene.site.Runs task r) →
      scene.site.stored? machine.statusPath = some false ∨
        scene.site.tasks.getLast? = some (.ended (.ok ()))) := by
  have hshown := h.shown (Scene.shown_ofMachine reachable listening machine)
  refine ⟨fun result site' hreturns hr => hshown.returns hreturns hr, fun task r hr ho => ?_,
    hshown.still⟩
  have hopened := (hshown.upheld.steady hr).opened ho
  have hright := (hshown.running hr).2.2.right hopened
  rw [ho] at hright
  exact hright

/-! ### Stops that leave the machine behind as connected -/

/-- Where the connection status of the machine of `freshSite` is stored. -/
def pressPath : String :=
  Machine.statusPath
    { info := { name := "press" }, model := { enable := true }, vars := [] }

/-- Why a call has failed, if it has returned and has. -/
def Progress.fault? : Progress → Option (Option LinkError)
  | .finished (.ok ()) => some none
  | .finished (.error fault) => some (some fault)
  | .pending _ => none

theorem Progress.eq_ok {x : Site × Progress} (h : x.2.fault? = some none) :
    x = (x.1, .finished (.ok ())) := by
  obtain ⟨site, progress⟩ := x
  cases progress with
  | finished result =>
    cases result with
    | ok _ => rfl
    | error _ => cases h
  | pending _ => cases h

theorem Progress.eq_error {x : Site × Progress} {fault : LinkError}
    (h : x.2.fault? = some (some fault)) : x = (x.1, .finished (.error fault)) := by
  obtain ⟨site, progress⟩ := x
  cases progress with
  | finished result =>
    cases result with
    | ok _ => cases h
    | error _ =>
      cases h
      rfl
  | pending _ => cases h

theorem status_shown_stoppingSite :
    stoppingSite.stored? pressPath = some true ∧
    ∃ site', Scene.CloseReturns ⟨stoppingSite, some (.stopping 0 false)⟩ (.ok ()) site' ∧
      site'.stored? pressPath = some false := by
  have hlook := Progress.eq_ok (x := stoppingSite.look (.stopping 0 false)) (by decide +kernel)
  have hshown := status_shown true true
    { info := { name := "press" }, model := { enable := true }, vars := [] }
    ownSteps_stoppingSite.reliable
  exact ⟨by decide +kernel, _, .later hlook, hshown.1 _ _ (.later hlook) nofun⟩

/-- A driver that has been started; from then on alerts cannot be cleared all at once. -/
def alarmedSite : Site :=
  startedSite.onSurroundings fun w =>
    { w with host := { w.host with alertsFailing := true } }

/-- The driver has been told to stop then, and has waited for an answer of the equipment as long as
it does. -/
def failedStopSite : Site :=
  (alarmedSite.call .stop).1.advance 2000

/-- The driver has been dropped, and its reactor has waited for an answer of the equipment as long
as it does. -/
def abandonedSite : Site :=
  startedSite.drop.advance 2000

/-- Whether a closed driver never shows as connected: when a call returns that closes it, whatever
its result, and when the reactor of a driver has ended that was dropped. -/
def Scene.NeverShows (path : String) (scene : Scene) : Prop :=
  (∀ result site', scene.CloseReturns result site' → site'.surroundings.network.held = [] →
    site'.stored? path = some false) ∧
  (scene.site.driver = none → (∀ task r, ¬ scene.site.Runs task r) →
    scene.site.surroundings.network.held = [] → scene.site.stored? path = some false)

theorem reliable_failedStopSite :
    Scene.ReliableSteps ⟨freshSite, none⟩ ⟨failedStopSite, some (.stopping 0 false)⟩ := by
  have halarmed : Scene.ReliableSteps ⟨freshSite, none⟩ ⟨alarmedSite, none⟩ :=
    ownSteps_startedSite.reliable.tail (.host _ ⟨rfl, rfl⟩)
  have hstop : Scene.OwnSteps ⟨alarmedSite, none⟩
      ⟨(alarmedSite.call .stop).1, some (.stopping 0 false)⟩ :=
    Scene.ownSteps_called (by decide +kernel) (by decide +kernel)
  exact (halarmed.trans hstop.reliable).trans (Scene.ownSteps_advance _ _ 2000).reliable

theorem reliable_abandonedSite :
    Scene.ReliableSteps ⟨freshSite, none⟩ ⟨abandonedSite, none⟩ :=
  (ownSteps_startedSite.reliable.trans (Scene.ownSteps_drop startedSite).reliable).trans
    (Scene.ownSteps_advance _ none 2000).reliable

theorem still_abandonedSite : ∀ task r, ¬ abandonedSite.Runs task r := by
  intro task r hr
  have hnone : abandonedSite.tasks.any ReactorTask.isRunning = false := by decide +kernel
  have hruns := List.any_eq_false.mp hnone _ (List.mem_of_getElem? hr)
  exact hruns rfl

theorem not_neverShows_failedStop :
    (Scene.ReliableSteps ⟨freshSite, none⟩ ⟨failedStopSite, some (.stopping 0 false)⟩ ∧
      ¬ Scene.NeverShows pressPath ⟨failedStopSite, some (.stopping 0 false)⟩) ∧
    (Scene.ReliableSteps ⟨freshSite, none⟩ ⟨abandonedSite, none⟩ ∧
      ¬ Scene.NeverShows pressPath ⟨abandonedSite, none⟩) := by
  refine ⟨⟨reliable_failedStopSite, fun h => ?_⟩, reliable_abandonedSite, fun h => ?_⟩
  · have hlook := Progress.eq_error (x := failedStopSite.look (.stopping 0 false))
      (show _ = some (some (.host .lock)) by decide +kernel)
    have hfalse := h.1 _ _ (.later hlook) (by decide +kernel)
    have htrue : (failedStopSite.look (.stopping 0 false)).1.stored? pressPath = some true := by
      decide +kernel
    rw [htrue] at hfalse
    cases hfalse
  · have hfalse := h.2 (Option.isNone_iff_eq_none.mp (by decide +kernel)) still_abandonedSite
      (by decide +kernel)
    have htrue : abandonedSite.stored? pressPath = some true := by decide +kernel
    have hfalse : abandonedSite.stored? pressPath = some false := hfalse
    rw [htrue] at hfalse
    cases hfalse

end GemLink
