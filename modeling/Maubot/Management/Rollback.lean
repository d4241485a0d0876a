import Maubot.Management.Replacement

namespace Maubot

/-!
# Replaced plugins — how updates end

The invariants of an update, one for each `await` of the handler.

* `Common` — what the instances keep, wherever the handler is;
* `Stopping`, `Starting`, `StoppingAgain`, `Restarting` — what it waits for;
* `committed_or_rolledBack` — every update ends committed or rolled back, if no failure is
  swallowed that the handler would have to see.
-/

open Prog Management ZipLoader Zipimport

namespace Replacement

variable {B E C Y M ι : Type}

section Run

variable {P : Platform B E C Y M} {c : Call B ι} {b : ι → Inst} {l : Loaders B E M}
  {s : Replacing B E M ι} {k : Nat} {o : Outcome} {t : Task ι} {cls : Ref}

/-- If the update loads, the class is that of the new file. -/
theorem imported_update (h : (update P c b l).1 = .ok cls) :
    Imported P c.plugin (begin P c b l).path cls (update P c b l).2 :=
  imported_reload (Prod.ext h rfl)

/-- If the old version loads again, the class is that of the old file. -/
theorem imported_restore (h : (restore P c b l).1 = .ok cls) :
    Imported P c.plugin (begin P c b l).oldPath cls (restore P c b l).2 :=
  imported_reload (Prod.ext h rfl)

/-- An instance that is disabled raises nothing. -/
theorem raised_disable (x : Inst) : x.disable.2.raised = none := by
  unfold Inst.disable
  split
  · rfl
  · rfl

/-- What the handler sees of a start can be rolled back. -/
theorem restorable_of_raised {x : Inst} {e : PyExc} (hstops : t.doing.stops = false)
    (hdone : t.doing.isDone = false)
    (ho : ∀ e, o.raised = some e → Bearable P c b l t o.guarded e)
    (h : (t.doing.step (.ok cls) o x).2.raised = some e) :
    e.isException = true ∧ Restorable P c b l := by
  have he := Doing.raised_of_step hdone h
  have hbear := ho e he
  unfold Bearable at hbear
  cases hd : t.doing with
  | start =>
    rw [hd] at h
    simp only [Doing.step] at h
    split at h
    next => cases h
    next => cases h
  | starting r =>
    rw [hd] at hbear h
    simp only [Doing.step, he] at h
    dsimp only at hbear
    split at hbear
    -- what the `try` around the database catches is logged, and not seen by the handler
    next hguard =>
      rw [if_pos hguard, raised_disable] at h
      cases h
    next => exact hbear
  | running =>
    rw [hd] at hbear h
    simp only [Doing.step, he, if_pos hbear.1, raised_disable] at h
    cases h
  | disabling =>
    rw [hd] at hbear
    exact hbear
  | done r =>
    rw [hd] at hdone
    cases hdone
  | _ =>
    rw [hd] at hstops
    cases hstops

/-- The start of an instance that ran comes on, or raises. -/
theorem goes_or_raises (hran : (b t.inst).started = true) {x : Inst} (hx : x.enabled = true)
    (ho : ∀ e, o.raised = some e → Bearable P c b l t o.guarded e)
    (hgoing : t.doing.going = true)
    (hraised : (t.doing.step (.ok cls) o x).2.raised = none) :
    (t.doing.step (.ok cls) o x).2.going = true ∨
      (t.doing.step (.ok cls) o x).1.started = true := by
  refine Doing.goes_on (fun hstart => ?_) hgoing hx
  by_contra hne
  obtain ⟨e, he⟩ := Option.ne_none_iff_exists'.mp hne
  have hbear := ho e he
  unfold Bearable at hbear
  cases hd : t.doing with
  | start => exact hstart hd
  | starting r =>
    rw [hd] at hbear hraised
    dsimp only at hbear
    split at hbear
    next =>
      rw [hran] at hbear
      cases hbear
    next hguard =>
      simp only [Doing.step, he, if_neg hguard] at hraised
      cases hraised
  | running =>
    rw [hd] at hbear
    have hnot := hbear.2
    rw [hran] at hnot
    cases hnot
  | _ =>
    rw [hd] at hgoing
    cases hgoing

/-! ### What the handler waits for -/

/-- A start of the last `gather` is on its way. -/
def Going (s : Replacing B E M ι) (i : ι) : Prop :=
  ∃ k t, s.gathered ≤ k ∧ s.tasks[k]? = some t ∧ t.inst = i ∧ t.doing.going = true

/-- The instances that are wanted run, or will. -/
def Coming (s : Replacing B E M ι) (wanted : ι → Prop) : Prop :=
  ∀ i, wanted i → (s.instances i).started = true ∨ Going s i

/-- The last `gather` is of stops, and no other coroutine is one. -/
structure Halting (s : Replacing B E M ι) : Prop where
  raised : s.raised = none
  last   : ∀ k t, s.tasks[k]? = some t → s.gathered ≤ k →
    t.doing.stops = true ∨ t.doing = .done none
  late   : ∀ k t, s.tasks[k]? = some t → k < s.gathered → t.doing.stops = false

/-- Once all has settled, the coroutines of the last `gather` have ended. -/
theorem done_of_settled (h : Settled s) (hraised : s.raised = none) (hk : s.gathered ≤ k)
    (ht : s.tasks[k]? = some t) : t.doing.isDone = true := by
  refine h.resolve_left (not_not.mpr hraised) t ?_
  refine List.mem_of_getElem? (i := k - s.gathered) ?_
  rw [List.getElem?_drop, Nat.add_sub_cancel' hk]
  exact ht

/-- Where all tasks have ended without an exception, the instances that were to come are
    started. -/
theorem started_of_settled {wanted : ι → Prop} (h : Coming s wanted) (hsettled : Settled s)
    (hraised : s.raised = none) {i : ι} (hi : wanted i) : (s.instances i).started = true := by
  refine (h i hi).resolve_right ?_
  rintro ⟨k, t, hk, ht, -, hgoing⟩
  have hnot := Doing.going_of_done (done_of_settled hsettled hraised hk ht)
  rw [hgoing] at hnot
  cases hnot

/-- A halt that has settled has no stop left. -/
theorem Halting.starts (h : Halting s) (hsettled : Settled s) :
    ∀ t ∈ s.tasks, t.doing.stops = false := by
  intro t ht
  obtain ⟨k, hk⟩ := List.mem_iff_getElem?.mp ht
  by_cases hlast : s.gathered ≤ k
  · exact Doing.stops_of_done (done_of_settled hsettled h.raised hlast hk)
  · exact h.late k t hk (Nat.lt_of_not_le hlast)

/-! ### The phases of an update -/

/-- Before the reload: no instance runs but those whose `stop` has not begun. -/
structure Stopping (P : Platform B E C Y M) (c : Call B ι) (b : ι → Inst) (l : Loaders B E M)
    (s : Replacing B E M ι) : Prop extends Halting s where
  loaders  : s.loaders = (begin P c b l).loaders
  gathered : s.gathered = 0
  pending  : ∀ i ∈ c.references, (s.instances i).started = true →
    ∃ (k : Nat) (t : Task ι), s.tasks[k]? = some t ∧ t.inst = i ∧ t.doing = .stop

/-- After it: the instances that ran start with the new class. -/
structure Starting (P : Platform B E C Y M) (c : Call B ι) (b : ι → Inst) (l : Loaders B E M)
    (cls : Ref) (s : Replacing B E M ι) : Prop where
  updated  : (update P c b l).1 = .ok cls
  loaders  : s.loaders = (update P c b l).2
  starts   : ∀ t ∈ s.tasks, t.doing.stops = false
  raised   : ∀ e, s.raised = some e → e.isException = true ∧ Restorable P c b l
  coming   : s.raised = none → Coming s fun i => i ∈ c.references ∧ (b i).started = true
  starting : ∀ t ∈ s.tasks, ∀ r, t.doing = .starting r → r = cls
  running  : ∀ t ∈ s.tasks, t.doing = .running → (s.instances t.inst).plugin = some cls
  plugin   : ∀ i ∈ c.references, (s.instances i).started = true →
    (s.instances i).plugin = some cls

/-- In the second rollback: the instances stop once more. -/
structure StoppingAgain (P : Platform B E C Y M) (c : Call B ι) (b : ι → Inst) (l : Loaders B E M)
    (cls : Ref) (s : Replacing B E M ι) : Prop extends Halting s where
  updated    : (update P c b l).1 = .ok cls
  loaders    : s.loaders = (update P c b l).2
  restorable : Restorable P c b l

/-- With the old archive again: the instances that are enabled start. -/
structure Restarting (P : Platform B E C Y M) (c : Call B ι) (b : ι → Inst) (l : Loaders B E M)
    (cls : Ref) (s : Replacing B E M ι) : Prop where
  restored   : (restore P c b l).1 = .ok cls
  loaders    : s.loaders = (restore P c b l).2
  restorable : Restorable P c b l
  starts     : ∀ t ∈ s.tasks, t.doing.stops = false
  raised     : s.raised = none
  coming     : Coming s fun i => i ∈ c.references ∧ (b i).enabled = true

/-- What holds in every update that bears its failures -/
structure Common (P : Platform B E C Y M) (c : Call B ι) (b : ι → Inst) (l : Loaders B E M)
    (s : Replacing B E M ι) : Prop where
  path    : s.path = (begin P c b l).path
  oldPath : s.oldPath = (begin P c b l).oldPath
  /-- no instance is enabled -/
  enabled : ∀ i, (s.instances i).enabled = true → (b i).enabled = true
  /-- none that ran is disabled -/
  kept    : ∀ i, (b i).started = true → (b i).enabled = true → (s.instances i).enabled = true
  started : ∀ i, (s.instances i).started = true → (b i).started = true ∨ (b i).enabled = true
  begun   : ∀ t ∈ s.tasks, t.doing.begun = true → (b t.inst).enabled = true

/-- Where an update is -/
inductive Phase (P : Platform B E C Y M) (c : Call B ι) (b : ι → Inst) (l : Loaders B E M)
    (s : Replacing B E M ι) : Prop
  | stopping (hw : s.waits = .stopping) (h : Stopping P c b l s)
  | starting (hw : s.waits = .starting) {cls : Ref} (h : Starting P c b l cls s)
  | stoppingAgain {e : PyExc} (hw : s.waits = .stoppingAgain e) {cls : Ref}
      (h : StoppingAgain P c b l cls s)
  | restarting (hw : s.waits.restarts = true) {cls : Ref} (h : Restarting P c b l cls s)
  | ended (hw : s.waits.isEnded = true) (h : Committed P c b l s ∨ RolledBack P c b l s)

/-! ### What the handler gathers -/

/-- A task of a new gather is an old one or does what was gathered. -/
theorem mem_gather {d : Doing} {is : List ι} (h : t ∈ (s.gather d is).tasks) :
    t ∈ s.tasks ∨ t.doing = d := by
  refine (List.mem_append.mp h).imp_right fun hmem => ?_
  obtain ⟨i, -, rfl⟩ := List.mem_map.mp hmem
  rfl

/-- Each instance of a gather has a task. -/
theorem exists_gather {d : Doing} {is : List ι} {i : ι} (hi : i ∈ is) :
    ∃ k, s.tasks.length ≤ k ∧ (s.gather d is).tasks[k]? = some ⟨i, d⟩ := by
  obtain ⟨k, hk⟩ := List.mem_iff_getElem?.mp (List.mem_map_of_mem (f := fun i => Task.mk i d) hi)
  refine ⟨s.tasks.length + k, Nat.le_add_right _ _, ?_⟩
  show (s.tasks ++ _)[s.tasks.length + k]? = _
  rw [List.getElem?_append_right (Nat.le_add_right _ _), Nat.add_sub_cancel_left]
  exact hk

/-- What all phases have in common is kept when tasks are added. -/
theorem Common.gather (h : Common P c b l s) {d : Doing} (hd : d.begun = false) (is : List ι) :
    Common P c b l (s.gather d is) := by
  refine ⟨h.path, h.oldPath, h.enabled, h.kept, h.started, fun u hu hbegun => ?_⟩
  rcases mem_gather hu with hu | hdoing
  · exact h.begun u hu hbegun
  · rw [hdoing, hd] at hbegun
    cases hbegun

/-- The tasks of `start_instances` stop nothing. -/
theorem starts_startInstances (h : ∀ t ∈ s.tasks, t.doing.stops = false) :
    ∀ t ∈ (s.startInstances c).tasks, t.doing.stops = false := by
  intro t ht
  rcases mem_gather ht with ht | hdoing
  · exact h t ht
  · rw [hdoing]
    rfl

/-- They bring the instances that are enabled. -/
theorem coming_startInstances {wanted : ι → Prop}
    (h : ∀ i, wanted i → i ∈ c.references ∧ (s.instances i).enabled = true) :
    Coming (s.startInstances c) wanted := by
  intro i hi
  obtain ⟨hmem, henabled⟩ := h i hi
  have hfilter : i ∈ c.references.filter fun i => (s.instances i).enabled :=
    List.mem_filter.mpr ⟨hmem, henabled⟩
  obtain ⟨k, hk, ht⟩ := exists_gather (s := s) (d := .start) hfilter
  exact .inr ⟨k, _, hk, ht, rfl, rfl⟩

/-- The tasks of `stop_instances` are a halt. -/
theorem halting_stopInstances (h : ∀ t ∈ s.tasks, t.doing.stops = false) :
    Halting (s.stopInstances c) := by
  have htasks (k : Nat) : (s.stopInstances c).tasks[k]? = (s.tasks ++ _)[k]? := rfl
  refine ⟨rfl, fun k t ht hk => ?_, fun k t ht hk => ?_⟩
  · rw [htasks, List.getElem?_append_right hk] at ht
    obtain ⟨i, -, rfl⟩ := List.mem_map.mp (List.mem_of_getElem? ht)
    exact .inl rfl
  · rw [htasks, List.getElem?_append_left hk] at ht
    exact h t (List.mem_of_getElem? ht)

/-! ### The start of an update -/

/-- The handler begins by stopping the instances. -/
theorem stopping_begin : Stopping P c b l (begin P c b l) := by
  refine ⟨halting_stopInstances nofun, rfl, rfl, fun i hi hstarted => ?_⟩
  obtain ⟨k, -, hk⟩ := exists_gather (d := .stop)
    (s := { begin P c b l with tasks := [] })
    (List.mem_filter.mpr ⟨hi, hstarted⟩ : i ∈ c.references.filter fun i => (b i).started)
  exact ⟨k, _, hk, rfl, rfl⟩

/-- What the phases have in common holds at the beginning. -/
theorem common_begin : Common P c b l (begin P c b l) :=
  Common.gather (s := { begin P c b l with tasks := [] })
    ⟨rfl, rfl, fun _ h => h, fun _ _ h => h, fun _ h => .inl h, nofun⟩ rfl _

/-! ### Before the reload, all coroutines are stops -/

/-- In the first phase every task belongs to the gather. -/
theorem Stopping.gathered_le (h : Stopping P c b l s) (k : Nat) : s.gathered ≤ k := by
  rw [h.gathered]
  exact Nat.zero_le k

/-- In the first phase every task stops an instance. -/
theorem Stopping.stops (h : Stopping P c b l s) (ht : s.tasks[k]? = some t)
    (hdone : t.doing.isDone = false) : t.doing.stops = true := by
  refine (h.last k t ht (h.gathered_le k)).resolve_right fun hnone => ?_
  rw [hnone] at hdone
  cases hdone

/-- Where the first phase has settled, all have ended. -/
theorem Stopping.isDone (h : Stopping P c b l s) (hsettled : Settled s) :
    ∀ t ∈ s.tasks, t.doing.isDone = true := by
  intro t ht
  obtain ⟨k, hk⟩ := List.mem_iff_getElem?.mp ht
  exact done_of_settled hsettled h.raised (h.gathered_le k) hk

/-- Then no instance of the plugin is started. -/
theorem Stopping.not_started (h : Stopping P c b l s) (hsettled : Settled s) :
    ∀ i ∈ c.references, (s.instances i).started = false := by
  intro i hi
  by_contra hstarted
  obtain ⟨k, t, ht, -, hstop⟩ := h.pending i hi ((Bool.not_eq_false _).mp hstarted)
  have hdone := h.isDone hsettled t (List.mem_of_getElem? ht)
  rw [hstop] at hdone
  cases hdone

/-! ### From one phase to the next -/

/-- From there a class that loads leads to the phase of starting. -/
theorem Stopping.starting (h : Stopping P c b l s) (hcommon : Common P c b l s)
    (hcareful : Careful P c b l) (hsettled : Settled s) (hcls : (update P c b l).1 = .ok cls) :
    Starting P c b l cls
      { Replacing.startInstances c { s with loaders := (update P c b l).2 } with
        waits := .starting } := by
  have hdone := h.isDone hsettled
  -- the stops have ended, and the starts have not begun
  have hfresh : ∀ t ∈ (Replacing.startInstances c
      { s with loaders := (update P c b l).2 }).tasks, t.doing.begun = false := by
    intro t ht
    rcases mem_gather ht with ht | hdoing
    · exact Doing.begun_of_done (hdone t ht)
    · rw [hdoing]
      rfl
  constructor
  · exact hcls
  · rfl
  · exact starts_startInstances fun t ht => Doing.stops_of_done (hdone t ht)
  · exact nofun
  · intro _
    have hcoming : Coming (Replacing.startInstances c { s with loaders := (update P c b l).2 })
        fun i => i ∈ c.references ∧ (b i).started = true := by
      apply coming_startInstances
      rintro i ⟨hi, hran⟩
      exact ⟨hi, hcommon.kept i hran (hcareful.enabled i hi hran)⟩
    exact hcoming
  · intro t ht r hr
    have hbegun := hfresh t ht
    rw [hr] at hbegun
    cases hbegun
  · intro t ht hr
    have hbegun := hfresh t ht
    rw [hr] at hbegun
    cases hbegun
  · intro i hi hstarted
    have hno : (s.instances i).started = true := hstarted
    rw [h.not_started hsettled i hi] at hno
    cases hno

/-- And one that does not, to the old version and its restart. -/
theorem Halting.restarting (h : Halting s) (hcommon : Common P c b l s) (hsettled : Settled s)
    (hrestorable : Restorable P c b l) (hcls : (restore P c b l).1 = .ok cls) (waits : Waits) :
    Restarting P c b l cls
      { Replacing.startInstances c { s with loaders := (restore P c b l).2 } with waits } := by
  constructor
  · exact hcls
  · rfl
  · exact hrestorable
  · exact starts_startInstances (h.starts hsettled)
  · rfl
  · have hcoming : Coming (Replacing.startInstances c { s with loaders := (restore P c b l).2 })
        fun i => i ∈ c.references ∧ (b i).enabled = true := by
      apply coming_startInstances
      rintro i ⟨hi, henabled⟩
      have hran : (b i).started = true := by
        rw [← hrestorable.instances i hi]
        exact henabled
      exact ⟨hi, hcommon.kept i hran henabled⟩
    exact hcoming

/-! ### The end of an update -/

/-- The handler writes the new file first. -/
theorem files_begin : (begin P c b l).loaders.files =
    Function.update l.files (abspath P.cwd (begin P c b l).path) (some c.content) := by
  unfold begin
  rfl

/-- The reload writes no file. -/
theorem files_update : (update P c b l).2.files = (begin P c b l).loaders.files :=
  files_reload _ _

/-- Neither does the one that takes it back. -/
theorem files_restore : (restore P c b l).2.files = (begin P c b l).loaders.files :=
  (files_reload _ _).trans files_update

/-- **Committed**: all instances that ran have started with the new class. -/
theorem Starting.committed (h : Starting P c b l cls s) (hcommon : Common P c b l s)
    (hsettled : Settled s) (hraised : s.raised = none) (response : Except PyExc Response) :
    Committed P c b l ((s.trash P s.oldPath).answer response) := by
  obtain ⟨hpath, hloaded, b', m, hb', hread, hm⟩ := imported_update h.updated
  have hcontent : b' = c.content := by
    unfold Loaders.bytesAt at hb'
    rw [files_update, files_begin, Function.update_self] at hb'
    exact (Option.some.inj hb').symm
  subst hcontent
  rw [← h.loaders] at hpath hloaded hm
  refine ⟨hpath, ⟨m, hread, hm⟩, ⟨cls, h.updated, hloaded, fun i hi hran => ?_⟩, ?_⟩
  · have hstarted := started_of_settled (h.coming hraised) hsettled hraised ⟨hi, hran⟩
    exact ⟨hstarted, h.plugin i hi hstarted⟩
  · rw [← hcommon.oldPath]
    exact Function.update_self ..

/-- The instances are enabled and run that were and did. -/
theorem Restarting.flags (h : Restarting P c b l cls s) (hcommon : Common P c b l s)
    (hsettled : Settled s) {i : ι} (hi : i ∈ c.references) :
    (s.instances i).enabled = (b i).enabled ∧ (s.instances i).started = (b i).started := by
  have hsame := h.restorable.instances i hi
  cases hran : (b i).started with
  | true =>
    have henabled := hsame.trans hran
    rw [henabled, hcommon.kept i hran henabled]
    exact ⟨rfl, started_of_settled h.coming hsettled h.raised ⟨hi, henabled⟩⟩
  | false =>
    -- one that did not run is not enabled, and an update enables none
    have hdisabled := hsame.trans hran
    rw [hdisabled]
    constructor
    · by_contra hne
      have henabled := hcommon.enabled i ((Bool.not_eq_false _).mp hne)
      rw [hdisabled] at henabled
      cases henabled
    · by_contra hne
      rcases hcommon.started i ((Bool.not_eq_false _).mp hne) with hwas | henabled
      · rw [hran] at hwas
        cases hwas
      · rw [hdisabled] at henabled
        cases henabled

/-- **Rolled back**: the old archive is there and loaded, and the instances run that did. -/
theorem Restarting.rolledBack {p : Path} {old : Ref} (hloaded : Imported P c.plugin p old l)
    (h : Restarting P c b l cls s) (hcommon : Common P c b l s) (hsettled : Settled s)
    (response : Except PyExc Response) :
    RolledBack P c b l ((s.trash P s.path).answer response) := by
  obtain ⟨hpath, hcls, b', m, hb', hread, hm⟩ := imported_restore h.restored
  obtain ⟨hold, -, b₀, m₀, hb₀, hread₀, hm₀⟩ := hloaded
  have holdPath : (begin P c b l).oldPath = p := by
    show (l.loaders.get c.plugin).path.getD [] = p
    rw [hold]
    rfl
  -- the new file was written beside the old one, so both reloads found the same bytes
  have hkept : (restore P c b l).2.bytesAt P (begin P c b l).oldPath = some b₀ := by
    unfold Loaders.bytesAt
    rw [files_restore, files_begin, Function.update_of_ne h.restorable.path.symm, holdPath]
    exact hb₀
  obtain rfl := Option.some.inj (hb'.symm.trans hkept)
  obtain rfl : m = m₀ := by
    rw [hread] at hread₀
    exact congrArg Prod.snd (Except.ok.inj hread₀)
  constructor
  · show (s.loaders.loaders.get c.plugin).path = _
    rw [h.loaders, hpath, hold, holdPath]
  · show (s.loaders.loaders.get c.plugin).pluginMeta = _
    rw [h.loaders, hm, hm₀]
  · refine ⟨cls, h.restored, ?_⟩
    show (s.loaders.loaders.get c.plugin).loaded = _
    rw [h.loaders, hcls]
  · refine ⟨b', by rw [holdPath]; exact hb₀, ?_⟩
    show Function.update s.loaders.files _ none _ = _
    rw [hcommon.path, Function.update_of_ne h.restorable.path.symm, h.loaders]
    exact hkept
  · rw [← hcommon.path]
    exact Function.update_self ..
  · exact fun i hi => h.flags hcommon hsettled hi

/-! ### The steps of the handler -/

/-- Only the loaders, the handler and the last `gather` change. -/
theorem Common.congr {s' : Replacing B E M ι} (h : Common P c b l s)
    (hinstances : s'.instances = s.instances) (htasks : s'.tasks = s.tasks)
    (hpath : s'.path = s.path) (holdPath : s'.oldPath = s.oldPath) : Common P c b l s' := by
  refine ⟨hpath.trans h.path, holdPath.trans h.oldPath, ?_, ?_, ?_, ?_⟩
  · rw [hinstances]
    exact h.enabled
  · rw [hinstances]
    exact h.kept
  · rw [hinstances]
    exact h.started
  · rw [htasks]
    exact h.begun

/-- The handler goes back to the old archive, and starts the instances. -/
theorem phase_restarting (hrestored : (restore P c b l).1 = .ok cls)
    (hcommon : Common P c b l s) (h : Halting s) (hrestorable : Restorable P c b l)
    (hsettled : Settled s) {waits : Waits} (hwaits : waits.restarts = true) :
    Common P c b l
        { Replacing.startInstances c { s with loaders := (restore P c b l).2 } with waits } ∧
      Phase P c b l
        { Replacing.startInstances c { s with loaders := (restore P c b l).2 } with waits } := by
  have hloaders : Common P c b l { s with loaders := (restore P c b l).2 } :=
    hcommon.congr rfl rfl rfl rfl
  exact ⟨(hloaders.gather (d := .start) rfl _).congr rfl rfl rfl rfl,
    .restarting hwaits (h.restarting hcommon hsettled hrestorable hrestored waits)⟩

/-- The old archive is loaded again. -/
theorem reload_oldPath (hrestored : (restore P c b l).1 = .ok cls)
    (hold : s.oldPath = (begin P c b l).oldPath) (h : s.loaders = (update P c b l).2) :
    s.reload P c s.oldPath = (.ok cls, { s with loaders := (restore P c b l).2 }) := by
  rw [Replacing.reload, h, hold, ← hrestored]
  rfl

/-- The instances have stopped: the handler loads the new archive, or goes back. -/
theorem phase_stopping (hcareful : Careful P c b l) (hrestored : (restore P c b l).1 = .ok cls)
    (hcommon : Common P c b l s) (hw : s.waits = .stopping) (h : Stopping P c b l s)
    (hsettled : Settled s) : Common P c b l (s.advance P c) ∧ Phase P c b l (s.advance P c) := by
  have hupdate : s.reload P c s.path =
      ((update P c b l).1, { s with loaders := (update P c b l).2 }) := by
    rw [Replacing.reload, h.loaders, hcommon.path]
    rfl
  unfold Replacing.advance
  rw [hw]
  dsimp only
  rw [h.raised]
  dsimp only
  rw [hupdate]
  cases hcls : (update P c b l).1 with
  | ok r =>
    have hloaders : Common P c b l { s with loaders := (update P c b l).2 } :=
      hcommon.congr rfl rfl rfl rfl
    exact ⟨(hloaders.gather (d := .start) rfl _).congr rfl rfl rfl rfl,
      .starting rfl (h.starting hcommon hcareful hsettled hcls)⟩
  | error e =>
    -- the first rollback: the new archive was refused
    obtain ⟨hrefused, hrestorable⟩ := hcareful.loads e hcls
    dsimp only
    rw [if_pos hrefused]
    have hback : Replacing.reload P c { s with loaders := (update P c b l).2 } s.oldPath =
        (.ok cls, { s with loaders := (restore P c b l).2 }) :=
      reload_oldPath (s := { s with loaders := (update P c b l).2 }) hrestored hcommon.oldPath rfl
    rw [hback]
    exact phase_restarting hrestored hcommon h.toHalting hrestorable hsettled rfl

/-- The instances have started, or one of them has not. -/
theorem phase_starting (hcommon : Common P c b l s) (hw : s.waits = .starting)
    (h : Starting P c b l cls s) (hsettled : Settled s) :
    Common P c b l (s.advance P c) ∧ Phase P c b l (s.advance P c) := by
  unfold Replacing.advance
  rw [hw]
  dsimp only
  cases hraised : s.raised with
  | none =>
    exact ⟨hcommon.congr rfl rfl rfl rfl,
      .ended rfl (.inl (h.committed hcommon hsettled hraised _))⟩
  | some e =>
    -- the second rollback: other instances may be on their way
    obtain ⟨hexc, hrestorable⟩ := h.raised e hraised
    dsimp only
    rw [if_pos hexc]
    have hhalting := halting_stopInstances (c := c) h.starts
    exact ⟨(hcommon.gather (d := .stop) rfl _).congr rfl rfl rfl rfl, .stoppingAgain rfl
      ⟨⟨hhalting.raised, hhalting.last, hhalting.late⟩, h.updated, h.loaders, hrestorable⟩⟩

/-- The instances have started with the old archive, or one of them has not. -/
theorem phase_rolledBack {p : Path} {old : Ref} (hloaded : Imported P c.plugin p old l)
    (hcommon : Common P c b l s) (hw : s.waits.restarts = true) (h : Restarting P c b l cls s)
    (hsettled : Settled s) : Common P c b l (s.advance P c) ∧ Phase P c b l (s.advance P c) := by
  have hends (caught : PyExc → Bool) (response : Response) :
      Common P c b l (s.rolledBack P caught response s.raised) ∧
        Phase P c b l (s.rolledBack P caught response s.raised) := by
    exact ⟨hcommon.congr rfl rfl rfl rfl,
      .ended rfl (.inr (h.rolledBack hloaded hcommon hsettled _))⟩
  unfold Replacing.advance
  cases hwaits : s.waits with
  | restarting e => exact hends _ _
  | restartingAgain e => exact hends _ _
  | _ =>
    rw [hwaits] at hw
    cases hw

/-- **What the handler does** when an `await` returns. -/
theorem phase_advance {p : Path} {old : Ref} (hloaded : Imported P c.plugin p old l)
    (hcareful : Careful P c b l) (hrestored : (restore P c b l).1 = .ok cls)
    (hcommon : Common P c b l s) (h : Phase P c b l s) (hsettled : Settled s) :
    Common P c b l (s.advance P c) ∧ Phase P c b l (s.advance P c) := by
  cases h with
  | stopping hw h => exact phase_stopping hcareful hrestored hcommon hw h hsettled
  | starting hw h => exact phase_starting hcommon hw h hsettled
  | stoppingAgain hw h =>
    unfold Replacing.advance
    rw [hw]
    dsimp only
    rw [h.raised]
    dsimp only
    rw [reload_oldPath hrestored hcommon.oldPath h.loaders]
    exact phase_restarting hrestored hcommon h.toHalting h.restorable hsettled rfl
  | restarting hw h => exact phase_rolledBack hloaded hcommon hw h hsettled
  | ended hw h =>
    unfold Replacing.advance
    cases hwaits : s.waits with
    | ended r => exact ⟨hcommon, .ended hw h⟩
    | _ =>
      rw [hwaits] at hw
      cases hw

/-! ### Steps of the tasks -/

variable [DecidableEq ι]

namespace Replacing

/-- A coroutine moves on, and the loaders stay as they are, since the class is there. -/
theorem run_eq {cls : Except PyExc Ref} (ht : s.tasks[k]? = some t)
    (hload : t.doing.loads (s.instances t.inst) = true →
      (ZipLoader.load P c.plugin false).exec s.loaders = (cls, s.loaders)) :
    s.run P c k o = s.put k t.inst (t.doing.step cls o (s.instances t.inst)) := by
  unfold run
  rw [ht]
  dsimp only
  split
  next hloads =>
    rw [hload hloads]
  next hloads =>
    rw [Doing.step_congr ((Bool.not_eq_true _).mp hloads) cls]

variable (s) in
/-- A task that ran on has changed its instance. -/
theorem instances_put_self (k : Nat) (i : ι) (r : Inst × Doing) :
    (s.put k i r).instances i = r.1 := Function.update_self ..

variable (s) in
/-- It has changed no other. -/
theorem instances_put_ne {i j : ι} (h : j ≠ i) (k : Nat) (r : Inst × Doing) :
    (s.put k i r).instances j = s.instances j := Function.update_of_ne h ..

/-- The tasks are the old ones and the one that ran on. -/
theorem mem_put {i : ι} {r : Inst × Doing} {u : Task ι} (h : u ∈ (s.put k i r).tasks) :
    u ∈ s.tasks ∨ u = ⟨i, r.2⟩ := List.mem_or_eq_of_mem_set h

end Replacing

/-- What the phases have in common is kept by a task that runs on. -/
theorem Common.put (h : Common P c b l s) {cls : Except PyExc Ref} (ht : s.tasks[k]? = some t)
    (ho : ∀ e, o.raised = some e → Bearable P c b l t o.guarded e) :
    Common P c b l (s.put k t.inst (t.doing.step cls o (s.instances t.inst))) := by
  have hmem := List.mem_of_getElem? ht
  refine ⟨h.path, h.oldPath, ?_, ?_, ?_, ?_⟩
  · intro i hi
    by_cases hit : i = t.inst
    · subst hit
      rw [Replacing.instances_put_self] at hi
      exact h.enabled _ (Doing.enabled_of_step hi)
    · rw [Replacing.instances_put_ne _ hit] at hi
      exact h.enabled i hi
  · intro i hran henabled
    by_cases hit : i = t.inst
    · subst hit
      rw [Replacing.instances_put_self]
      by_contra hdisabled
      -- a failure of the start was logged, of an instance that ran
      obtain ⟨e, he, hexc, hdoing⟩ := Doing.raised_of_disabled (h.kept _ hran henabled)
        ((Bool.not_eq_true _).mp hdisabled)
      have hbear := ho e he
      have hnot : (b t.inst).started = false := by
        rcases hdoing with ⟨⟨r, hr⟩, hguarded⟩ | hr
        · unfold Bearable at hbear
          rw [hr, hguarded, hexc] at hbear
          exact hbear
        · unfold Bearable at hbear
          rw [hr] at hbear
          exact hbear.2
      rw [hran] at hnot
      cases hnot
    · rw [Replacing.instances_put_ne _ hit]
      exact h.kept i hran henabled
  · intro i hi
    by_cases hit : i = t.inst
    · subst hit
      rw [Replacing.instances_put_self] at hi
      rcases Doing.started_of_step hi with hx | hrunning
      · exact h.started _ hx
      · exact .inr (h.begun t hmem (by rw [hrunning]; rfl))
    · rw [Replacing.instances_put_ne _ hit] at hi
      exact h.started i hi
  · intro u hu hbegun
    rcases Replacing.mem_put hu with hu | rfl
    · exact h.begun u hu hbegun
    · rcases Doing.begun_of_step hbegun with hd | hx
      · exact h.begun t hmem hd
      · exact h.enabled _ hx

/-- The task that ran on stands at its place. -/
theorem getElem_put_self {r : Inst × Doing} (ht : s.tasks[k]? = some t) (i : ι) :
    (s.put k i r).tasks[k]? = some ⟨i, r.2⟩ :=
  List.getElem?_set_self (List.getElem?_eq_some_iff.mp ht).1

/-- The others stand at theirs. -/
theorem getElem_put_ne {j : Nat} (h : j ≠ k) (i : ι) (r : Inst × Doing) :
    (s.put k i r).tasks[j]? = s.tasks[j]? := List.getElem?_set_ne h.symm

/-- An exception is an old one or that of the task. -/
theorem raised_put {i : ι} {r : Inst × Doing} {e : PyExc}
    (h : (s.put k i r).raised = some e) : s.raised = some e ∨ r.2.raised = some e := by
  have hput : (if s.gathered ≤ k then s.raised <|> r.2.raised else s.raised) = some e := h
  split at hput
  next =>
    cases hs : s.raised with
    | none =>
      rw [hs] at hput
      exact .inr hput
    | some e' =>
      rw [hs] at hput
      exact .inl hput
  next => exact .inl hput

/-- Without one there was none, and the task has raised none. -/
theorem raised_put_eq_none {i : ι} {r : Inst × Doing} (h : (s.put k i r).raised = none) :
    s.raised = none ∧ (s.gathered ≤ k → r.2.raised = none) := by
  have hput : (if s.gathered ≤ k then s.raised <|> r.2.raised else s.raised) = none := h
  split at hput
  next hk =>
    cases hs : s.raised with
    | none =>
      rw [hs] at hput
      exact ⟨rfl, fun _ => hput⟩
    | some e =>
      rw [hs] at hput
      cases hput
  next hk => exact ⟨hput, fun hle => absurd hle hk⟩

/-- The instances that come still come, if the task keeps what it brings. -/
theorem Coming.put {wanted : ι → Prop} (h : Coming s wanted) {r : Inst × Doing}
    (ht : s.tasks[k]? = some t)
    (hstays : (s.instances t.inst).started = true → r.1.started = true)
    (hgoes : wanted t.inst → s.gathered ≤ k → t.doing.going = true →
      r.2.going = true ∨ r.1.started = true) : Coming (s.put k t.inst r) wanted := by
  intro i hi
  by_cases hit : i = t.inst
  · subst hit
    rw [Replacing.instances_put_self]
    rcases h _ hi with hx | ⟨j, u, hj, hu, hinst, hgoing⟩
    · exact .inl (hstays hx)
    · by_cases hjk : j = k
      · subst hjk
        obtain rfl := Option.some.inj (ht.symm.trans hu)
        rcases hgoes hi hj hgoing with hnext | hx
        · exact .inr ⟨j, _, hj, getElem_put_self ht _, rfl, hnext⟩
        · exact .inl hx
      · exact .inr ⟨j, u, hj, (getElem_put_ne hjk _ _).trans hu, hinst, hgoing⟩
  · rw [Replacing.instances_put_ne _ hit]
    refine (h i hi).imp_right ?_
    rintro ⟨j, u, hj, hu, hinst, hgoing⟩
    have hjk : j ≠ k := by
      rintro rfl
      obtain rfl := Option.some.inj (ht.symm.trans hu)
      exact hit hinst.symm
    exact ⟨j, u, hj, (getElem_put_ne hjk _ _).trans hu, hinst, hgoing⟩

/-- A task that stops an instance has raised nothing. -/
theorem raised_of_stops {d : Doing} (h : d.stops = true) : d.raised = none := by
  cases d <;> first | rfl | cases h

/-- A halt is kept by a task that runs on. -/
theorem Halting.put (h : Halting s) {cls : Except PyExc Ref} (ht : s.tasks[k]? = some t)
    (hdone : t.doing.isDone = false)
    (ho : ∀ e, o.raised = some e → Bearable P c b l t o.guarded e) :
    Halting (s.put k t.inst (t.doing.step cls o (s.instances t.inst))) := by
  -- the tasks of the gather only stop, and what they raise is borne
  have hstep (hk : s.gathered ≤ k) : (t.doing.step cls o (s.instances t.inst)).2.stops = true ∨
      (t.doing.step cls o (s.instances t.inst)).2 = .done none := by
    have hstops : t.doing.stops = true := by
      refine (h.last k t ht hk).resolve_right fun hnone => ?_
      rw [hnone] at hdone
      cases hdone
    refine Doing.step_of_stops hstops fun e he hstop => ?_
    have hbear := ho e he
    unfold Bearable at hbear
    cases hd : t.doing with
    | stopping => simpa only [hd] using hbear
    | closing => simpa only [hd] using hbear
    | stop => exact absurd hd hstop
    | _ =>
      rw [hd] at hstops
      cases hstops
  constructor
  · show (if s.gathered ≤ k then _ else s.raised) = none
    split
    next hk =>
      rw [h.raised]
      rcases hstep hk with hstops | hnone
      · exact raised_of_stops hstops
      · rw [hnone]
        rfl
    next => exact h.raised
  · intro j u hu hj
    by_cases hjk : j = k
    · subst hjk
      rw [getElem_put_self ht] at hu
      obtain rfl := Option.some.inj hu
      exact hstep hj
    · rw [getElem_put_ne hjk] at hu
      exact h.last j u hu hj
  · intro j u hu hj
    by_cases hjk : j = k
    · subst hjk
      rw [getElem_put_self ht] at hu
      obtain rfl := Option.some.inj hu
      by_contra hstops
      have hwas := Doing.stops_of_step ((Bool.not_eq_false _).mp hstops)
      rw [h.late j t ht hj] at hwas
      cases hwas
    · rw [getElem_put_ne hjk] at hu
      exact h.late j u hu hj

/-- So is the phase of stopping. -/
theorem Stopping.put (h : Stopping P c b l s) {cls : Except PyExc Ref}
    (ht : s.tasks[k]? = some t) (hdone : t.doing.isDone = false)
    (ho : ∀ e, o.raised = some e → Bearable P c b l t o.guarded e) :
    Stopping P c b l (s.put k t.inst (t.doing.step cls o (s.instances t.inst))) := by
  have hstops := h.stops ht hdone
  refine ⟨h.toHalting.put ht hdone ho, h.loaders, h.gathered, fun i hi hstarted => ?_⟩
  by_cases hit : i = t.inst
  · subst hit
    rw [Replacing.instances_put_self] at hstarted
    -- the instance still runs, so it was not this task that stops it
    have hnot : t.doing ≠ .stop := by
      intro hstop
      rw [hstop, Doing.not_started_of_stop] at hstarted
      cases hstarted
    have hwas : (s.instances t.inst).started = true := by
      refine (Doing.started_of_step hstarted).resolve_right fun hrunning => ?_
      rw [hrunning] at hstops
      cases hstops
    obtain ⟨j, u, hu, hinst, hstop⟩ := h.pending _ hi hwas
    have hjk : j ≠ k := by
      rintro rfl
      obtain rfl := Option.some.inj (ht.symm.trans hu)
      exact hnot hstop
    exact ⟨j, u, (getElem_put_ne hjk _ _).trans hu, hinst, hstop⟩
  · rw [Replacing.instances_put_ne _ hit] at hstarted
    obtain ⟨j, u, hu, hinst, hstop⟩ := h.pending i hi hstarted
    -- another instance's task is another one
    have hjk : j ≠ k := by
      rintro rfl
      obtain rfl := Option.some.inj (ht.symm.trans hu)
      exact hit hinst.symm
    exact ⟨j, u, (getElem_put_ne hjk _ _).trans hu, hinst, hstop⟩

/-- No coroutine turns into a stop. -/
theorem starts_put {cls : Except PyExc Ref} (h : ∀ t ∈ s.tasks, t.doing.stops = false)
    (ht : s.tasks[k]? = some t) (x : Inst) :
    ∀ u ∈ (s.put k t.inst (t.doing.step cls o x)).tasks, u.doing.stops = false := by
  intro u hu
  rcases Replacing.mem_put hu with hu | rfl
  · exact h u hu
  · by_contra hstops
    have hwas := Doing.stops_of_step ((Bool.not_eq_false _).mp hstops)
    rw [h t (List.mem_of_getElem? ht)] at hwas
    cases hwas

/-- So is the phase of starting, where the update is careful. -/
theorem Starting.put (hcareful : Careful P c b l) (hcommon : Common P c b l s)
    (h : Starting P c b l cls s) (ht : s.tasks[k]? = some t) (hdone : t.doing.isDone = false)
    (ho : ∀ e, o.raised = some e → Bearable P c b l t o.guarded e) :
    Starting P c b l cls (s.put k t.inst (t.doing.step (.ok cls) o (s.instances t.inst))) := by
  have hmem := List.mem_of_getElem? ht
  have hstops := h.starts t hmem
  -- a task that makes a plugin object makes it from the new class
  have hplugin : (s.instances t.inst).plugin = some cls →
      (t.doing.step (.ok cls) o (s.instances t.inst)).1.plugin = some cls := by
    intro hwas
    rcases Doing.plugin_of_step hstops with hsame | ⟨r, hr, hnew⟩
    · exact hsame.trans hwas
    · rw [hnew, h.starting t hmem r hr]
  constructor
  · exact h.updated
  · exact h.loaders
  · exact starts_put h.starts ht _
  · intro e he
    rcases raised_put he with he | he
    · exact h.raised e he
    · exact restorable_of_raised hstops hdone ho he
  · intro hnone
    obtain ⟨hnone, hstep⟩ := raised_put_eq_none hnone
    refine (h.coming hnone).put ht (Doing.stays_started hstops) ?_
    -- an instance that ran before is enabled, so its task goes on or raises
    rintro ⟨hi, hran⟩ hk hgoing
    have hx := hcommon.kept _ hran (hcareful.enabled _ hi hran)
    exact goes_or_raises hran hx ho hgoing (hstep hk)
  · intro u hu r hr
    rcases Replacing.mem_put hu with hu | rfl
    · exact h.starting u hu r hr
    · exact (Except.ok.inj (Doing.starting_of_step hr)).symm
  · intro u hu hrunning
    rcases Replacing.mem_put hu with hu | rfl
    · by_cases hit : u.inst = t.inst
      · rw [hit, Replacing.instances_put_self]
        exact hplugin (hit ▸ h.running u hu hrunning)
      · rw [Replacing.instances_put_ne _ hit]
        exact h.running u hu hrunning
    · rw [Replacing.instances_put_self]
      obtain ⟨r, hr, hnew⟩ := Doing.running_of_step hrunning
      rw [hnew, h.starting t hmem r hr]
  · intro i hi hstarted
    by_cases hit : i = t.inst
    · subst hit
      rw [Replacing.instances_put_self] at hstarted ⊢
      rcases Doing.started_of_step hstarted with hwas | hrunning
      · exact hplugin (h.plugin _ hi hwas)
      · exact hplugin (h.running t hmem hrunning)
    · rw [Replacing.instances_put_ne _ hit] at hstarted ⊢
      exact h.plugin i hi hstarted

/-- So is the second halt. -/
theorem StoppingAgain.put (h : StoppingAgain P c b l cls s) {cls' : Except PyExc Ref}
    (ht : s.tasks[k]? = some t) (hdone : t.doing.isDone = false)
    (ho : ∀ e, o.raised = some e → Bearable P c b l t o.guarded e) :
    StoppingAgain P c b l cls
      (s.put k t.inst (t.doing.step cls' o (s.instances t.inst))) :=
  ⟨h.toHalting.put ht hdone ho, h.updated, h.loaders, h.restorable⟩

/-- So is the restart of the old version, if its last gather raises nothing. -/
theorem Restarting.put (hcommon : Common P c b l s) (h : Restarting P c b l cls s)
    (ht : s.tasks[k]? = some t) (hdone : t.doing.isDone = false)
    (hlast : s.gathered ≤ k → o.raised = none) :
    Restarting P c b l cls
      (s.put k t.inst (t.doing.step (.ok cls) o (s.instances t.inst))) := by
  have hstops := h.starts t (List.mem_of_getElem? ht)
  constructor
  · exact h.restored
  · exact h.loaders
  · exact h.restorable
  · exact starts_put h.starts ht _
  · show (if s.gathered ≤ k then _ else s.raised) = none
    split
    next hk =>
      rw [h.raised]
      cases hraised : (t.doing.step (.ok cls) o (s.instances t.inst)).2.raised with
      | none => rfl
      | some e =>
        have he := Doing.raised_of_step hdone hraised
        rw [hlast hk] at he
        cases he
    next => exact h.raised
  · refine h.coming.put ht (Doing.stays_started hstops) ?_
    rintro ⟨hi, henabled⟩ hk hgoing
    have hran : (b t.inst).started = true := by
      rw [← h.restorable.instances _ hi]
      exact henabled
    exact Doing.goes_on (fun _ => hlast hk) hgoing (hcommon.kept _ hran henabled)

/-! ### Every run -/

/-- Hence a task that runs on keeps the phase the handler is in. -/
theorem phase_run (hcareful : Careful P c b l) (hcommon : Common P c b l s)
    (h : Phase P c b l s) (ht : s.tasks[k]? = some t) (hdone : t.doing.isDone = false)
    (hopen : s.waits.isEnded = false)
    (hlast : s.waits.restarts = true → s.gathered ≤ k → o.raised = none)
    (ho : ∀ e, o.raised = some e → Bearable P c b l t o.guarded e) :
    Common P c b l (s.run P c k o) ∧ Phase P c b l (s.run P c k o) := by
  cases h with
  | stopping hw h =>
    have hstops := h.stops ht hdone
    have hnot : t.doing.loads (s.instances t.inst) = false := by
      cases hd : t.doing with
      | start =>
        rw [hd] at hstops
        cases hstops
      | _ => rfl
    have hrun : s.run P c k o =
        s.put k t.inst (t.doing.step (.ok 0) o (s.instances t.inst)) := by
      apply Replacing.run_eq ht
      intro hloads
      rw [hnot] at hloads
      cases hloads
    rw [hrun]
    exact ⟨hcommon.put ht ho, .stopping hw (h.put ht hdone ho)⟩
  | @starting hw r h =>
    -- the class is there since the reload, so a start that loads it changes nothing
    have hloaded : (s.loaders.loaders.get c.plugin).loaded = some r := by
      rw [h.loaders]
      exact (imported_update h.updated).loaded
    rw [Replacing.run_eq ht fun _ => exec_load_of_loaded hloaded]
    exact ⟨hcommon.put ht ho, .starting hw (h.put hcareful hcommon ht hdone ho)⟩
  | @stoppingAgain e hw r h =>
    have hloaded : (s.loaders.loaders.get c.plugin).loaded = some r := by
      rw [h.loaders]
      exact (imported_update h.updated).loaded
    rw [Replacing.run_eq ht fun _ => exec_load_of_loaded hloaded]
    exact ⟨hcommon.put ht ho, .stoppingAgain hw (h.put ht hdone ho)⟩
  | @restarting hw r h =>
    have hloaded : (s.loaders.loaders.get c.plugin).loaded = some r := by
      rw [h.loaders]
      exact (imported_restore h.restored).loaded
    rw [Replacing.run_eq ht fun _ => exec_load_of_loaded hloaded]
    exact ⟨hcommon.put ht ho, .restarting hw (h.put hcommon ht hdone (hlast hw))⟩
  | ended hw h =>
    rw [hopen] at hw
    cases hw

/-- **An update ends committed or rolled back**, in every run in which the instances bear the
    failures, if reloading the old archive succeeds. -/
theorem committed_or_rolledBack {p : Path} {old : Ref} (hloaded : Imported P c.plugin p old l)
    (hrestored : ∃ cls, (restore P c b l).1 = .ok cls) (hcareful : Careful P c b l)
    (hreach : Reach (step P c) (fun s e => Allowed s e ∧ Bears P c b l s e) (begin P c b l) s)
    (hended : s.waits.isEnded = true) : Committed P c b l s ∨ RolledBack P c b l s := by
  obtain ⟨cls, hrestored⟩ := hrestored
  -- by induction on the run: a step of a coroutine keeps the phase, one of the handler ends it
  have hinvariant : Common P c b l s ∧ Phase P c b l s := by
    refine hreach.invariant (I := fun s => Common P c b l s ∧ Phase P c b l s)
      ⟨common_begin, .stopping rfl stopping_begin⟩ ?_
    rintro s e ⟨hcommon, hphase⟩ ⟨hallowed, hbears⟩
    cases e with
    | run k o =>
      obtain ⟨hopen, ⟨t, ht, hdone⟩, hlast⟩ := hallowed
      exact phase_run hcareful hcommon hphase ht hdone hopen hlast fun e he => hbears t e ht he
    | advance => exact phase_advance hloaded hcareful hrestored hcommon hphase hallowed.2
  cases hinvariant.2 with
  | ended _ h => exact h
  | stopping hw _ =>
    rw [hw] at hended
    cases hended
  | starting hw _ =>
    rw [hw] at hended
    cases hended
  | stoppingAgain hw _ =>
    rw [hw] at hended
    cases hended
  | restarting hw _ =>
    obtain ⟨r, hr⟩ := Waits.isEnded_iff.mp hended
    rw [hr] at hw
    cases hw

end Run

/-! ### An update of one instance -/

namespace ReplacementTest

open ZipTest TablesTest

def call : Call PluginMeta Unit where
  uploads    := uploads
  plugin     := 0
  content    := echo₂
  newVersion := ⟨"2"⟩
  now        := 0
  references := [()]

/-- The first version, with its class -/
def before : Loaders PluginMeta Unit Unit :=
  ((ZipLoader.load platform 0 false).exec
    (change platform uploads (.uploadNew echo "echo" ⟨"1"⟩ {}) startup)).2

/-- The instance runs. -/
def running : Unit → Inst := fun _ => ⟨true, true, some 0⟩

/-- The class of the old file, before the update. -/
theorem imported_before : Imported platform 0 "/p/echo-v1.mbp".toList 0 before :=
  ⟨by decide, by decide, echo, echo, by decide, rfl, by decide⟩

/-- The old version loads. -/
theorem restore_before : (restore platform call running before).1 = .ok 0 := rfl

def begun : Replacing PluginMeta Unit Unit Unit := begin platform call running before

/-- The instance has stopped, and is in the hook of its start with the new class. -/
def hooked : Replacing PluginMeta Unit Unit Unit :=
  [Event.run 0 {}, .run 0 {}, .run 0 {}, .advance, .run 1 {}, .run 1 {}].foldl
    (fun s e => step platform call e s) begun

/-- The hook fails. -/
def crash : Event := .run 1 { raised := some { cls := .runtimeError } }

/-- The run of the witness, under any condition that its two kinds of event meet. -/
theorem reach_hooked {A : Replacing PluginMeta Unit Unit Unit → Event → Prop}
    (hadvance : ∀ s, Allowed s .advance → A s .advance)
    (hrun : ∀ s k, Allowed s (.run k {}) → A s (.run k {})) :
    Reach (step platform call) A begun hooked := by
  have h₀ : Reach (step platform call) A begun begun := .start
  have h₁ := h₀.step (.run 0 {}) (hrun _ _ ⟨rfl, ⟨_, rfl, rfl⟩, fun _ _ => rfl⟩)
  have h₂ := h₁.step (.run 0 {}) (hrun _ _ ⟨rfl, ⟨_, rfl, rfl⟩, fun _ _ => rfl⟩)
  have h₃ := h₂.step (.run 0 {}) (hrun _ _ ⟨rfl, ⟨_, rfl, rfl⟩, fun _ _ => rfl⟩)
  have h₄ := h₃.step .advance (hadvance _ ⟨rfl, .inr (by decide)⟩)
  have h₅ := h₄.step (.run 1 {}) (hrun _ _ ⟨rfl, ⟨_, rfl, rfl⟩, fun _ _ => rfl⟩)
  exact h₅.step (.run 1 {}) (hrun _ _ ⟨rfl, ⟨_, rfl, rfl⟩, fun _ _ => rfl⟩)

/-- Its update is careful. -/
theorem careful_before : Careful platform call running before where
  enabled _ _ _ := rfl
  loads e he := by
    have hloads : (update platform call running before).1 = .ok 0 := rfl
    rw [hloads] at he
    cases he

end ReplacementTest

open ZipTest ReplacementTest

/-- The instance runs the new version. -/
theorem committed_echo :
    ∃ s, Reach (step platform call) (fun s e => Allowed s e ∧
        Bears platform call running before s e) begun s ∧ s.waits.isEnded = true ∧
      (Committed platform call running before s ∨ RolledBack platform call running before s) := by
  have hhooked : Reach (step platform call) (fun s e => Allowed s e ∧
      Bears platform call running before s e) begun hooked :=
    reach_hooked (fun _ h => ⟨h, trivial⟩) fun _ _ h => ⟨h, fun _ _ _ he => nomatch he⟩
  have hstart : Allowed hooked (.run 1 {}) := ⟨rfl, ⟨_, rfl, rfl⟩, fun _ _ => rfl⟩
  have hstarted := hhooked.step _ ⟨hstart, fun _ _ _ he => nomatch he⟩
  have hcommit : Allowed (step platform call (.run 1 {}) hooked) .advance :=
    ⟨rfl, .inr (by decide)⟩
  have hends := hstarted.step _ ⟨hcommit, trivial⟩
  exact ⟨_, hends, rfl, committed_or_rolledBack imported_before ⟨0, restore_before⟩
    careful_before hends rfl⟩

/-- The hook of the new version fails: the update is committed, and the instance is disabled. -/
theorem not_committed_or_rolledBack :
    ¬ ∀ (c : Call PluginMeta Unit) (b : Unit → Inst) (l : Loaders PluginMeta Unit Unit)
      (p : Path) (old : Ref) (s : Replacing PluginMeta Unit Unit Unit),
      Imported platform c.plugin p old l →
      (∃ m m', readMeta platform (.ok c.content) = .ok (c.content, m) ∧
        (l.loaders.get c.plugin).pluginMeta = some m' ∧ m.id = m'.id) →
      (∃ cls, (restore platform c b l).1 = .ok cls) →
      Reach (step platform c) Allowed (begin platform c b l) s → s.waits.isEnded = true →
      Committed platform c b l s ∨ RolledBack platform c b l s := by
  intro h
  have hhooked : Reach (step platform call) Allowed begun hooked :=
    reach_hooked (fun _ h => h) fun _ _ h => h
  have hcrash : Allowed hooked crash := ⟨rfl, ⟨_, rfl, rfl⟩, nofun⟩
  have hcrashed := hhooked.step _ hcrash
  have hdisable : Allowed (step platform call crash hooked) (.run 1 {}) :=
    ⟨rfl, ⟨_, rfl, rfl⟩, fun _ _ => rfl⟩
  have hdisabled := hcrashed.step _ hdisable
  have hcommit : Allowed (step platform call (.run 1 {}) (step platform call crash hooked))
      .advance := ⟨rfl, .inr (by decide)⟩
  have hends := hdisabled.step _ hcommit
  rcases h call running before _ 0 _ imported_before ⟨_, _, rfl, rfl, rfl⟩ ⟨0, restore_before⟩
    hends rfl with hcommitted | hback
  · obtain ⟨_, -, -, hruns⟩ := hcommitted.cls
    exact absurd (hruns () List.mem_cons_self rfl).1 (by decide)
  · exact absurd hback.path (by decide)

end Replacement

end Maubot
