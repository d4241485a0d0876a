import Maubot.Instance.Operations
import Maubot.Client.Lookup

namespace Maubot

open Prog

/-!
# Plugin instances — the cache, the ids and the rows

The cache key, the object's id and the row's key are written in different places: `get`
and `delete` write all of them, `update_id` forgets the cache.

* `SameIdentity` — what every operation but these three keeps (`identity_start`, …);
* `Tracked` — the invariant: the cache maps the id of every live object to it, and maps
  nothing else; it survives every operation that does not rename (`Tracked.exec`);
* `consistent_iff_not_renames` — until some `update_id` takes effect, the cache is
  consistent, and from there a step keeps it so if and only if it does not rename.
-/

variable {L : Type} {S : Setup L}

namespace PluginInstance

/-- The cache agrees with the objects and the rows, and no two live objects stand for the
    same row. -/
structure Consistent (w : World L) : Prop where
  cached : ∀ k i, w.instanceCache k = some i →
    (w.instances.get i).id = k ∧ (w.instanceRows k).isSome = true
  unique : ∀ i j, Live w i → Live w j → (w.instances.get i).id = (w.instances.get j).id → i = j

/-- The invariant behind `Consistent`. -/
structure Tracked (w : World L) : Prop where
  cached : ∀ k i, w.instanceCache k = some i →
    Live w i ∧ (w.instances.get i).id = k ∧ (w.instanceRows k).isSome = true
  live   : ∀ i, Live w i → w.instanceCache (w.instances.get i).id = some i

/-- What is tracked is consistent. -/
theorem Tracked.consistent {w : World L} (h : Tracked w) : Consistent w where
  cached k i hk := (h.cached k i hk).2
  unique i j hi hj hij := by
    have := h.live i hi
    rw [hij, h.live j hj] at this
    exact (Option.some.inj this).symm

/-- Before anything is loaded there is nothing to track. -/
theorem Startup.tracked {w : World L} (h : Startup w) : Tracked w where
  cached k i hk := by rw [h.instanceCache] at hk; exact absurd hk (by simp)
  live i hi := by
    have := hi.1
    rw [h.instances] at this
    exact absurd this (Nat.not_lt_zero i)

/-! ### Operations that leave identities alone -/

/-- The cache, the ids, the deletions and the keys of the rows are as before. -/
structure SameIdentity (w w' : World L) : Prop where
  next    : w'.instances.next = w.instances.next
  id      : ∀ i, (w'.instances.get i).id = (w.instances.get i).id
  deleted : ∀ i, (w'.instances.get i).deleted = (w.instances.get i).deleted
  cache   : w'.instanceCache = w.instanceCache
  rows    : ∀ k, (w'.instanceRows k).isSome = (w.instanceRows k).isSome

/-- Every instance is who it is. -/
theorem SameIdentity.refl (w : World L) : SameIdentity w w := by
  constructor <;> intros <;> rfl

/-- Identity is kept over two steps that keep it. -/
theorem SameIdentity.trans {w w' w'' : World L} (h : SameIdentity w w')
    (h' : SameIdentity w' w'') : SameIdentity w w'' where
  next := h'.next.trans h.next
  id i := (h'.id i).trans (h.id i)
  deleted i := (h'.deleted i).trans (h.deleted i)
  cache := h'.cache.trans h.cache
  rows k := (h'.rows k).trans (h.rows k)

def Identity (L : Type) : Frame (World L) where
  rel := SameIdentity
  refl := SameIdentity.refl
  trans := SameIdentity.trans

/-- The id and the flag of deletion are links. -/
theorem identity_of_links {α : Type} {m : Action L α} (h : Keeps (Links S) m) :
    Keeps (Identity L) m :=
  h.mono fun {_ _} hl =>
    { next := hl.next
      id := fun i => (eq_of_links (hl.links i)).1
      deleted := fun i => (eq_of_links (hl.links i)).2.2.2.2.2
      cache := hl.instanceCache
      rows := hl.rows }

/-- The live instances are the same. -/
theorem SameIdentity.live {w w' : World L} (h : SameIdentity w w') (i : Ref) :
    Live w' i ↔ Live w i := by
  rw [Live, Live, h.next, h.deleted]

/-- So are the tracked ones. -/
theorem SameIdentity.tracked {w w' : World L} (h : SameIdentity w w') (hw : Tracked w) :
    Tracked w' where
  cached k i hk := by
    rw [h.cache] at hk
    rw [h.live, h.id, h.rows]
    exact hw.cached k i hk
  live i hi := by
    rw [h.cache, h.id]
    exact hw.live i ((h.live i).mp hi)

/-- Any field but the id and the flag of deletion may be set. -/
theorem identity_setInstance (i : Ref) {f : PluginInstance → PluginInstance}
    (hid : ∀ inst, (f inst).id = inst.id) (hdel : ∀ inst, (f inst).deleted = inst.deleted) :
    Keeps (Identity L) (setInstance i f) := by
  intro w
  exact { SameIdentity.refl w with
    id := Store.view_modify _ _ _ PluginInstance.id hid
    deleted := Store.view_modify _ _ _ PluginInstance.deleted hdel }

/-- A client is no instance. -/
theorem identity_setClient (c : Ref) (f : Client → Client) :
    Keeps (Identity L) (setClient c f) := by
  intro w
  exact { SameIdentity.refl w with }

/-- Neither are a loader's references, -/
theorem identity_setLoaderReferences (l : Ref) (s : PySet Ref) :
    Keeps (Identity L) (setLoaderReferences l s) := by
  intro w
  exact { SameIdentity.refl w with }

/-- nor a report, -/
theorem identity_report (x : Failure) : Keeps (Identity L) (report x) := by
  intro w
  exact { SameIdentity.refl w with }

/-- nor a client that is looked up. -/
theorem identity_clientGet (u : String) :
    Keeps (Identity L) (Client.get S u none none none) := by
  intro w
  rcases Client.exec_get (S := S) u w with ⟨c, -, h⟩ | ⟨row, w', -, -, h, hmade⟩ | ⟨-, -, h⟩
  · rw [h]
    exact SameIdentity.refl w
  · rw [h, hmade.others]
    exact { SameIdentity.refl w with }
  · rw [h]
    exact SameIdentity.refl w

/-- So `load` keeps the identities, -/
theorem identity_load (i : Ref) : Keeps (Identity L) (load S i) := by
  have hloader : Keeps (Identity L) (loadLoader S i) := by
    refine keeps_bind keeps_get fun w => keeps_ite (keeps_pure true) ?_
    split
    · exact keeps_bind (identity_setInstance i (fun _ => rfl) fun _ => rfl) fun _ => keeps_pure _
    · exact identity_of_links (S := S) (links_of_quiet (keeps_bind (quiet_report (by simp)) fun _ =>
        keeps_bind (quiet_updateEnabled i _) fun _ => keeps_pure _))
  have hclient : Keeps (Identity L) (loadClient S i) := by
    refine keeps_bind keeps_get fun w => keeps_ite (keeps_pure true) ?_
    refine keeps_bind (identity_clientGet _) fun c =>
      keeps_bind (identity_setInstance i (fun _ => rfl) fun _ => rfl) fun _ =>
      keeps_ite (keeps_pure true) ?_
    exact identity_of_links (S := S) (links_of_quiet (keeps_bind (quiet_report (by simp)) fun _ =>
      keeps_bind (quiet_updateEnabled i _) fun _ => keeps_pure _))
  have hreferences : Keeps (Identity L) (loadReferences S i) :=
    keeps_bind (identity_of_links (links_of_quiet (quiet_theLoader (S := S) i))) fun l =>
    keeps_bind keeps_get fun w =>
    keeps_bind (keeps_when (identity_of_links (links_enableWebapp i))) fun _ =>
    keeps_bind (keeps_bind keeps_get fun _ => identity_setLoaderReferences l _) fun _ =>
    keeps_bind (identity_of_links (links_of_quiet (quiet_theClient (S := S) i))) fun c =>
    keeps_bind keeps_get fun _ => identity_setClient c _
  exact keeps_bind hloader fun b => keeps_ite
    (keeps_bind hclient fun b => keeps_ite
      (keeps_bind hreferences fun _ => keeps_pure _) (keeps_pure _)) (keeps_pure _)

/-- and `start` does. -/
theorem identity_start (i : Ref) (env : StartEnv) : Keeps (Identity L) (start S i env) := by
  refine keeps_bind keeps_get fun w => keeps_ite (keeps_pure ()) (keeps_ite (keeps_pure ()) ?_)
  refine keeps_bind (keeps_bind keeps_get fun w => ?_) fun b =>
    keeps_ite (identity_of_links (links_startLoaded i env)) (keeps_pure ())
  exact keeps_ite (identity_load i) (keeps_pure true)

/-- An instance may leave its loader, -/
theorem identity_removeFromLoader (i : Ref) : Keeps (Identity L) (removeFromLoader S i) := by
  refine keeps_bind keeps_get fun w => ?_
  split
  · exact keeps_pure ()
  · split
    · exact identity_setLoaderReferences _ _
    · exact keeps_bind (identity_report _) fun _ => keeps_throw _

/-- and its client. -/
theorem identity_removeFromClient (i : Ref) : Keeps (Identity L) (removeFromClient S i) := by
  refine keeps_bind keeps_get fun w => ?_
  split
  · exact keeps_pure ()
  · split
    · exact identity_setClient _ _
    · exact keeps_bind (identity_report _) fun _ => keeps_throw _

/-- Hence it may get another user, -/
theorem identity_updatePrimaryUser (i : Ref) (u : Option String) (env : StopEnv × StartEnv) :
    Keeps (Identity L) (updatePrimaryUser S i u env) := by
  refine keeps_bind keeps_get fun w => ?_
  cases u with
  | none => exact keeps_pure _
  | some u =>
    refine keeps_ite (keeps_pure _) (keeps_bind (identity_clientGet u) fun r => ?_)
    cases r with
    | none => exact keeps_pure _
    | some c =>
      refine keeps_bind ?_ fun _ => keeps_pure _
      exact keeps_bind (identity_of_links (links_stop (S := S) i env.1)) fun _ =>
        keeps_bind keeps_get fun w =>
        keeps_bind (identity_setInstance i (fun _ => rfl) fun _ => rfl) fun _ =>
        keeps_bind (identity_removeFromClient i) fun _ =>
        keeps_bind (identity_setInstance i (fun _ => rfl) fun _ => rfl) fun _ =>
        keeps_bind (keeps_bind keeps_get fun _ => identity_setClient c _) fun _ =>
        keeps_bind (identity_of_links (S := S) (links_of_quiet (quiet_update i))) fun _ =>
        identity_start i env.2

/-- and another type. -/
theorem identity_updateType (i : Ref) (t : Option String) (env : StopEnv × StartEnv) :
    Keeps (Identity L) (updateType S i t env) := by
  refine keeps_bind keeps_get fun w => ?_
  cases t with
  | none => exact keeps_pure _
  | some t =>
    refine keeps_ite (keeps_pure _) ?_
    split
    · exact keeps_pure _
    · rename_i l _
      refine keeps_bind ?_ fun _ => keeps_pure _
      exact keeps_bind (identity_of_links (links_stop (S := S) i env.1)) fun _ =>
        keeps_bind keeps_get fun w =>
        keeps_bind (identity_setInstance i (fun _ => rfl) fun _ => rfl) fun _ =>
        keeps_bind (identity_removeFromLoader i) fun _ =>
        keeps_bind (identity_setInstance i (fun _ => rfl) fun _ => rfl) fun _ =>
        keeps_bind (keeps_bind keeps_get fun _ => identity_setLoaderReferences l _) fun _ =>
        keeps_bind (identity_of_links (S := S) (links_of_quiet (quiet_update i))) fun _ =>
        identity_start i env.2

/-! ### Operations that write identities -/

/-- A new object for a row that has none. -/
theorem tracked_fromRow {w : World L} (h : Tracked w) {id : String} (row : InstanceRow)
    (hcache : w.instanceCache id = none) (hrow : (w.instanceRows id).isSome = true) :
    Tracked ((fromRow id row).exec w).2 := by
  have hlt {i : Ref} (hi : i < w.instances.next) :
      ((fromRow id row).exec w).2.instances.get i = w.instances.get i :=
    Store.get_alloc_of_lt _ _ hi
  have hnew : (((fromRow id row).exec w).2.instances.get w.instances.next).id = id :=
    congrArg PluginInstance.id (Store.get_alloc_self _ _)
  have hnewDeleted : (((fromRow id row).exec w).2.instances.get w.instances.next).deleted = false :=
    congrArg PluginInstance.deleted (Store.get_alloc_self _ _)
  constructor
  · -- the cache finds the new instance under its id, and the old ones as before
    intro k i hk
    replace hk : Function.update w.instanceCache id (some w.instances.next) k = some i := hk
    by_cases hkid : k = id
    · subst hkid
      rw [Function.update_self, Option.some.injEq] at hk
      subst hk
      exact ⟨⟨Nat.lt_succ_self _, hnewDeleted⟩, hnew, hrow⟩
    · rw [Function.update_of_ne hkid] at hk
      obtain ⟨hlive, hid, hk'⟩ := h.cached k i hk
      refine ⟨⟨Nat.lt_succ_of_lt hlive.1, ?_⟩, ?_, hk'⟩
      · rw [hlt hlive.1]
        exact hlive.2
      · rw [hlt hlive.1]
        exact hid
  · -- and each instance is found: the new one took an id that was free
    intro i hi
    rcases Nat.lt_succ_iff_lt_or_eq.mp hi.1 with hlt' | rfl
    · have hlive : Live w i := ⟨hlt', by rw [← hlt hlt']; exact hi.2⟩
      rw [hlt hlt']
      have hne : (w.instances.get i).id ≠ id := fun hid => by
        have := h.live i hlive
        rw [hid, hcache] at this
        exact absurd this (by simp)
      exact (Function.update_of_ne hne _ _).trans (h.live i hlive)
    · rw [hnew]
      exact Function.update_self _ _ _

/-- A row may be added. -/
theorem tracked_setRow {w : World L} (h : Tracked w) (id : String) (row : InstanceRow) :
    Tracked { w with instanceRows := Function.update w.instanceRows id (some row) } := by
  refine ⟨fun k i hk => ?_, h.live⟩
  obtain ⟨hlive, hid, hrow⟩ := h.cached k i hk
  refine ⟨hlive, hid, ?_⟩
  exact isSome_update hrow id row

/-- An instance that is looked up or made enters the cache under its id. -/
theorem tracked_get {w : World L} (h : Tracked w) (id : String) (t u : Option String) :
    Tracked ((get id t u).exec w).2 := by
  rcases exec_get_cases id t u w with he | ⟨row, hc, hrow, he⟩ | ⟨row, hc, -, -, he⟩ <;> rw [he]
  · exact h
  · exact tracked_fromRow h row hc (by rw [hrow]; rfl)
  · exact tracked_fromRow (tracked_setRow h id row) row hc (isSome_update_self _ _ _)

/-- A rename that does not take effect changes nothing. -/
theorem exec_updateId_of_not_renames {w : World L} {i : Ref}
    (hi : (w.instanceRows (w.instances.get i).id).isSome = true)
    {n : Option String} (hn : ¬ Op.Renames S w (.updateId i n)) :
    ((updateId S i n).exec w).2 = w := by
  cases n with
  | none => rfl
  | some n =>
    by_cases hid : S.lower n = (w.instances.get i).id
    · simp [updateId, hid]
    · have htaken : w.instanceRows (S.lower n) ≠ none := fun hnone => hn ⟨hid, hnone⟩
      obtain ⟨row, hrow⟩ := Option.isSome_iff_exists.mp hi
      have hrename : (renameRow (S.lower n) (w.instances.get i).id : Action L Unit).exec w =
          (.error { cls := .integrityError }, w) := by
        simp [renameRow, hrow, Option.isSome_iff_ne_none, htaken]
      have hupdate : (updateId S i (some n)).exec w = (updateRowId i (S.lower n)).exec w := by
        simp only [updateId, exec_get_bind, if_neg hid]
      rw [hupdate, updateRowId, exec_get_bind, exec_bind_error hrename]

/-- The world after a rename that takes effect. -/
def renamed (w : World L) (i : Ref) (newId : String) : World L :=
  let rows := Function.update w.instanceRows (w.instances.get i).id none
  { w with
    instanceRows := Function.update rows newId (w.instanceRows (w.instances.get i).id)
    instances := w.instances.modify i fun inst => { inst with id := newId } }

/-- A renamed instance has its new id. -/
theorem get_renamed_self (w : World L) (i : Ref) (n : String) :
    (renamed w i n).instances.get i = { w.instances.get i with id := n } := by
  rw [renamed, Store.get_modify_self]

/-- The others have theirs. -/
theorem get_renamed_ne (w : World L) {i j : Ref} (hj : j ≠ i) (n : String) :
    (renamed w i n).instances.get j = w.instances.get j := by
  rw [renamed, Store.get_modify_ne _ _ hj]

/-- It lives as before. -/
theorem live_renamed (w : World L) (i : Ref) (n : String) (j : Ref) :
    Live (renamed w i n) j ↔ Live w j := by
  rcases eq_or_ne j i with rfl | hj
  · rw [Live, get_renamed_self]
    rfl
  · rw [Live, get_renamed_ne w hj]
    rfl

/-- An update of the id that takes effect renames the object and nothing in the cache. -/
theorem exec_updateId_of_renames {w : World L} {i : Ref}
    (hi : (w.instanceRows (w.instances.get i).id).isSome = true)
    {n : String} (hn : Op.Renames S w (.updateId i (some n))) :
    ((updateId S i (some n)).exec w).2 = renamed w i (S.lower n) := by
  obtain ⟨row, hrow⟩ := Option.isSome_iff_exists.mp hi
  simp [updateId, hn.1, updateRowId, renameRow, hrow, hn.2, setInstance, renamed]

/-- A rename that takes effect leaves the object in the cache under its old id. -/
theorem not_consistent_of_renames {w : World L} (h : Tracked w) {i : Ref} (hi : Live w i)
    {n : Option String} (hn : Op.Renames S w (.updateId i n)) :
    ¬ Consistent ((updateId S i n).exec w).2 := by
  cases n with
  | none => exact hn.elim
  | some n =>
    rw [exec_updateId_of_renames (h.cached _ i (h.live i hi)).2.2 hn]
    intro hc
    have := (hc.cached (w.instances.get i).id i (h.live i hi)).1
    rw [get_renamed_self] at this
    exact hn.1 this

/-- The database and the web app are no identity. -/
theorem identity_deleteResources (i : Ref) (env : DeleteEnv) :
    Keeps (Identity L) (deleteResources S i env) :=
  keeps_bind keeps_get fun _ =>
    keeps_bind (keeps_when (identity_of_links (S := S) (links_of_quiet
      (keeps_bind (quiet_stopDatabase i _) fun _ => quiet_deleteDatabase i env)))) fun _ =>
    keeps_bind keeps_get fun _ => keeps_when (identity_of_links (links_disableWebapp i))

/-- The world once `delete` has taken the object out of the cache and its row out of the
    table. -/
def forgotten (w : World L) (i : Ref) : World L :=
  { w with
    instanceCache := Function.update w.instanceCache (w.instances.get i).id none
    instanceRows := Function.update w.instanceRows (w.instances.get i).id none
    instances := w.instances.modify i fun inst => { inst with deleted := true } }

/-- The other instances stay when one is deleted. -/
theorem get_forgotten (w : World L) {i j : Ref} (hj : j ≠ i) :
    (forgotten w i).instances.get j = w.instances.get j := by
  rw [forgotten, Store.get_modify_ne _ _ hj]

/-- The deleted one lives no more. -/
theorem live_forgotten (w : World L) (i j : Ref) : Live (forgotten w i) j ↔ Live w j ∧ j ≠ i := by
  rcases eq_or_ne j i with rfl | hj
  · simp [Live, forgotten]
  · rw [Live, get_forgotten w hj]
    exact ⟨fun h => ⟨h, hj⟩, fun h => h.1⟩

/-- It leaves the cache too. -/
theorem tracked_forgotten {w : World L} (h : Tracked w) {i : Ref} (hi : Live w i) :
    Tracked (forgotten w i) := by
  constructor
  · intro k j hk
    have hne : k ≠ (w.instances.get i).id := by
      rintro rfl
      exact absurd (hk.symm.trans (Function.update_self _ _ _)) (by simp)
    have hk' : w.instanceCache k = some j := by
      rw [← hk]
      exact (Function.update_of_ne hne _ _).symm
    obtain ⟨hj, hid, hrow⟩ := h.cached k j hk'
    have hji : j ≠ i := fun hji => hne (by rw [← hji, hid])
    refine ⟨(live_forgotten w i j).mpr ⟨hj, hji⟩, by rw [get_forgotten w hji]; exact hid, ?_⟩
    rw [← hrow]
    exact congrArg Option.isSome
      (Function.update_of_ne hne _ _ : (forgotten w i).instanceRows k = _)
  · intro j hj
    obtain ⟨hj', hji⟩ := (live_forgotten w i j).mp hj
    have hne : (w.instances.get j).id ≠ (w.instances.get i).id := fun hid =>
      hji (h.consistent.unique j i hj' hi hid)
    rw [get_forgotten w hji, ← h.live j hj']
    exact Function.update_of_ne hne _ _

/-- `delete` raises before it has forgotten anything, or forgets the object. -/
theorem exec_delete (w : World L) (i : Ref) (env : DeleteEnv) :
    (∃ e w', (delete S i env).exec w = (.error e, w') ∧ SameIdentity w w') ∨
    ∃ w', SameIdentity w w' ∧
      (delete S i env).exec w = (deleteResources S i env).exec (forgotten w' i) := by
  rcases h1 : (removeFromLoader S i).exec w with ⟨e | _, w1⟩ <;>
    have hs1 := identity_removeFromLoader (S := S) i w <;> rw [h1] at hs1
  · exact Or.inl ⟨e, w1, exec_bind_error h1, hs1⟩
  rcases h2 : (removeFromClient S i).exec w1 with ⟨e | _, w2⟩ <;>
    have hs2 := identity_removeFromClient (S := S) i w1 <;> rw [h2] at hs2
  · exact Or.inl ⟨e, w2, by rw [delete, exec_bind_ok h1, exec_bind_error h2], hs1.trans hs2⟩
  · exact Or.inr ⟨w2, hs1.trans hs2, by rw [delete, exec_bind_ok h1, exec_bind_ok h2]; rfl⟩

/-- So a deletion keeps the others tracked. -/
theorem tracked_delete {w : World L} (h : Tracked w) {i : Ref} (hi : Live w i) (env : DeleteEnv) :
    Tracked ((delete S i env).exec w).2 := by
  rcases exec_delete (S := S) w i env with ⟨e, w', he, hs⟩ | ⟨w', hs, he⟩ <;> rw [he]
  · exact hs.tracked h
  · exact (identity_deleteResources i env _).tracked
      (tracked_forgotten (hs.tracked h) ((hs.live i).mpr hi))

/-! ### Runs -/

/-- **Step.**  Every operation on an object that the caller holds keeps the cache up to
    date, unless it renames. -/
theorem Tracked.exec {w : World L} (h : Tracked w) (op : Op) (hheld : op.Held w)
    (hop : ¬ op.Renames S w) : Tracked (op.exec S w) := by
  cases op with
  | get id t u => exact tracked_get h id t u
  | load i => exact (identity_load i w).tracked h
  | start i env => exact (identity_start i env w).tracked h
  | stop i env => exact (identity_of_links (S := S) (links_stop i env) w).tracked h
  | updateId i n =>
    show Tracked ((updateId S i n).exec w).2
    rw [exec_updateId_of_not_renames (h.cached _ i (h.live i (hheld i rfl))).2.2 hop]
    exact h
  | updatePrimaryUser i u env => exact (identity_updatePrimaryUser i u env w).tracked h
  | updateType i t env => exact (identity_updateType i t env w).tracked h
  | updateConfig i c onUpdate =>
    exact (identity_of_links (S := S) (links_updateConfig i c onUpdate) w).tracked h
  | updateEnabled i e =>
    exact (identity_of_links (S := S) (links_of_quiet (quiet_updateEnabled i e)) w).tracked h
  | delete i env => exact tracked_delete h (hheld i rfl) env

/-- A step that the caller may make and that does not rename. -/
def KeepsIds (S : Setup L) (w : World L) (op : Op) : Prop := op.Held w ∧ ¬ op.Renames S w

/-- Hence the instances are tracked after every run that keeps the ids. -/
theorem tracked_of_reach {w₀ w : World L} (h₀ : Startup w₀)
    (h : Reach (Op.exec S) (KeepsIds S) w₀ w) : Tracked w :=
  h.invariant h₀.tracked fun _ op hw hop => hw.exec op hop.1 hop.2

/-- The lookup of an id that the cache knows. -/
theorem get_of_cached {w : World L} {id : String} {i : Ref} (h : w.instanceCache id = some i)
    (t u : Option String) : (get id t u).exec w = (.ok (some i), w) := by
  simp [get, h]

/-- The lookup of an id that neither the cache nor the table knows. -/
theorem get_of_unknown {w : World L} {id : String} (hc : w.instanceCache id = none)
    (hr : w.instanceRows id = none) : (get id none none).exec w = (.ok none, w) := by
  simp [get, hc, hr, truthy]

/-- After a `delete` that returned, the id is free. -/
theorem get_after_delete {w w' : World L} {i : Ref} {env : DeleteEnv}
    (h : (delete S i env).exec w = (.ok (), w')) :
    (get (w.instances.get i).id none none).exec w' = (.ok none, w') := by
  rcases exec_delete (S := S) w i env with ⟨e, v, he, -⟩ | ⟨v, hs, he⟩
  · rw [he] at h
    exact absurd (congrArg Prod.fst h) (by simp)
  · have hv := identity_deleteResources (S := S) i env (forgotten v i)
    rw [← he, h] at hv
    have hid : (w.instances.get i).id = (v.instances.get i).id := (hs.id i).symm
    refine get_of_unknown ?_ ?_
    · rw [hv.cache, hid]
      exact Function.update_self _ _ _
    · have hrow : (forgotten v i).instanceRows (w.instances.get i).id = none := by
        rw [hid]
        exact Function.update_self _ _ _
      have := hv.rows (w.instances.get i).id
      rw [hrow] at this
      simpa using this

/-- **The cache over whole runs.**  As long as no `update_id` takes effect, the cache is
    consistent, finds every live object under its id, and forgets a deleted one.  A step from
    there keeps it consistent if and only if it does not rename. -/
theorem consistent_iff_not_renames {w₀ w : World L} (h₀ : Startup w₀)
    (h : Reach (Op.exec S) (KeepsIds S) w₀ w) :
    Consistent w ∧
      (∀ i, Live w i → (get (w.instances.get i).id none none).exec w = (.ok (some i), w)) ∧
      (∀ i env w', Live w i → (delete S i env).exec w = (.ok (), w') →
        (get (w.instances.get i).id none none).exec w' = (.ok none, w')) ∧
      ∀ op : Op, op.Held w → (Consistent (op.exec S w) ↔ ¬ op.Renames S w) := by
  have ht := tracked_of_reach h₀ h
  refine ⟨ht.consistent, fun i hi => get_of_cached (ht.live i hi) _ _,
    fun i env w' _ hd => get_after_delete hd, fun op hheld => ⟨fun hc hren => ?_, fun hren =>
      (ht.exec op hheld hren).consistent⟩⟩
  cases op with
  | updateId i n => exact not_consistent_of_renames ht (hheld i rfl) hren hc
  | _ => exact hren

open InstanceTest in
/-- Two steps: look the instance `a` up, and rename it to `b`. -/
theorem renamed_not_consistent :
    ¬ ∀ w₀ : World Unit, Startup w₀ → ∀ w, Reach (Op.exec setup) Op.Held w₀ w → Consistent w := by
  intro h
  let w₁ := Op.exec setup (Op.get "a" none none) startup
  have hget : Reach (Op.exec setup) Op.Held startup w₁ :=
    Reach.step (Op.get "a" none none) .start (by rintro i ⟨⟩)
  have hrename := hget.step (Op.updateId 0 (some "b")) (by rintro i ⟨⟩; decide)
  have hcached := ((h startup startup_startup _ hrename).cached "a" 0 rfl).1
  exact absurd hcached (by decide)

open InstanceTest in
/-- The instance `a` is looked up, started, given a config that its plugin refuses and the id
    that it has, and deleted. -/
theorem found_consistent : Consistent unrenamed ∧ Consistent removed := by
  have hfound : Reach (Op.exec setup) (KeepsIds setup) startup found :=
    Reach.step (Op.get "a" none none) .start ⟨by rintro i ⟨⟩, fun h => h⟩
  have hlaunched : Reach (Op.exec setup) (KeepsIds setup) startup launched :=
    hfound.step (Op.start 0 {}) ⟨by rintro i ⟨⟩; decide, fun h => h⟩
  have hrefused : Reach (Op.exec setup) (KeepsIds setup) startup refused :=
    hlaunched.step (Op.updateConfig 0 (some "new") reluctant)
      ⟨by rintro i ⟨⟩; decide +kernel, fun h => h⟩
  have hunrenamed : Reach (Op.exec setup) (KeepsIds setup) startup unrenamed :=
    hrefused.step (Op.updateId 0 (some "a"))
      ⟨by rintro i ⟨⟩; decide +kernel, not_renames_refused⟩
  have hremoved : Reach (Op.exec setup) (KeepsIds setup) startup removed :=
    hunrenamed.step (Op.delete 0 {}) ⟨by rintro i ⟨⟩; decide +kernel, fun h => h⟩
  exact ⟨(consistent_iff_not_renames startup_startup hunrenamed).1,
    (consistent_iff_not_renames startup_startup hremoved).1⟩

end PluginInstance

end Maubot
