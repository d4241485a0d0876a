import Maubot.Instance.Saved

namespace Maubot

open Prog

/-!
# Plugin instances — cache, references and rows together

* `Sound S g w` — the cache is up to date, the reference sets record the fields, and the rows
  agree with the fields as far as `g` shows them;
* `Sound.exec` — every operation keeps it so, unless it renames, or is a careless update of a
  config that `g` shows; `get` may make objects and rows.
-/

variable {L : Type} {S : Setup L}

namespace PluginInstance

variable {ρ : Type}

/-- Cache, references and rows are in order. -/
structure Sound (S : Setup L) (g : InstanceRow → ρ) (w : World L) : Prop where
  tracked : Tracked w
  linked  : Linked S w
  saved   : Saved g (fun _ => True) w

section Steps

variable {g : InstanceRow → ρ} {w : World L} {i : Ref}

/-- What a step of the instance keeps. -/
theorem Sound.of_steps (h : Sound S g w) {w' : World L} (hi : Live w i)
    (hidentity : SameIdentity w w') (hlinked : Linked S w') (hsaves : (Saves L g i).rel w w') :
    Sound S g w' where
  tracked := hidentity.tracked h.tracked
  linked := hlinked
  saved := (hsaves (Or.inl hi)).2.2 _ h.saved

/-- A start keeps the world sound. -/
theorem Sound.start (h : Sound S g w) (hi : Live w i) (env : StartEnv) :
    Sound S g ((start S i env).exec w).2 :=
  h.of_steps hi (identity_start i env w) ((triple_start (i := i) env).final ⟨hi, h.linked⟩).2
    (admits_saves.start env w)

/-- So does `load`, -/
theorem Sound.load (h : Sound S g w) (hi : Live w i) : Sound S g ((load S i).exec w).2 :=
  h.of_steps hi (identity_load i w) (triple_load.final ⟨hi, h.linked⟩).2 (admits_saves.load w)

/-- whatever links nothing and saves what it sets, -/
theorem Sound.of_links (h : Sound S g w) (hi : Live w i) {α : Type} {m : Action L α}
    (hlinks : Keeps (Links S) m) (hsaves : Keeps (Saves L g i) m) : Sound S g (m.exec w).2 :=
  h.of_steps hi (identity_of_links hlinks w)
    ((triple_of_links (i := i) hlinks).final ⟨hi, h.linked⟩).2 (hsaves w)

/-- a stop, -/
theorem Sound.stop (h : Sound S g w) (hi : Live w i) (env : StopEnv) :
    Sound S g ((stop i env).exec w).2 :=
  h.of_links hi (links_stop i env) ((admits_saves (S := S)).stop env)

/-- `update_enabled`, -/
theorem Sound.updateEnabled (h : Sound S g w) (hi : Live w i) (e : Option Bool) :
    Sound S g ((updateEnabled i e).exec w).2 :=
  h.of_links hi (links_of_quiet (quiet_updateEnabled i e)) (saves_updateEnabled e)

/-- `update_db_engine`, -/
theorem Sound.updateDbEngine (h : Sound S g w) (hi : Live w i) (e : Option DatabaseEngine) :
    Sound S g ((updateDbEngine i e).exec w).2 :=
  h.of_links hi (links_of_quiet (quiet_updateDbEngine i e)) (saves_updateDbEngine e)

/-- and a start or stop on request. -/
theorem Sound.updateStarted (h : Sound S g w) (hi : Live w i) (started : Option Bool)
    (env : StopEnv × StartEnv) : Sound S g ((updateStarted S i started env).exec w).2 := by
  cases started with
  | none => exact h
  | some b =>
    rw [PluginInstance.updateStarted, exec_get_bind]
    dsimp only
    split
    · exact h
    · split
      · exact h.start hi env.2
      · exact h.stop hi env.1

/-- A new config does if its plugin is careful, or nobody looks at the config. -/
theorem Sound.updateConfig (h : Sound S g w) (hi : Live w i) {config : Option String}
    {onUpdate : Hook}
    (hcare : ¬ Careless w i config onUpdate ∨ ∀ r c, g { r with config := c } = g r) :
    Sound S g ((updateConfig i config onUpdate).exec w).2 where
  tracked := (identity_of_links (S := S) (links_updateConfig i config onUpdate) w).tracked h.tracked
  linked := ((triple_of_links (i := i) (links_updateConfig i config onUpdate)).final
    ⟨hi, h.linked⟩).2
  saved := saved_updateConfig S h.saved hi hcare

end Steps

/-! ### Switching the client or the loader -/

section Switch

variable {g : InstanceRow → ρ} {i c l : Ref}

/-- What both switches end with. -/
theorem saved_updateStart {w : World L} (h : Saved g (· ≠ i) w) (hi : Live w i) (env : StartEnv) :
    Saved g (fun _ => True) ((do update i; start S i env : Action L Unit).exec w).2 := by
  obtain ⟨w', hw', hinst, -, hs⟩ := h.update hi
  have hi' : Live w' i := by
    rw [Live, hinst]
    exact hi
  rw [exec_bind_ok hw']
  exact (admits_saves.start env w' (Or.inl hi')).2.2 _ (hs.mono fun j _ _ => ne_or_eq j i)

/-- The frame of the steps between the assignment and `update`. -/
theorem Saved.of_saves {w w' : World L} {P : Ref → Prop} (h : Saved g P w) (hi : Live w i)
    (hs : (Saves L g i).rel w w') : Saved g P w' ∧ Live w' i :=
  ⟨(hs (Or.inl hi)).2.2 P h, ((hs (Or.inl hi)).2.1 i).mpr hi⟩

/-- The row is behind from the assignment on. -/
theorem Saved.behind {w : World L} (h : Saved g (fun _ => True) w) (hi : Live w i)
    (f : PluginInstance → PluginInstance) (hid : ∀ inst, (f inst).id = inst.id)
    (hdel : ∀ inst, (f inst).deleted = inst.deleted)
    (huser : (w.clientRows (f (w.instances.get i)).primaryUser).isSome = true) :
    Saved g (· ≠ i) ((Maubot.setInstance i f : Action L Unit).exec w).2 ∧
      Live ((Maubot.setInstance i f : Action L Unit).exec w).2 i :=
  ⟨(h.setInstance hid hdel fun _ => huser).mono fun _ _ hj => ⟨trivial, hj⟩,
    (live_setInstance hdel i).mpr hi⟩

/-- An instance that is switched to another client is saved, -/
theorem saved_switchClient {w : World L} (hw : Whole S i w) (h : Saved g (fun _ => True) w)
    (hrow : (w.clientRows (w.clients.get c).id).isSome = true) (env : StopEnv × StartEnv) :
    Saved g (fun _ => True) ((switchClient S i c env).exec w).2 := by
  have hstop := h.of_saves hw.1 ((admits_saves (S := S)).stop env.1 w)
  have hlinks := links_stop (S := S) i env.1 w
  have hwhole := hw.of_links hlinks
  rw [switchClient, exec_bind]
  rcases hr : (stop i env.1).exec w with ⟨e | _, w₀⟩ <;> rw [hr] at hstop hlinks hwhole
  · exact hstop.1
  · replace hlinks : LinksUnchanged S w w₀ := hlinks
    replace hrow : (w₀.clientRows (w₀.clients.get c).id).isSome = true := by
      rw [hlinks.clientRows, hlinks.clients]
      exact hrow
    obtain ⟨w₂, he₂, -, -⟩ := (hwhole.mid.assignOther
      (f := fun inst => { inst with primaryUser := (w₀.clients.get c).id })
      (fun _ => rfl) (fun _ => rfl) (fun _ => rfl) (fun _ => rfl) hrow).removeFromClient rfl
    have h₁ := hstop.1.behind hstop.2
      (fun inst => { inst with primaryUser := (w₀.clients.get c).id }) (fun _ => rfl)
      (fun _ => rfl) hrow
    have h₂ := h₁.1.of_saves h₁.2 (saves_removeFromClient (S := S) _)
    rw [he₂] at h₂
    have h₃ := h₂.1.of_saves h₂.2 (keeps_bind
      (saves_assign (fun inst => { inst with client := some c }) (fun _ => rfl) (fun _ => rfl)
        fun _ => rfl) (fun _ => (admits_saves (S := S) (g := g)).addToClient c) w₂)
    dsimp only
    rw [exec_get_bind, exec_setInstance_bind, exec_bind_ok he₂]
    exact saved_updateStart h₃.1 h₃.2 env.2

/-- and so is one that is switched to another plugin. -/
theorem saved_switchLoader {w : World L} (hw : Whole S i w) (h : Saved g (fun _ => True) w)
    (env : StopEnv × StartEnv) :
    Saved g (fun _ => True) ((switchLoader S i l env).exec w).2 := by
  have hstop := h.of_saves hw.1 ((admits_saves (S := S)).stop env.1 w)
  have hwhole := hw.of_links (links_stop (S := S) i env.1 w)
  rw [switchLoader, exec_bind]
  rcases hr : (stop i env.1).exec w with ⟨e | _, w₀⟩ <;> rw [hr] at hstop hwhole
  · exact hstop.1
  · obtain ⟨w₂, he₂, -⟩ := (hwhole.mid.assignOther
      (f := fun inst => { inst with type := (metaOf S w₀ l).id })
      (fun _ => rfl) (fun _ => rfl) (fun _ => rfl) (fun _ => rfl)
      (hwhole.2.clientRows i hwhole.1)).removeFromLoader rfl
    have h₁ := hstop.1.behind hstop.2 (fun inst => { inst with type := (metaOf S w₀ l).id })
      (fun _ => rfl) (fun _ => rfl) (hstop.1.users i hstop.2)
    have h₂ := h₁.1.of_saves h₁.2 (saves_removeFromLoader (S := S) _)
    rw [he₂] at h₂
    have h₃ := h₂.1.of_saves h₂.2 (keeps_bind
      (saves_assign (fun inst => { inst with loader := some l }) (fun _ => rfl) (fun _ => rfl)
        fun _ => rfl) (fun _ _ => saves_of_tables rfl rfl rfl : ∀ _, Keeps (Saves L g i)
          (addToLoader S i l)) w₂)
    dsimp only
    rw [exec_get_bind, exec_setInstance_bind, exec_bind_ok he₂]
    exact saved_updateStart h₃.1 h₃.2 env.2

/-- Hence another user keeps the world sound, -/
theorem Sound.updatePrimaryUser {w : World L} (h : Sound S g w) (hi : Live w i)
    (u : Option String) (env : StopEnv × StartEnv) :
    Sound S g ((updatePrimaryUser S i u env).exec w).2 where
  tracked := (identity_updatePrimaryUser i u env w).tracked h.tracked
  linked := ((triple_updatePrimaryUser (i := i) u env).final ⟨hi, h.linked⟩).2
  saved := by
    cases u with
    | none => exact h.saved
    | some u =>
      rw [PluginInstance.updatePrimaryUser, exec_get_bind]
      dsimp only
      split
      · exact h.saved
      · have hw : Whole S i w := ⟨hi, h.linked⟩
        obtain ⟨r, w', hget, hmid, -, hr⟩ := hw.mid.clientGet u
        have hs := h.saved.of_saves hi (saves_getClient (S := S) u w)
        rw [hget] at hs
        rw [exec_bind_ok hget]
        cases r with
        | none => exact hs.1
        | some c =>
          obtain ⟨-, hid, hrow⟩ := hr c rfl
          have hswitch := saved_switchClient hmid.whole hs.1 (c := c) (by rw [hid]; exact hrow) env
          dsimp only
          rw [exec_bind]
          rcases hr : (switchClient S i c env).exec w' with ⟨e | _, v⟩ <;> rw [hr] at hswitch <;>
            exact hswitch

/-- and so does another type. -/
theorem Sound.updateType {w : World L} (h : Sound S g w) (hi : Live w i) (t : Option String)
    (env : StopEnv × StartEnv) : Sound S g ((updateType S i t env).exec w).2 where
  tracked := (identity_updateType i t env w).tracked h.tracked
  linked := ((triple_updateType (i := i) t env).final ⟨hi, h.linked⟩).2
  saved := by
    cases t with
    | none => exact h.saved
    | some t =>
      rw [PluginInstance.updateType, exec_get_bind]
      dsimp only
      split
      · exact h.saved
      · split
        · exact h.saved
        · next l _ =>
          have hswitch := saved_switchLoader (l := l) ⟨hi, h.linked⟩ h.saved env
          rw [exec_bind]
          rcases hr : (switchLoader S i l env).exec w with ⟨e | _, v⟩ <;> rw [hr] at hswitch <;>
            exact hswitch

end Switch

/-! ### Deletion -/

section Lifetime

variable {g : InstanceRow → ρ} {P : Ref → Prop} {w : World L} {i : Ref}

/-- An instance that is forgotten was saved, and the others are. -/
theorem Saved.forgotten (h : Saved g P w) (hi : Live w i) : Saved g P (forgotten w i) where
  ids j k hj hk := by
    obtain ⟨hj, hji⟩ := (live_forgotten w i j).mp hj
    obtain ⟨hk, hki⟩ := (live_forgotten w i k).mp hk
    rw [get_forgotten w hji, get_forgotten w hki]
    exact h.ids j k hj hk
  users j hj := by
    obtain ⟨hj, hji⟩ := (live_forgotten w i j).mp hj
    rw [get_forgotten w hji]
    exact h.users j hj
  rows j hj := by
    obtain ⟨hj, hji⟩ := (live_forgotten w i j).mp hj
    rw [get_forgotten w hji]
    show (Function.update w.instanceRows _ none _).isSome = true
    rw [Function.update_of_ne fun hid => hji (h.ids j i hj hi hid)]
    exact h.rows j hj
  keys k row hk := by
    replace hk : Function.update w.instanceRows (w.instances.get i).id none k = some row := hk
    by_cases hki : k = (w.instances.get i).id
    · rw [hki, Function.update_self] at hk
      cases hk
    · rw [Function.update_of_ne hki] at hk
      exact h.keys k row hk
  saved j row hj hP hk := by
    obtain ⟨hj, hji⟩ := (live_forgotten w i j).mp hj
    rw [get_forgotten w hji] at hk ⊢
    replace hk : Function.update w.instanceRows (w.instances.get i).id none
      (w.instances.get j).id = some row := hk
    rw [Function.update_of_ne fun hid => hji (h.ids j i hj hi hid)] at hk
    exact h.saved j row hj hP hk

/-- Nobody owns its row. -/
theorem owns_forgotten (w : World L) (i : Ref) : Owns (forgotten w i) i := by
  have hget : (forgotten w i).instances.get i = { w.instances.get i with deleted := true } :=
    Store.get_modify_self w.instances i fun inst => { inst with deleted := true }
  refine Or.inr ⟨by rw [hget], ?_⟩
  rw [hget]
  exact Function.update_self _ _ _

/-- Hence a deletion keeps the world sound. -/
theorem Sound.delete (h : Sound S g w) (hi : Live w i) (env : DeleteEnv) :
    Sound S g ((delete S i env).exec w).2 where
  tracked := tracked_delete h.tracked hi env
  linked := linked_delete ⟨hi, h.linked⟩ env
  saved := by
    have hw : Whole S i w := ⟨hi, h.linked⟩
    obtain ⟨w₁, he₁, h₁⟩ := hw.mid.removeFromLoader rfl
    obtain ⟨w₂, he₂, -, -⟩ := h₁.removeFromClient rfl
    have hs₁ := h.saved.of_saves hi (saves_removeFromLoader (S := S) w)
    rw [he₁] at hs₁
    have hs₂ := hs₁.1.of_saves hs₁.2 (saves_removeFromClient (S := S) w₁)
    rw [he₂] at hs₂
    rw [PluginInstance.delete, exec_bind_ok he₁, exec_bind_ok he₂]
    exact ((admits_saves (S := S)).parts.deleteResources env (PluginInstance.forgotten w₂ i)
      (owns_forgotten w₂ i)).2.2 _ (hs₂.1.forgotten hs₂.2)

/-! ### Lookup -/

/-- The objects that were there stay when one is made from a row. -/
theorem get_fromRow_of_lt {id : String} {row : InstanceRow} {j : Ref}
    (hj : j < w.instances.next) :
    ((fromRow id row).exec w).2.instances.get j = w.instances.get j :=
  Store.get_alloc_of_lt _ _ hj

/-- The new one shows its row. -/
theorem get_fromRow_self (id : String) (row : InstanceRow) (w : World L) :
    ((fromRow id row).exec w).2.instances.get w.instances.next =
      { id, type := row.type, enabled := row.enabled, primaryUser := row.primaryUser,
        configStr := row.config, databaseEngine := row.databaseEngine } :=
  Store.get_alloc_self _ _

/-- The live objects are those of before and the new one. -/
theorem live_fromRow (id : String) (row : InstanceRow) (w : World L) (j : Ref) :
    Live ((fromRow id row).exec w).2 j ↔ Live w j ∨ j = w.instances.next := by
  have hnext : ((fromRow id row).exec w).2.instances.next = w.instances.next + 1 := rfl
  rw [Live, Live, hnext, Nat.lt_succ_iff_lt_or_eq]
  constructor
  · rintro ⟨hlt | rfl, hdel⟩
    · rw [get_fromRow_of_lt hlt] at hdel
      exact Or.inl ⟨hlt, hdel⟩
    · exact Or.inr rfl
  · rintro (⟨hlt, hdel⟩ | rfl)
    · exact ⟨Or.inl hlt, by rw [get_fromRow_of_lt hlt]; exact hdel⟩
    · exact ⟨Or.inr rfl, by rw [get_fromRow_self]⟩

/-- What a new object for a row meets: the id is not taken, and the row's client exists. -/
structure Free (w : World L) (id : String) (row : InstanceRow) : Prop where
  unused : ∀ j, Live w j → (w.instances.get j).id ≠ id
  stored : w.instanceRows id = some row
  user   : (w.clientRows row.primaryUser).isSome = true

/-- Ids still differ, -/
theorem Free.ids {id : String} {row : InstanceRow} (hfree : Free w id row)
    (h : ∀ j k, Live w j → Live w k → (w.instances.get j).id = (w.instances.get k).id → j = k)
    (j k : Ref) (hj : Live ((fromRow id row).exec w).2 j)
    (hk : Live ((fromRow id row).exec w).2 k) :
    (((fromRow id row).exec w).2.instances.get j).id =
      (((fromRow id row).exec w).2.instances.get k).id → j = k := by
  rcases (live_fromRow id row w j).mp hj with hj | rfl <;>
    rcases (live_fromRow id row w k).mp hk with hk | rfl
  · rw [get_fromRow_of_lt hj.1, get_fromRow_of_lt hk.1]
    exact h j k hj hk
  · rw [get_fromRow_of_lt hj.1, get_fromRow_self]
    exact fun hid => absurd hid (hfree.unused j hj)
  · rw [get_fromRow_of_lt hk.1, get_fromRow_self]
    exact fun hid => absurd hid.symm (hfree.unused k hk)
  · exact fun _ => rfl

/-- every live instance has its row, -/
theorem Free.rows {id : String} {row : InstanceRow} (hfree : Free w id row)
    (h : ∀ j, Live w j → (w.instanceRows (w.instances.get j).id).isSome = true) (j : Ref)
    (hj : Live ((fromRow id row).exec w).2 j) :
    (((fromRow id row).exec w).2.instanceRows
      (((fromRow id row).exec w).2.instances.get j).id).isSome = true := by
  rcases (live_fromRow id row w j).mp hj with hj | rfl
  · rw [get_fromRow_of_lt hj.1]
    exact h j hj
  · rw [get_fromRow_self]
    show (w.instanceRows id).isSome = true
    rw [hfree.stored]
    rfl

/-- and that of its client. -/
theorem Free.users {id : String} {row : InstanceRow} (hfree : Free w id row)
    (h : ∀ j, Live w j → (w.clientRows (w.instances.get j).primaryUser).isSome = true) (j : Ref)
    (hj : Live ((fromRow id row).exec w).2 j) :
    (((fromRow id row).exec w).2.clientRows
      (((fromRow id row).exec w).2.instances.get j).primaryUser).isSome = true := by
  rcases (live_fromRow id row w j).mp hj with hj | rfl
  · rw [get_fromRow_of_lt hj.1]
    exact h j hj
  · rw [get_fromRow_self]
    exact hfree.user

/-- So it is saved, -/
theorem Saved.fromRow (h : Saved g (fun _ => True) w) {id : String} {row : InstanceRow}
    (hfree : Free w id row) : Saved g (fun _ => True) ((fromRow id row).exec w).2 where
  ids := hfree.ids h.ids
  users := hfree.users h.users
  rows := hfree.rows h.rows
  keys := h.keys
  saved j r hj _ hk := by
    rcases (live_fromRow id row w j).mp hj with hj | rfl
    · rw [get_fromRow_of_lt hj.1] at hk ⊢
      exact h.saved j r hj trivial hk
    · rw [get_fromRow_self] at hk ⊢
      obtain rfl : row = r := Option.some.inj (hfree.stored.symm.trans hk)
      rfl

/-- it links nothing, -/
theorem Linked.fromRow (h : Linked S w) {id : String} {row : InstanceRow}
    (hfree : Free w id row) : Linked S ((fromRow id row).exec w).2 := by
  -- old instances keep their hashes
  have hhash (j : Ref) (hj : Live w j) :
      hash S ((PluginInstance.fromRow id row).exec w).2 j = hash S w j := by
    rw [hash, hash, get_fromRow_of_lt hj.1]
  constructor
  · exact hfree.ids h.ids
  · exact hfree.rows h.rows
  · exact hfree.users h.clientRows
  · exact h.clientCache
  · intro j c hj hc
    rcases (live_fromRow id row w j).mp hj with hj | rfl
    · rw [get_fromRow_of_lt hj.1] at hc
      exact h.allocated j c hj hc
    · rw [get_fromRow_self] at hc
      cases hc
  · -- the new instance has no loader,
    intro l
    refine ((h.loaders l).rehash fun j hj => hhash j hj.1).congr fun j => ?_
    rw [live_fromRow]
    constructor
    · rintro ⟨hj, hl⟩
      exact ⟨Or.inl hj, by rw [get_fromRow_of_lt hj.1]; exact hl⟩
    · rintro ⟨hj | rfl, hl⟩
      · exact ⟨hj, by rw [← hl, get_fromRow_of_lt hj.1]⟩
      · rw [get_fromRow_self] at hl
        cases hl
  · -- and no client, so no set has to have it
    intro c hc
    refine ((h.clients c hc).rehash fun j hj => hhash j hj.1).congr fun j => ?_
    rw [live_fromRow]
    constructor
    · rintro ⟨hj, hl⟩
      exact ⟨Or.inl hj, by rw [get_fromRow_of_lt hj.1]; exact hl⟩
    · rintro ⟨hj | rfl, hl⟩
      · exact ⟨hj, by rw [← hl, get_fromRow_of_lt hj.1]⟩
      · rw [get_fromRow_self] at hl
        cases hl
  · exact h.removals

/-- A row that is inserted is nobody's yet. -/
theorem Sound.insertRow (h : Sound S g w) {id : String} {row : InstanceRow}
    (hnone : w.instanceRows id = none) (huser : (w.clientRows row.primaryUser).isSome = true) :
    Sound S g { w with instanceRows := Function.update w.instanceRows id (some row) } where
  tracked := tracked_setRow h.tracked id row
  linked := { h.linked with rows := fun j hj => isSome_update (h.linked.rows j hj) _ _ }
  saved :=
    { h.saved with
      rows := fun j hj => isSome_update (h.saved.rows j hj) _ _
      keys := fun k r hk => by
        replace hk : Function.update w.instanceRows id (some row) k = some r := hk
        by_cases hki : k = id
        · rw [hki, Function.update_self, Option.some.injEq] at hk
          rw [← hk]
          exact huser
        · rw [Function.update_of_ne hki] at hk
          exact h.saved.keys k r hk
      saved := fun j r hj _ hk => by
        have hne : (w.instances.get j).id ≠ id := fun hid => by
          have := h.saved.rows j hj
          rw [hid, hnone] at this
          cases this
        replace hk : Function.update w.instanceRows id (some row) (w.instances.get j).id = some r :=
          hk
        rw [Function.update_of_ne hne] at hk
        exact h.saved.saved j r hj trivial hk }

/-- and the world stays sound. -/
theorem Sound.fromRow (h : Sound S g w) {id : String} {row : InstanceRow}
    (hcache : w.instanceCache id = none) (hrow : w.instanceRows id = some row) :
    Sound S g ((fromRow id row).exec w).2 := by
  have hfree : Free w id row :=
    { unused := fun j hj hid => by
        have := h.tracked.live j hj
        rw [hid, hcache] at this
        cases this
      stored := hrow
      user := h.saved.keys id row hrow }
  exact
    { tracked := tracked_fromRow h.tracked row hcache (by rw [hrow]; rfl)
      linked := h.linked.fromRow hfree
      saved := h.saved.fromRow hfree }

/-- Hence a lookup keeps it sound, also one that creates. -/
theorem Sound.get (h : Sound S g w) (id : String) (t u : Option String) :
    Sound S g ((get id t u).exec w).2 := by
  rcases exec_get_cases id t u w with he | ⟨row, hc, hrow, he⟩ | ⟨row, hc, hnone, huser, he⟩ <;>
    rw [he]
  · exact h
  · exact h.fromRow hc hrow
  · exact (h.insertRow hnone huser).fromRow hc (Function.update_self _ _ _)

/-! ### Operations -/

/-- **Step.**  Every operation that does not rename keeps the installation sound, but for a
    careless update of a config that `g` shows. -/
theorem Sound.exec (h : Sound S g w) {op : Op} (hheld : op.Held w) (hop : ¬ op.Renames S w)
    (hcare : (∀ i c onUpdate, op = .updateConfig i c onUpdate → ¬ Careless w i c onUpdate) ∨
      ∀ r c, g { r with config := c } = g r) : Sound S g (op.exec S w) := by
  cases op with
  | get id t u => exact h.get id t u
  | load i => exact h.load (hheld i rfl)
  | start i env => exact h.start (hheld i rfl) env
  | stop i env => exact h.stop (hheld i rfl) env
  | updateId i n =>
    show Sound S g ((updateId S i n).exec w).2
    rw [exec_updateId_of_not_renames (h.linked.rows i (hheld i rfl)) hop]
    exact h
  | updatePrimaryUser i u env => exact h.updatePrimaryUser (hheld i rfl) u env
  | updateType i t env => exact h.updateType (hheld i rfl) t env
  | updateConfig i c onUpdate =>
    exact h.updateConfig (hheld i rfl) (hcare.imp_left fun hc => hc i c onUpdate rfl)
  | updateEnabled i e => exact h.updateEnabled (hheld i rfl) e
  | delete i env => exact h.delete (hheld i rfl) env

end Lifetime

end PluginInstance

end Maubot
