import Maubot.Instance.References
import Maubot.Instance.Steps

namespace Maubot

open Prog

/-!
# Plugin instances — fields and rows

The setters write the field first and the row later.

* `Saved g P w` — what `g` shows of the fields of the live instances in `P` is in their rows;
* `Saves L g i` — the frame of a step of the instance `i` that keeps it so, whatever `P` is;
  each pair of an assignment and an `update` is one (`saves_write`), and so `start` and `stop`
  are (`admits_saves`);
* `Careless` — the one update that can leave the field without the row: the plugin's
  `on_external_config_update` raises before `update` is reached.
-/

variable {L : Type} {S : Setup L}

namespace PluginInstance

variable {ρ : Type}

/-- The live instances have rows of their own, whose users exist; and the rows of those in `P`
    agree with their fields, as far as `g` shows them. -/
structure Saved (g : InstanceRow → ρ) (P : Ref → Prop) (w : World L) : Prop where
  ids   : ∀ i j, Live w i → Live w j → (w.instances.get i).id = (w.instances.get j).id → i = j
  users : ∀ i, Live w i → (w.clientRows (w.instances.get i).primaryUser).isSome = true
  rows  : ∀ i, Live w i → (w.instanceRows (w.instances.get i).id).isSome = true
  keys  : ∀ k row, w.instanceRows k = some row → (w.clientRows row.primaryUser).isSome = true
  saved : ∀ i row, Live w i → P i → w.instanceRows (w.instances.get i).id = some row →
    g row = g (w.instances.get i).row

/-- The instance is alive, or it is deleted and no row is left under its id. -/
def Owns (w : World L) (i : Ref) : Prop :=
  Live w i ∨ ((w.instances.get i).deleted = true ∧
    w.instanceRows (w.instances.get i).id = none)

section Saved

variable {g : InstanceRow → ρ} {P Q : Ref → Prop} {w w' : World L} {i : Ref}

/-- Fewer instances are saved if more are. -/
theorem Saved.mono (h : Saved g P w) (hQ : ∀ j, Live w j → Q j → P j) : Saved g Q w :=
  { h with saved := fun j row hj hq => h.saved j row hj (hQ j hj hq) }

/-- Nothing that matters has changed. -/
theorem Saved.congr (h : Saved g P w) (hlive : ∀ j, Live w' j ↔ Live w j)
    (hid : ∀ j, (w'.instances.get j).id = (w.instances.get j).id)
    (hrow : ∀ j, (w'.instances.get j).row = (w.instances.get j).row)
    (hrows : w'.instanceRows = w.instanceRows) (hclients : w'.clientRows = w.clientRows) :
    Saved g P w' where
  ids j k hj hk := by
    rw [hid, hid]
    exact h.ids j k ((hlive j).mp hj) ((hlive k).mp hk)
  users j hj := by
    have huser : (w'.instances.get j).primaryUser = (w.instances.get j).primaryUser :=
      congrArg InstanceRow.primaryUser (hrow j)
    rw [hclients, huser]
    exact h.users j ((hlive j).mp hj)
  rows j hj := by
    rw [hrows, hid]
    exact h.rows j ((hlive j).mp hj)
  keys k row hk := by
    rw [hclients]
    exact h.keys k row (by rw [← hrows]; exact hk)
  saved j row hj hP hk := by
    rw [hrow]
    exact h.saved j row ((hlive j).mp hj) hP (by rw [← hrows, ← hid]; exact hk)

/-! ### Assignments and the row -/

/-- A field besides the flag of deletion leaves who lives. -/
theorem live_setInstance {f : PluginInstance → PluginInstance}
    (hdel : ∀ inst, (f inst).deleted = inst.deleted) (j : Ref) :
    Live ((setInstance i f : Action L Unit).exec w).2 j ↔ Live w j := by
  show _ ∧ ((w.instances.modify i f).get j).deleted = false ↔ _
  rw [Store.view_modify w.instances i f PluginInstance.deleted hdel]
  rfl

/-- After an assignment, the row of the instance may be behind. -/
theorem Saved.setInstance (h : Saved g P w) {f : PluginInstance → PluginInstance}
    (hid : ∀ inst, (f inst).id = inst.id) (hdel : ∀ inst, (f inst).deleted = inst.deleted)
    (huser : Live w i → (w.clientRows (f (w.instances.get i)).primaryUser).isSome = true) :
    Saved g (fun j => P j ∧ j ≠ i) ((setInstance i f : Action L Unit).exec w).2 where
  ids j k hj hk := by
    show ((w.instances.modify i f).get j).id = ((w.instances.modify i f).get k).id → _
    rw [Store.view_modify _ _ _ PluginInstance.id hid,
      Store.view_modify _ _ _ PluginInstance.id hid]
    exact h.ids j k ((live_setInstance hdel j).mp hj) ((live_setInstance hdel k).mp hk)
  users j hj := by
    have hj' := (live_setInstance hdel j).mp hj
    by_cases hji : j = i
    · subst hji
      rw [get_setInstance_self]
      exact huser hj'
    · show (w.clientRows ((w.instances.modify i f).get j).primaryUser).isSome = true
      rw [Store.get_modify_ne _ _ hji]
      exact h.users j hj'
  rows j hj := by
    show (w.instanceRows ((w.instances.modify i f).get j).id).isSome = true
    rw [Store.view_modify _ _ _ PluginInstance.id hid]
    exact h.rows j ((live_setInstance hdel j).mp hj)
  keys := h.keys
  saved j row hj hP hk := by
    have hget : ((Maubot.setInstance i f : Action L Unit).exec w).2.instances.get j =
        w.instances.get j := Store.get_modify_ne _ _ hP.2
    rw [hget] at hk ⊢
    exact h.saved j row ((live_setInstance hdel j).mp hj) hP.1 hk

/-- `update` brings the row of a live instance up to date. -/
theorem Saved.update (h : Saved g P w) (hi : Live w i) :
    ∃ w', (update i).exec w = (.ok (), w') ∧ w'.instances = w.instances ∧
      w'.clientRows = w.clientRows ∧ Saved g (fun j => P j ∨ j = i) w' := by
  -- its row is there, and its user's, so the update takes effect
  have hrow : (w.instanceRows (w.instances.get i).id).isNone = false := by
    rw [← Option.not_isSome, h.rows i hi]
    rfl
  have huser : (w.clientRows (w.instances.get i).primaryUser).isNone = false := by
    rw [← Option.not_isSome, h.users i hi]
    rfl
  refine ⟨{ w with
    instanceRows := Function.update w.instanceRows (w.instances.get i).id
      (some (w.instances.get i).row) }, ?_, rfl, rfl, ?_⟩
  · rw [PluginInstance.update, exec_get_bind]
    dsimp only
    rw [hrow, huser, if_neg Bool.false_ne_true, if_neg Bool.false_ne_true]
    rfl
  · refine { h with rows := fun j hj => ?_, keys := fun k row hk => ?_, saved := ?_ }
    · exact isSome_update (h.rows j hj) _ _
    · replace hk : Function.update w.instanceRows (w.instances.get i).id _ k = some row := hk
      by_cases hki : k = (w.instances.get i).id
      · rw [hki, Function.update_self, Option.some.injEq] at hk
        rw [← hk]
        exact h.users i hi
      · rw [Function.update_of_ne hki] at hk
        exact h.keys k row hk
    · intro j row hj hP hk
      replace hk : Function.update w.instanceRows (w.instances.get i).id _
        (w.instances.get j).id = some row := hk
      -- the row that was written is the instance's own, since ids are apart
      by_cases hji : j = i
      · rw [hji, Function.update_self, Option.some.injEq] at hk
        rw [hji, ← hk]
      · rw [Function.update_of_ne fun hid => hji (h.ids j i hj hi hid)] at hk
        exact h.saved j row hj (hP.resolve_right hji) hk

/-- Writing the row changes no object. -/
theorem instances_update (i : Ref) (w : World L) :
    ((update i).exec w).2.instances = w.instances := by
  rw [update, exec_get_bind]
  dsimp only
  split
  · rfl
  · split <;> rfl

/-- A deleted instance has no row to write to. -/
theorem exec_update_deleted (h : w.instanceRows (w.instances.get i).id = none) :
    (update i).exec w = (.ok (), w) := by
  simp [update, h]

end Saved

/-! ### The frame -/

/-- The frame of a step of the instance `i` that keeps rows and fields together. -/
def Saves (L : Type) (g : InstanceRow → ρ) (i : Ref) : Frame (World L) where
  rel w w' := Owns w i → Owns w' i ∧ (∀ j, Live w' j ↔ Live w j) ∧
    ∀ P, Saved g P w → Saved g P w'
  refl _ h := ⟨h, fun _ => Iff.rfl, fun _ hs => hs⟩
  trans h h' hi := by
    obtain ⟨h₁, hlive, hs⟩ := h hi
    obtain ⟨h₂, hlive', hs'⟩ := h' h₁
    exact ⟨h₂, fun j => (hlive' j).trans (hlive j), fun P hP => hs' P (hs P hP)⟩

section Saves

variable {g : InstanceRow → ρ} {i : Ref}

/-- A step that changes neither instances nor tables. -/
theorem saves_of_tables {w w' : World L} (hinst : w'.instances = w.instances)
    (hrows : w'.instanceRows = w.instanceRows) (hclients : w'.clientRows = w.clientRows) :
    (Saves L g i).rel w w' := by
  intro hi
  have hlive (j : Ref) : Live w' j ↔ Live w j := by rw [Live, Live, hinst]
  refine ⟨?_, hlive, fun P h => h.congr hlive (fun j => by rw [hinst]) (fun j => by rw [hinst])
    hrows hclients⟩
  rw [Owns, hlive, hinst, hrows]
  exact hi

/-- An assignment to fields that are not in the row. -/
theorem saves_assign (f : PluginInstance → PluginInstance) (hid : ∀ inst, (f inst).id = inst.id)
    (hdel : ∀ inst, (f inst).deleted = inst.deleted) (hrow : ∀ inst, (f inst).row = inst.row) :
    Keeps (Saves L g i) (setInstance i f) := by
  intro w hi
  have hids (j : Ref) : (((setInstance i f : Action L Unit).exec w).2.instances.get j).id =
      (w.instances.get j).id := Store.view_modify _ _ _ PluginInstance.id hid j
  refine ⟨?_, live_setInstance hdel, fun P h => h.congr (live_setInstance hdel) hids
    (Store.view_modify _ _ _ PluginInstance.row hrow) rfl rfl⟩
  rw [Owns, live_setInstance hdel, hids, get_setInstance_self, hdel]
  exact hi

/-- The row of a live instance follows the field. -/
theorem Saved.write {P : Ref → Prop} {w : World L} (h : Saved g P w) (hi : Live w i)
    (f : PluginInstance → PluginInstance) (hid : ∀ inst, (f inst).id = inst.id)
    (hdel : ∀ inst, (f inst).deleted = inst.deleted)
    (huser : (w.clientRows (f (w.instances.get i)).primaryUser).isSome = true) :
    ∃ w', (do Maubot.setInstance i f; PluginInstance.update i : Action L Unit).exec w =
      (.ok (), w') ∧
      w'.instances = w.instances.modify i f ∧ Saved g (fun j => P j ∨ j = i) w' := by
  obtain ⟨w', hw', hinst, -, hs⟩ := (h.setInstance (i := i) hid hdel fun _ => huser).update
    ((live_setInstance hdel i).mpr hi)
  refine ⟨w', hw', hinst, hs.mono fun j _ hj => ?_⟩
  by_cases hji : j = i
  · exact Or.inr hji
  · exact Or.inl ⟨hj.resolve_right hji, hji⟩

/-- **Assignment and `update`.**  So the pair keeps rows and fields together. -/
theorem saves_write (f : PluginInstance → PluginInstance) (hid : ∀ inst, (f inst).id = inst.id)
    (hdel : ∀ inst, (f inst).deleted = inst.deleted)
    (huser : ∀ inst, (f inst).primaryUser = inst.primaryUser) :
    Keeps (Saves L g i) (do setInstance i f; update i) := by
  intro w hi
  have hidi : (((setInstance i f : Action L Unit).exec w).2.instances.get i).id =
      (w.instances.get i).id := by rw [get_setInstance_self, hid]
  have hlive (j : Ref) := live_setInstance (w := w) (i := i) hdel j
  have hsame (j : Ref) :
      Live ((do setInstance i f; update i : Action L Unit).exec w).2 j ↔ Live w j := by
    rw [exec_setInstance_bind, ← hlive j, Live, Live, instances_update]
  rcases hi with hi | ⟨hdeleted, hnone⟩
  · refine ⟨Or.inl ((hsame i).mpr hi), hsame, fun P h => ?_⟩
    obtain ⟨w', hw', -, hs⟩ := h.write hi f hid hdel (by rw [huser]; exact h.users i hi)
    rw [hw']
    exact hs.mono fun j _ hj => Or.inl hj
  · -- a deleted instance has no row, and the live ones have not changed
    have hdel' : (((setInstance i f : Action L Unit).exec w).2.instances.get i).deleted = true := by
      rw [get_setInstance_self, hdel]
      exact hdeleted
    rw [exec_setInstance_bind, exec_update_deleted (by rw [hidi]; exact hnone)]
    refine ⟨Or.inr ⟨hdel', by rw [hidi]; exact hnone⟩, hlive, fun P h =>
      (h.setInstance hid hdel fun hi => by rw [huser]; exact h.users i hi).mono fun j hj hP =>
        ⟨hP, ?_⟩⟩
    rintro rfl
    have halive := hj.2
    rw [hdel'] at halive
    cases halive

/-- After it the row shows the object. -/
theorem saves_update : Keeps (Saves L g i) (update i) := by
  have h : Keeps (Saves L g i) (do setInstance i fun inst => inst; update i) :=
    saves_write _ (fun _ => rfl) (fun _ => rfl) fun _ => rfl
  intro w
  have hw := h w
  rw [exec_setInstance_bind] at hw
  have hid : ((setInstance i fun inst => inst : Action L Unit).exec w).2 = w := by
    show { w with instances := w.instances.modify i fun inst => inst } = w
    rw [Store.modify_id]
  rw [hid] at hw
  exact hw

/-- Handling an exception of `m` changes nothing. -/
theorem exec_attempt_pure {α : Type} (p : PyExc → Bool) (m : Action L α) (hp : ∀ e, p e = true)
    (w : World L) : ((do let _ ← attempt p m; pure () : Action L Unit).exec w).2 =
      (m.exec w).2 := by
  rw [exec_bind, exec_attempt]
  rcases m.exec w with ⟨e | a, w'⟩
  · simp only [hp, if_true, exec_pure]
  · rfl

/-- So it does after `update_enabled`, -/
theorem saves_updateEnabled (e : Option Bool) : Keeps (Saves L g i) (updateEnabled i e) := by
  refine keeps_bind keeps_get fun w => ?_
  cases e with
  | none => exact keeps_pure ()
  | some b =>
    exact keeps_ite (keeps_pure ()) (saves_write _ (fun _ => rfl) (fun _ => rfl) fun _ => rfl)

/-- and after `update_db_engine`. -/
theorem saves_updateDbEngine (e : Option DatabaseEngine) :
    Keeps (Saves L g i) (updateDbEngine i e) := by
  refine keeps_bind keeps_get fun w => ?_
  cases e with
  | none => exact keeps_pure ()
  | some b =>
    exact keeps_ite (keeps_pure ()) (saves_write _ (fun _ => rfl) (fun _ => rfl) fun _ => rfl)

/-- The background task writes what `save_config` has assigned. -/
theorem saves_saveConfig (val : String) : Keeps (Saves L g i) (saveConfig i val) := by
  refine keeps_bind keeps_get fun w => keeps_ite (keeps_pure ()) fun w => ?_
  rw [exec_setInstance_bind, exec_attempt_pure _ _ fun _ => rfl, ← exec_setInstance_bind i _
    fun _ => update i]
  exact saves_write (fun inst => { inst with configStr := val }) (fun _ => rfl) (fun _ => rfl)
    (fun _ => rfl) w

/-- A client that is looked up leaves the rows of instances. -/
theorem saves_getClient (u : String) : Keeps (Saves L g i) (Client.get S u none none none) := by
  intro w
  rcases Client.exec_get (S := S) u w with ⟨c, -, h⟩ | ⟨row, w', -, -, h, hmade⟩ | ⟨-, -, h⟩ <;>
    rw [h]
  · exact (Saves L g i).refl w
  · rw [hmade.others]
    exact saves_of_tables rfl rfl rfl
  · exact (Saves L g i).refl w

/-- Handlers are in no row, -/
theorem saves_removeHandlers (p : Ref) : Keeps (Saves L g i) (Plugin.removeHandlers p) :=
  keeps_bind keeps_get fun _ => keeps_forM fun _ _ _ => saves_of_tables rfl rfl rfl

/-- and neither is the plugin object. -/
theorem saves_construct (l cls : Ref) (env : StartEnv) :
    Keeps (Saves L g i) (construct i l cls env) :=
  keeps_bind (AdmitsParts.theClient i) fun _ => keeps_bind (keeps_raiseIf _) fun _ =>
    keeps_bind keeps_get fun _ =>
    keeps_bind (keeps_modify fun _ => saves_of_tables rfl rfl rfl) fun _ =>
    keeps_bind (saves_assign _ (fun _ => rfl) (fun _ => rfl) fun _ => rfl) fun _ => keeps_pure _

/-- What sets aside saves what it sets. -/
theorem saves_aside {w w' : World L} (h : SetAside w w') : (Saves L g i).rel w w' := by
  rw [h]
  exact saves_of_tables rfl rfl rfl

/-- **Start and stop.**  Their steps keep rows and fields together. -/
theorem admits_saves : Admits S i (Saves L g i) where
  aside := saves_aside
  assign f hf := saves_assign f hf.id hf.deleted hf.row
  enableWebapp := keeps_enableWebapp (fun _ _ _ => saves_of_tables rfl rfl rfl) fun _ _ =>
    saves_assign _ (fun _ => rfl) (fun _ => rfl) fun _ => rfl
  disableWebapp := keeps_disableWebapp (fun _ _ _ => saves_of_tables rfl rfl rfl) fun _ _ =>
    saves_assign _ (fun _ => rfl) (fun _ => rfl) fun _ => rfl
  updateEnabled := saves_updateEnabled
  updateDbEngine := saves_updateDbEngine
  saveConfig := saves_saveConfig
  getClient := saves_getClient
  addToClient _ _ := saves_of_tables rfl rfl rfl
  construct := saves_construct
  register _ _ _ := keeps_bind (fun _ => saves_of_tables rfl rfl rfl) fun _ =>
    keeps_bind keeps_get fun _ _ => saves_of_tables rfl rfl rfl
  removeHandlers := saves_removeHandlers

/-- References are in no row, at the loader -/
theorem saves_removeFromLoader : Keeps (Saves L g i) (removeFromLoader S i) := by
  refine keeps_bind keeps_get fun w => ?_
  split
  · exact keeps_pure ()
  · split
    · exact fun _ => saves_of_tables rfl rfl rfl
    · exact keeps_bind (fun _ => saves_of_tables rfl rfl rfl) fun _ => keeps_throw _

/-- or at the client. -/
theorem saves_removeFromClient : Keeps (Saves L g i) (removeFromClient S i) := by
  refine keeps_bind keeps_get fun w => ?_
  split
  · exact keeps_pure ()
  · split
    · exact fun _ => saves_of_tables rfl rfl rfl
    · exact keeps_bind (fun _ => saves_of_tables rfl rfl rfl) fun _ => keeps_throw _

end Saves

/-! ### Updates of the config -/

/-- A web handler of these objects is refused. -/
def Refused (obj : List Attribute) : Prop :=
  ∃ a ∈ obj, a.gettable = true ∧ ∃ h ∈ a.webHandlers, h.refused ≠ none

/-- The plugin's `on_external_config_update` raises for the new config before it has had
    another text saved. -/
def Careless (w : World L) (i : Ref) (config : Option String) (onUpdate : Hook) : Prop :=
  ∃ c p, config = some c ∧ c ≠ (w.instances.get i).configStr ∧
    (w.instances.get i).started = true ∧ (w.instances.get i).plugin = some p ∧
    (((w.plugins.get p).webapp ≠ none ∧ ∃ obj ∈ onUpdate.registers, Refused obj) ∨
      (onUpdate.raises ≠ none ∧ ∀ val ∈ onUpdate.saves, val = c))

section UpdateConfig

variable {g : InstanceRow → ρ} {i p : Ref} {P : Ref → Prop}

/-- The plugin `p` has a web app or not, as `b` says, and the instances are `insts`. -/
def Hooked (p : Ref) (b : Bool) (insts : Store PluginInstance) (w : World L) : Prop :=
  (w.plugins.get p).webapp.isSome = b ∧ w.instances = insts

/-- Registering handlers raises only if the plugin has a web app and a handler is refused. -/
theorem triple_registerHandlerClass {b : Bool} {insts : Store PluginInstance}
    {obj : List Attribute} (h : b = true → ¬ Refused obj) :
    Triple (Hooked p b insts) (Plugin.registerHandlerClass p obj : Action L Unit)
      (fun _ => Hooked p b insts) (fun _ => False) := by
  refine triple_forM fun a ha => ?_
  have hevents : Triple (Hooked p b insts)
      (a.eventTypes.forM (Plugin.registerEventHandler p a.val) : Action L Unit)
      (fun _ => Hooked p b insts) (fun _ => False) := by
    refine triple_forM fun t _ => Triple.bind (Q := fun _ => Hooked p b insts)
      (triple_modify fun w hw => ?_) fun _ => triple_read fun w hw => triple_modify fun _ h => h
    refine ⟨?_, hw.2⟩
    rw [← hw.1]
    exact congrArg Option.isSome (Store.view_modify w.plugins p (fun pl =>
      { pl with handlersAtStartup := pl.handlersAtStartup ++ [(.plugin a.val, t)] })
      Plugin.webapp (fun _ => rfl) p)
  rw [Plugin.registerAttribute]
  split
  · next hgettable =>
    refine hevents.bind fun _ => triple_read fun w hw => ?_
    split
    · exact triple_pure fun _ h => h
    · next app happ =>
      -- there is a web app, so no route is refused
      have hb : b = true := by rw [← hw.1, happ]; rfl
      refine triple_forM fun x hx => ?_
      have hnone : x.refused = none := by
        by_contra hne
        exact h hb ⟨a, ha, hgettable, x, hx, hne⟩
      rw [hnone]
      exact triple_modify fun _ h => h
  · exact triple_pure fun _ h => h

/-- Saving a text other than the present one brings the row up to date. -/
theorem saved_saveConfig {w : World L} (h : Saved g P w) (hi : Live w i) {val : String}
    (hval : val ≠ (w.instances.get i).configStr) :
    Saved g (fun j => P j ∨ j = i) ((saveConfig i val).exec w).2 := by
  obtain ⟨w', hw', -, hs⟩ := h.write hi (fun inst => { inst with configStr := val })
    (fun _ => rfl) (fun _ => rfl) (h.users i hi)
  rw [saveConfig, exec_get_bind, if_neg hval, exec_setInstance_bind,
    exec_attempt_pure _ _ fun _ => rfl, ← exec_setInstance_bind i _ fun _ => update i, hw']
  exact hs

/-- A config is saved without an exception. -/
theorem returns_saveConfig (i : Ref) (val : String) : Returns (saveConfig i val : Action L Unit) :=
  raises_bind raises_get fun _ => raises_ite (raises_pure ()) <|
    raises_bind (raises_modify _) fun _ => raises_bind (returns_attempt _) fun _ => raises_pure ()

/-- … and so does a list of texts that has one. -/
theorem saved_forM_saveConfig {vals : List String} {w : World L} (h : Saved g (· ≠ i) w)
    (hi : Live w i) (hval : ∃ val ∈ vals, val ≠ (w.instances.get i).configStr) :
    Saved g (fun _ => True) ((vals.forM (saveConfig i) : Action L Unit).exec w).2 := by
  induction vals generalizing w with
  | nil =>
    obtain ⟨val, hmem, -⟩ := hval
    cases hmem
  | cons val vals ih =>
    show Saved g _ ((saveConfig i val >>= fun _ => vals.forM (saveConfig i)).exec w).2
    have hfirst : (saveConfig i val).exec w = (.ok (), ((saveConfig i val).exec w).2) := by
      obtain ⟨_, hok⟩ := (returns_saveConfig i val).exists_ok w
      exact Prod.ext hok rfl
    rw [exec_bind_ok hfirst]
    by_cases hsame : val = (w.instances.get i).configStr
    · -- nothing to save yet
      have hskip : ((saveConfig i val).exec w).2 = w := by simp [saveConfig, hsame]
      rw [hskip]
      refine ih h hi ?_
      obtain ⟨v, hmem, hv⟩ := hval
      rcases List.mem_cons.mp hmem with rfl | hmem
      · exact absurd hsame hv
      · exact ⟨v, hmem, hv⟩
    · have hall : Saved g (fun _ => True) ((saveConfig i val).exec w).2 :=
        (saved_saveConfig h hi hsame).mono fun j _ _ => (ne_or_eq j i)
      have hlive : Live ((saveConfig i val).exec w).2 i :=
        ((saves_saveConfig (g := g) val w (Or.inl hi)).2.1 i).mpr hi
      exact (keeps_forM (fun v _ => saves_saveConfig v) _ (Or.inl hlive)).2.2 _ hall

/-- A plugin that is told of a config saves what it sets. -/
theorem saves_notifyPlugin (S : Setup L) (onUpdate : Hook) :
    Keeps (Saves L g i) (notifyPlugin i onUpdate) := by
  refine keeps_bind keeps_get fun w => ?_
  split
  · exact (admits_saves (S := S)).parts.runHook _ onUpdate
  · exact keeps_pure ()

/-- The plugin hears of the new config `c` while the row is behind: either it has brought the
    row up to date, or it returns. -/
theorem saved_notifyPlugin (S : Setup L) {w : World L} (h : Saved g (· ≠ i) w) (hi : Live w i)
    (onUpdate : Hook)
    (hcare : ∀ p, (w.instances.get i).started = true → (w.instances.get i).plugin = some p →
      ((w.plugins.get p).webapp ≠ none → ∀ obj ∈ onUpdate.registers, ¬ Refused obj) ∧
        (onUpdate.raises = none ∨ ∃ val ∈ onUpdate.saves, val ≠ (w.instances.get i).configStr)) :
    ∃ r w', (notifyPlugin i onUpdate).exec w = (r, w') ∧
      (Saved g (fun _ => True) w' ∨ r = .ok ()) := by
  rw [notifyPlugin, exec_get_bind]
  split
  · next p hstarted hplugin =>
    obtain ⟨hregisters, hraises⟩ := hcare p hstarted hplugin
    -- the registrations return and touch no instance
    have htriple : Triple (Hooked p (w.plugins.get p).webapp.isSome w.instances)
        (onUpdate.registers.forM (Plugin.registerHandlerClass p) : Action L Unit)
        (fun _ => Hooked p (w.plugins.get p).webapp.isSome w.instances) (fun _ => False) :=
      triple_forM fun obj hobj => triple_registerHandlerClass fun hb =>
        hregisters (Option.isSome_iff_ne_none.mp hb) obj hobj
    obtain ⟨⟨⟩, w₁, hw₁, -, hinst⟩ := htriple.returns (s := w) ⟨rfl, rfl⟩
    have hkeep : Keeps (Saves L g i)
        (onUpdate.registers.forM (Plugin.registerHandlerClass p) : Action L Unit) :=
      keeps_forM fun obj _ => (admits_saves (S := S)).parts.registerHandlerClass p obj
    have hframe := hkeep w (Or.inl hi)
    rw [hw₁] at hframe
    have h₁ : Saved g (· ≠ i) w₁ := hframe.2.2 _ h
    have hi₁ : Live w₁ i := (hframe.2.1 i).mpr hi
    rw [Plugin.runHook, exec_bind_ok hw₁]
    have hsaves : Returns (onUpdate.saves.forM (saveConfig i) : Action L Unit) :=
      raises_forM fun val _ => returns_saveConfig i val
    obtain ⟨⟨⟩, hok⟩ := hsaves.exists_ok w₁
    have hw₂ : (onUpdate.saves.forM (saveConfig i) : Action L Unit).exec w₁ =
        (.ok (), ((onUpdate.saves.forM (saveConfig i) : Action L Unit).exec w₁).2) :=
      Prod.ext hok rfl
    rw [exec_bind_ok hw₂]
    rcases hraises with hnone | hval
    · rw [hnone]
      exact ⟨_, _, rfl, Or.inr rfl⟩
    · refine ⟨_, _, rfl, Or.inl ?_⟩
      have hall := saved_forM_saveConfig h₁ hi₁ (by rw [hinst]; exact hval)
      cases onUpdate.raises <;> exact hall
  · exact ⟨_, _, rfl, Or.inr rfl⟩

/-- `Careless` is the only way to leave the row behind. -/
theorem saved_updateConfig (S : Setup L) {w : World L} (h : Saved g (fun _ => True) w)
    (hi : Live w i)
    {config : Option String} {onUpdate : Hook}
    (hcare : ¬ Careless w i config onUpdate ∨ ∀ r c, g { r with config := c } = g r) :
    Saved g (fun _ => True) ((updateConfig i config onUpdate).exec w).2 := by
  cases config with
  | none => exact h
  | some c =>
    rw [updateConfig, exec_get_bind]
    dsimp only
    split
    · exact h
    next hne =>
    rw [exec_setInstance_bind]
    -- every other instance is still saved; this one may be behind
    have h₁ := (h.setInstance (i := i) (f := fun inst => { inst with configStr := c })
      (fun _ => rfl) (fun _ => rfl) fun hi => h.users i hi).mono (Q := (· ≠ i))
        fun _ _ hj => ⟨trivial, hj⟩
    have hi₁ := (live_setInstance (w := w) (i := i) (f := fun inst => { inst with configStr := c })
      (fun _ => rfl) i).mpr hi
    have hget : ((setInstance i fun inst => { inst with configStr := c } :
        Action L Unit).exec w).2.instances.get i = { w.instances.get i with configStr := c } :=
      get_setInstance_self _ _ _
    rcases hcare with hcare | hg
    · -- the row is behind until the plugin or `update` writes it
      obtain ⟨r, w₂, hw₂, hr⟩ := saved_notifyPlugin S h₁ hi₁ onUpdate (by
        intro p hstarted hplugin
        rw [hget] at hstarted hplugin ⊢
        constructor
        · intro hwebapp obj hobj hrefused
          exact hcare ⟨c, p, rfl, fun hc => hne hc.symm, hstarted, hplugin,
            Or.inl ⟨hwebapp, obj, hobj, hrefused⟩⟩
        · by_contra hcon
          push Not at hcon
          exact hcare ⟨c, p, rfl, fun hc => hne hc.symm, hstarted, hplugin, Or.inr hcon⟩)
      have hframe := saves_notifyPlugin (g := g) (i := i) S onUpdate _ (Or.inl hi₁)
      rw [hw₂] at hframe
      have hi₂ : Live w₂ i := (hframe.2.1 i).mpr hi₁
      rcases hr with hall | rfl
      · cases r with
        | error e =>
          rw [exec_bind_error hw₂]
          exact hall
        | ok _ =>
          rw [exec_bind_ok hw₂]
          exact (saves_update w₂ (Or.inl hi₂)).2.2 _ hall
      · rw [exec_bind_ok hw₂]
        obtain ⟨w₃, hw₃, -, -, hs⟩ := (hframe.2.2 _ h₁).update hi₂
        rw [hw₃]
        exact hs.mono fun j _ _ => ne_or_eq j i
    · -- `g` does not see the config
      have hall : Saved g (fun _ => True) ((setInstance i fun inst => { inst with configStr := c } :
          Action L Unit).exec w).2 := by
        refine { h₁ with saved := fun j row hj _ hk => ?_ }
        by_cases hji : j = i
        · subst hji
          rw [hget] at hk ⊢
          exact (h.saved j row hi trivial hk).trans (hg _ c).symm
        · exact h₁.saved j row hj hji hk
      exact (keeps_bind (saves_notifyPlugin S onUpdate) (fun _ => saves_update) _
        (Or.inl hi₁)).2.2 _ hall

end UpdateConfig

end PluginInstance

end Maubot
