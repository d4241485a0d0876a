import Maubot.Instance.Exceptions
import Maubot.Instance.Sound

namespace Maubot

open Prog

/-!
# Plugin instances — running and enabled

* `Flags L i` — the frame of a step that leaves alone whether the instance `i` runs and whether it
  may, and all loaders;
* `Others L i` — the frame of a step that leaves all other instances alone;
* `start_settled` — a start that returns leaves the instance running if and only if it is enabled,
  and one that raises leaves it as it was;
* `load_equipped` — a load returns, and an instance that is still enabled has its loader and its
  client.
-/

variable {L : Type} {S : Setup L}

namespace PluginInstance

variable {α : Type} {i : Ref}

/-- Whether the instance runs, and whether it may -/
def flags (inst : PluginInstance) : Bool × Bool := (inst.started, inst.enabled)

/-- The flags of the instance are as before, and so are the loaders. -/
abbrev Flags (L : Type) (i : Ref) : Frame (World L) :=
  .ofView fun w => ((w.instances.get i).flags, w.loaders)

/-! ### Steps that keep the flags -/

/-- A field besides the flags may be set. -/
theorem flags_setInstance (j : Ref) {f : PluginInstance → PluginInstance}
    (hf : ∀ inst, (f inst).flags = inst.flags) : Keeps (Flags L i) (setInstance j f) := fun w =>
  Prod.ext (Store.view_modify w.instances j f flags hf i) rfl

/-- A step that concerns neither instances nor loaders -/
theorem flags_modify {f : World L → World L}
    (hf : ∀ w, (f w).instances = w.instances ∧ (f w).loaders = w.loaders) :
    Keeps (Flags L i) (modify f : Action L Unit) := fun w =>
  Prod.ext (congrArg (fun s : Store PluginInstance => (s.get i).flags) (hf w).1) (hf w).2

/-- The row is no flag. -/
theorem flags_update : Keeps (Flags L i) (update i) :=
  keeps_bind keeps_get fun _ => keeps_ite (keeps_pure ()) <| keeps_ite (keeps_throw _) <|
    flags_modify fun _ => ⟨rfl, rfl⟩

/-- Neither is the engine, -/
theorem flags_updateDbEngine (e : Option DatabaseEngine) :
    Keeps (Flags L i) (updateDbEngine i e) := by
  refine keeps_bind keeps_get fun w => ?_
  cases e with
  | none   => exact keeps_pure ()
  | some e =>
    apply keeps_ite (keeps_pure ())
    exact keeps_bind (flags_setInstance i fun _ => rfl) fun _ => flags_update

/-- the database, -/
theorem flags_startDatabase (sqliteDbExists : Bool) (create : Option PyExc)
    (actuallyStart : Option (Option PyExc)) :
    Keeps (Flags L i) (startDatabase S i sqliteDbExists create actuallyStart) := by
  have hset (db : InstDb) : Keeps (Flags L i) (setInstDb i create db) :=
    keeps_bind (keeps_raiseIf create) fun _ => flags_setInstance i fun _ => rfl
  have hlegacy : Keeps (Flags L i) (checkLegacyEngine i) := by
    refine keeps_bind keeps_get fun w => ?_
    split
    · exact flags_updateDbEngine _
    · exact keeps_throw _
    · exact keeps_pure ()
  have hchoose : Keeps (Flags L i) (chooseEngine S i sqliteDbExists) := by
    refine keeps_bind keeps_get fun w => ?_
    split
    · exact keeps_pure ()
    · exact keeps_ite (flags_updateDbEngine _) (flags_updateDbEngine _)
  have hcreate : Keeps (Flags L i) (createAsyncpg S i create) :=
    keeps_bind keeps_get fun _ => keeps_ite (keeps_ite (hset _) (keeps_throw _)) (hset _)
  refine keeps_bind (AdmitsParts.theLoader i) fun l => keeps_bind keeps_get fun w => ?_
  split
  · exact keeps_bind hlegacy fun _ => hset _
  · exact keeps_bind hchoose fun _ => keeps_bind hcreate fun _ => keeps_raiseIf _
  · exact keeps_throw _

/-- the web app, -/
theorem flags_adjustWebapp (l : Ref) : Keeps (Flags L i) (adjustWebapp S i l) := by
  refine keeps_bind keeps_get fun w => keeps_ite ?_ (keeps_ite ?_ (keeps_pure ()))
  · exact keeps_enableWebapp (fun _ _ _ => rfl) fun _ _ => flags_setInstance i fun _ => rfl
  · exact keeps_disableWebapp (fun _ _ _ => rfl) fun _ _ => flags_setInstance i fun _ => rfl

/-- the config -/
theorem flags_readConfig (env : StartEnv) : Keeps (Flags L i) (readConfig i env) :=
  keeps_bind (keeps_outcome _) fun _ => keeps_ite
    (keeps_bind (keeps_attempt (keeps_raiseIf _) _) fun _ => flags_setInstance i fun _ => rfl)
    (keeps_pure ())

/-- or the plugin object. -/
theorem flags_construct (l cls : Ref) (env : StartEnv) :
    Keeps (Flags L i) (construct i l cls env) :=
  keeps_bind (AdmitsParts.theClient i) fun _ => keeps_bind (keeps_raiseIf _) fun _ =>
    keeps_bind keeps_get fun _ => keeps_bind (flags_modify fun _ => ⟨rfl, rfl⟩) fun _ =>
    keeps_bind (flags_setInstance i fun _ => rfl) fun _ => keeps_pure _

/-- A plugin object that starts sets no flag of the instance. -/
theorem flags_internalStart (p : Ref) (env : StartEnv) :
    Keeps (Flags L i) (Plugin.internalStart (saveConfig i) p env.attributes env.preStart
      env.start) := by
  have hregister (obj : List Attribute) :
      Keeps (Flags L i) (Plugin.registerHandlerClass p obj) := by
    refine keeps_forM fun a _ => keeps_ite ?_ (keeps_pure ())
    refine keeps_bind (keeps_forM fun t _ => ?_) fun _ => keeps_bind keeps_get fun w => ?_
    · exact keeps_bind (flags_modify fun _ => ⟨rfl, rfl⟩) fun _ => keeps_bind keeps_get fun _ =>
        flags_modify fun _ => ⟨rfl, rfl⟩
    · split
      · exact keeps_pure ()
      · exact keeps_forM fun x _ => keeps_bind (keeps_raiseIf _) fun _ =>
          flags_modify fun _ => ⟨rfl, rfl⟩
  have hsave (val : String) : Keeps (Flags L i) (saveConfig i val) :=
    keeps_bind keeps_get fun _ => keeps_ite (keeps_pure ()) <|
      keeps_bind (flags_setInstance i fun _ => rfl) fun _ =>
      keeps_bind (keeps_attempt flags_update _) fun _ => keeps_pure ()
  have hhook (h : Hook) : Keeps (Flags L i) (Plugin.runHook (saveConfig i) p h) :=
    keeps_bind (keeps_forM fun obj _ => hregister obj) fun _ =>
      keeps_bind (keeps_forM fun val _ => hsave val) fun _ => keeps_raiseIf _
  exact keeps_bind (hhook _) fun _ => keeps_bind (hregister _) fun _ => hhook _

/-! ### A start -/

/-- The instance has its loader and its client. -/
def Complete (inst : PluginInstance) : Prop := inst.loader.isSome = true ∧ inst.client.isSome = true

/-- An enabled instance has its loader and its client. -/
def Equipped (i : Ref) (w : World L) : Prop :=
  (w.instances.get i).enabled = true → (w.instances.get i).Complete

/-- A disabled instance needs nothing. -/
theorem equipped_of_disabled {w : World L} (h : (w.instances.get i).enabled = false) :
    Equipped i w := by
  intro henabled
  rw [h] at henabled
  cases henabled

/-- The instance runs if and only if it is enabled. -/
def Even (i : Ref) (w : World L) : Prop :=
  (w.instances.get i).started = (w.instances.get i).enabled

/-- The instance is about to be started. -/
def Due (i : Ref) (w : World L) : Prop := (w.instances.get i).flags = (false, true)

/-- An instance that is due is not started yet. -/
theorem started_of_due {w : World L} (h : Due i w) : (w.instances.get i).started = false :=
  congrArg Prod.fst h

/-- It stays due while no flag is set. -/
theorem triple_due {m : Action L α} (hm : Keeps (Flags L i) m) :
    Triple (Due i) m (fun _ => Due i) fun w => (w.instances.get i).started = false :=
  (hm.triple fun _ _ h hdue => Eq.trans (congrArg Prod.fst h) hdue).post (fun _ _ h => h)
    fun _ => started_of_due

/-- Whether or not the row can be written, the object is disabled. -/
theorem flags_disable (w : World L) :
    (((updateEnabled i (some false)).exec w).2.instances.get i).flags =
      ((w.instances.get i).started, false) := by
  rw [updateEnabled, exec_get_bind]
  dsimp only
  split
  · next h => rw [h]; rfl
  · have hrest := rel_bind (F := Flags L i)
      (m := setInstance i fun inst => { inst with enabled := false })
      (fun _ => flags_update (i := i)) w
    exact Eq.trans (congrArg Prod.fst hrest) (congrArg flags (get_setInstance_self i _ w))

/-- It is even once it has been disabled. -/
theorem triple_disable_due (x : Failure) :
    Triple (Due i) (do report x; updateEnabled i (some false) : Action L Unit)
      (fun _ => Even i) fun w => (w.instances.get i).started = false := by
  intro w hdue
  have hflags := flags_disable (i := i) { w with failures := x :: w.failures }
  have hstarted : (w.instances.get i).started = false := started_of_due hdue
  rw [report, exec_modify_bind]
  rcases hr : (updateEnabled i (some false)).exec { w with failures := x :: w.failures }
    with ⟨e | _, v⟩ <;> rw [hr] at hflags
  · exact (congrArg Prod.fst hflags).trans hstarted
  · show (v.instances.get i).started = (v.instances.get i).enabled
    have h := Prod.ext_iff.mp hflags
    rw [show (v.instances.get i).started = _ from h.1,
      show (v.instances.get i).enabled = _ from h.2]
    exact hstarted

/-- It is even once its plugin has started, -/
theorem settled_startPlugin (p : Ref) (env : StartEnv) :
    Triple (Due i) (startPlugin i p env : Action L Unit) (fun _ => Even i)
      fun w => (w.instances.get i).started = false := by
  refine (triple_due (keeps_attempt (flags_internalStart p env) _)).bind fun r => ?_
  cases r with
  | error _ => exact triple_disable_due _
  | ok _    =>
    refine triple_modify fun w hdue => ?_
    have hself := Store.get_modify_self w.instances i fun inst => { inst with started := true }
    rw [Even, hself]
    exact (congrArg Prod.snd hdue).symm

/-- What `openDatabase` says, and whether the instance is still to be started -/
def DueIf (i : Ref) (b : Bool) (w : World L) : Prop := if b then Due i w else Even i w

/-- and due still if its database is open. -/
theorem settled_openDatabase (l : Ref) (env : StartEnv) :
    Triple (Due i) (openDatabase S i l env) (DueIf i)
      fun w => (w.instances.get i).started = false := by
  refine triple_read fun w _ => ?_
  split
  · have hopen : Keeps (Flags L i) (attempt PyExc.isException (do
        raiseIf env.upgradeTable
        startDatabase S i env.sqliteDbExists env.createDatabase (some env.startDatabase))) :=
      keeps_attempt (keeps_bind (keeps_raiseIf _) fun _ => flags_startDatabase _ _ _) _
    refine (triple_due hopen).bind fun r => ?_
    cases r with
    | ok _    => exact triple_pure fun _ h => h
    | error _ =>
      have hdisable : Triple (Due i) ((do
          report (.startDatabase i)
          updateEnabled i (some false)) >>= fun _ => pure false : Action L Bool) (DueIf i)
          fun w => (w.instances.get i).started = false :=
        (triple_disable_due _).bind fun _ => triple_pure fun _ h => h
      rwa [bind_assoc] at hdisable
  · exact triple_pure fun _ h => h

/-- Hence it is even after its start. -/
theorem settled_startLoaded (env : StartEnv) :
    Triple (Due i) (startLoaded S i env) (fun _ => Even i)
      fun w => (w.instances.get i).started = false := by
  refine (triple_due (AdmitsParts.theLoader i)).bind fun l => ?_
  have hclass : Keeps (.ofView fun w => (w.instances.get i).flags) (loadClass S l) := fun _ => rfl
  refine ((hclass.triple fun _ _ h hdue => Eq.trans h hdue).post (fun _ _ h => h)
    fun _ => started_of_due).bind fun cls => ?_
  refine (triple_due (flags_adjustWebapp l)).bind fun _ => ?_
  refine (settled_openDatabase l env).bind fun b => ?_
  cases b with
  | false => exact triple_pure fun _ h => h
  | true  =>
    refine (triple_due (flags_readConfig env)).bind fun _ => ?_
    refine (triple_due (flags_construct l cls env)).bind fun p => ?_
    exact settled_startPlugin p env

/-- A start of an instance does nothing, or the instance is due. -/
theorem exec_start_cases (env : StartEnv) {w : World L} (hequipped : Equipped i w)
    (hrunning : (w.instances.get i).started = true → (w.instances.get i).enabled = true) :
    (start S i env).exec w = (.ok (), w) ∧ Even i w ∨
      (start S i env).exec w = (startLoaded S i env).exec w ∧ Due i w := by
  rw [start, exec_get_bind]
  cases hstarted : (w.instances.get i).started with
  | true  => exact .inl ⟨rfl, hstarted.trans (hrunning hstarted).symm⟩
  | false =>
    cases henabled : (w.instances.get i).enabled with
    | false => exact .inl ⟨rfl, hstarted.trans henabled.symm⟩
    | true  =>
      obtain ⟨hloader, hclient⟩ := hequipped henabled
      refine .inr ⟨?_, Prod.ext hstarted henabled⟩
      have hdependencies : (dependencies S i).exec w = (.ok true, w) := by
        rw [dependencies, exec_get_bind, if_neg]
        · rfl
        · rw [← Option.not_isSome, ← Option.not_isSome, hloader, hclient]
          decide
      rw [if_neg (by decide), if_neg (by decide), exec_bind_ok hdependencies]
      rfl

/-! ### The other instances -/

/-- No other instance has changed. -/
def Others (L : Type) (i : Ref) : Frame (World L) where
  rel w w' := ∀ j, j ≠ i → w'.instances.get j = w.instances.get j
  refl _ _ _ := rfl
  trans h h' j hj := (h' j hj).trans (h j hj)

/-- A field of one instance is none of another. -/
theorem others_setInstance (f : PluginInstance → PluginInstance) :
    Keeps (Others L i) (setInstance i f) := fun w _ hj => Store.get_modify_ne w.instances f hj

/-- The same instances are the same others. -/
theorem others_of_eq {w w' : World L} (h : w'.instances = w.instances) : (Others L i).rel w w' :=
  fun j _ => by rw [h]

/-- The row is no field. -/
theorem others_update : Keeps (Others L i) (update i) :=
  keeps_bind keeps_get fun _ => keeps_ite (keeps_pure ()) <| keeps_ite (keeps_throw _) <|
    keeps_modify fun _ => others_of_eq rfl

/-- The methods of an instance change no other. -/
theorem admits_others : Admits S i (Others L i) where
  aside h := by
    rw [h]
    exact others_of_eq rfl
  assign f _ := others_setInstance f
  enableWebapp := keeps_enableWebapp (fun _ _ _ => others_of_eq rfl) fun _ _ => others_setInstance _
  disableWebapp :=
    keeps_disableWebapp (fun _ _ _ => others_of_eq rfl) fun _ _ => others_setInstance _
  updateEnabled e := by
    refine keeps_bind keeps_get fun w => ?_
    cases e with
    | none   => exact keeps_pure ()
    | some b =>
      exact keeps_ite (keeps_pure ()) (keeps_bind (others_setInstance _) fun _ => others_update)
  updateDbEngine e := by
    refine keeps_bind keeps_get fun w => ?_
    cases e with
    | none   => exact keeps_pure ()
    | some b =>
      exact keeps_ite (keeps_pure ()) (keeps_bind (others_setInstance _) fun _ => others_update)
  saveConfig _ := keeps_bind keeps_get fun _ => keeps_ite (keeps_pure ()) <|
    keeps_bind (others_setInstance _) fun _ => keeps_bind (keeps_attempt others_update _) fun _ =>
    keeps_pure ()
  -- a client may be made on the way, which is no instance
  getClient u w := by
    rcases Client.exec_get (S := S) u w with ⟨c, -, h⟩ | ⟨row, w', -, -, h, hm⟩ | ⟨-, -, h⟩ <;>
      rw [h]
    · exact others_of_eq rfl
    · exact others_of_eq (by rw [hm.others])
    · exact others_of_eq rfl
  addToClient _ _ := others_of_eq rfl
  construct _ _ _ :=
    keeps_bind (AdmitsParts.theClient i) fun _ => keeps_bind (keeps_raiseIf _) fun _ =>
    keeps_bind keeps_get fun _ => keeps_bind (keeps_modify fun _ => others_of_eq rfl) fun _ =>
    keeps_bind (others_setInstance _) fun _ => keeps_pure _
  register _ _ _ := keeps_bind (fun _ => others_of_eq rfl) fun _ =>
    keeps_bind keeps_get fun _ _ => others_of_eq rfl
  removeHandlers _ := keeps_bind keeps_get fun _ => keeps_forM fun _ _ _ => others_of_eq rfl

/-! ### A start, and what it leaves -/

/-- **A start.**  If the call returns, the instance runs if and only if it is enabled; if it raises,
    it does not run. -/
theorem start_settled (env : StartEnv) {w w' : World L} (hw' : w' = ((start S i env).exec w).2)
    (hequipped : Equipped i w)
    (hrunning : (w.instances.get i).started = true → (w.instances.get i).enabled = true) :
    LinksUnchanged S w w' ∧
      ((w'.instances.get i).enabled = true → (w.instances.get i).enabled = true) ∧
      ((w'.instances.get i).started = true → (w'.instances.get i).enabled = true) ∧
      (Even i w' ∨ Due i w ∧ ∃ e, (start S i env).exec w = (.error e, w')) := by
  rcases exec_start_cases env hequipped hrunning with ⟨he, heven⟩ | ⟨he, hdue⟩ <;> rw [he] at hw'
  · rw [hw']
    exact ⟨.refl w, fun h => h, hrunning, .inl heven⟩
  · have hlinks := links_startLoaded (S := S) i env w
    have hpost := settled_startLoaded (S := S) env w hdue
    have henabled : (w.instances.get i).enabled = true := congrArg Prod.snd hdue
    rw [← hw'] at hlinks
    rw [he]
    rcases hr : (startLoaded S i env).exec w with ⟨e | _, v⟩ <;> rw [hr] at hpost hw' <;>
      obtain rfl : w' = v := hw'
    · refine ⟨hlinks, fun _ => henabled, fun h => ?_, .inr ⟨hdue, e, rfl⟩⟩
      rw [show (w'.instances.get i).started = false from hpost] at h
      cases h
    · exact ⟨hlinks, fun _ => henabled, fun h => Eq.trans hpost.symm h, .inl hpost⟩

/-! ### A load -/

/-- The rows of the instance and of its user are in the tables. -/
def Stored (i : Ref) (w : World L) : Prop :=
  (w.instanceRows (w.instances.get i).id).isSome = true ∧
    (w.clientRows (w.instances.get i).primaryUser).isSome = true

/-- What is there is not missing. -/
theorem not_isNone_of_isSome {o : Option α} (h : o.isSome = true) : ¬ o.isNone = true := by
  rw [← Option.not_isSome, h]
  decide

/-- If the rows are there, an instance can be disabled. -/
theorem triple_disabled (x : Failure) :
    Triple (Stored i) (do report x; updateEnabled i (some false) : Action L Unit)
      (fun _ w => (w.instances.get i).enabled = false) fun _ => False := by
  intro w hw
  have hflags := flags_disable (i := i) { w with failures := x :: w.failures }
  have hok : ((updateEnabled i (some false)).exec { w with failures := x :: w.failures }).1 =
      .ok () := by
    rw [updateEnabled, exec_get_bind]
    dsimp only
    split
    · rfl
    · rw [exec_setInstance_bind, update, exec_get_bind]
      dsimp only
      rw [get_setInstance_self, if_neg, if_neg]
      · rfl
      · exact not_isNone_of_isSome hw.2
      · exact not_isNone_of_isSome hw.1
  rw [report, exec_modify_bind]
  rcases hr : (updateEnabled i (some false)).exec { w with failures := x :: w.failures }
    with ⟨_ | _, v⟩ <;> rw [hr] at hok hflags
  · cases hok
  · exact congrArg Prod.snd hflags

/-- … which is what happens to one that cannot be loaded. -/
theorem triple_disable_stored (x : Failure) :
    Triple (Stored i) (do report x; updateEnabled i (some false); pure false : Action L Bool)
      (fun b w => b = false ∧ (w.instances.get i).enabled = false) fun _ => False := by
  have h : Triple (Stored i) ((do report x; updateEnabled i (some false)) >>= fun _ => pure false :
      Action L Bool) (fun b w => b = false ∧ (w.instances.get i).enabled = false) fun _ => False :=
    (triple_disabled x).bind fun _ => triple_pure fun _ h => ⟨rfl, h⟩
  rwa [bind_assoc] at h

/-- After the first step of `load` the instance has a loader or is disabled, -/
theorem complete_loadLoader :
    Triple (Stored i) (loadLoader S i)
      (fun b w => if b then Stored i w ∧ (w.instances.get i).loader.isSome = true
        else (w.instances.get i).enabled = false) fun _ => False := by
  refine triple_get_bind fun w hw => ?_
  split
  · next hloader =>
    refine triple_pure ?_
    rintro v ⟨hv, rfl⟩
    exact ⟨hv, hloader⟩
  · refine Triple.pre (P := Stored i) ?_ fun _ h => h.1
    split
    · next l _ =>
      have hset : Triple (Stored i)
          (setInstance i fun inst => { inst with loader := some l } : Action L Unit)
          (fun _ v => Stored i v ∧ (v.instances.get i).loader.isSome = true) fun _ => False := by
        refine triple_modify fun v hv => ?_
        have hself := Store.get_modify_self v.instances i fun inst => { inst with loader := some l }
        rw [Stored, hself]
        exact ⟨hv, rfl⟩
      exact hset.bind fun _ => triple_pure fun _ h => h
    · refine (triple_disable_stored _).post ?_ fun _ h => h
      rintro b v ⟨rfl, h⟩
      exact h

/-- after the second one it is complete or disabled. -/
theorem complete_loadClient :
    Triple (fun w => Stored i w ∧ (w.instances.get i).loader.isSome = true) (loadClient S i)
      (fun b w => if b then (w.instances.get i).Complete
        else (w.instances.get i).enabled = false) fun _ => False := by
  refine triple_get_bind fun w hw => ?_
  split
  · next hclient =>
    refine triple_pure ?_
    rintro v ⟨hv, rfl⟩
    exact ⟨hv.2, hclient⟩
  · -- a lookup changes neither instances nor rows
    have hget : Triple (fun w => Stored i w ∧ (w.instances.get i).loader.isSome = true)
        (Client.get S (w.instances.get i).primaryUser none none none)
        (fun _ v => Stored i v ∧ (v.instances.get i).loader.isSome = true) fun _ => False := by
      intro v hv
      rcases Client.exec_get (S := S) (w.instances.get i).primaryUser v with
        ⟨c, -, h⟩ | ⟨row, v', -, -, h, hm⟩ | ⟨-, -, h⟩ <;> rw [h]
      · exact hv
      · rw [hm.others]
        exact hv
      · exact hv
    -- the assignment leaves the loader that was found before
    have hset (c : Option Ref) : Triple
        (fun v : World L => Stored i v ∧ (v.instances.get i).loader.isSome = true)
        (setInstance i fun inst => { inst with client := c })
        (fun _ v => Stored i v ∧ (v.instances.get i).loader.isSome = true ∧
          (v.instances.get i).client = c) fun _ => False := by
      refine triple_modify fun v hv => ?_
      have hself := Store.get_modify_self v.instances i fun inst => { inst with client := c }
      rw [Stored, hself]
      exact ⟨hv.1, hv.2, rfl⟩
    refine (hget.pre fun _ h => h.1).bind fun c => (hset c).bind fun _ => ?_
    split
    · next hc => exact triple_pure fun v hv => ⟨hv.2.1, by rw [hv.2.2]; exact hc⟩
    · -- there is no such client: the instance is disabled
      refine ((triple_disable_stored _).pre fun _ h => h.1).post ?_ fun _ h => h
      rintro b v ⟨rfl, h⟩
      exact h

/-- What `load` looks at of the instance in its last step -/
def held (inst : PluginInstance) : (Bool × Bool) × Option Ref × Option Ref :=
  (inst.flags, inst.loader, inst.client)

/-- The frame of a step that leaves this alone -/
abbrev Held (L : Type) (i : Ref) : Frame (World L) := .ofView fun w => (w.instances.get i).held

/-- A web app leaves what it holds, -/
theorem held_enableWebapp : Keeps (Held L i) (enableWebapp S i) := by
  have hset {f : PluginInstance → PluginInstance} (hf : ∀ inst, (f inst).held = inst.held) :
      Keeps (Held L i) (setInstance i f) := fun w => Store.view_modify w.instances i f held hf i
  exact keeps_enableWebapp (fun _ _ _ => rfl) fun _ _ => hset fun _ => rfl

/-- and so do the references. -/
theorem held_loadReferences : Keeps (Held L i) (loadReferences S i) :=
  keeps_bind (AdmitsParts.theLoader i) fun _ => keeps_bind keeps_get fun _ =>
    keeps_bind (keeps_when held_enableWebapp) fun _ => keeps_bind (fun _ => rfl) fun _ =>
    keeps_bind (AdmitsParts.theClient i) fun _ _ => rfl

/-- It is complete by what it holds, -/
theorem complete_of_held {a b : PluginInstance} (h : a.held = b.held) (hb : b.Complete) :
    a.Complete := by
  have hloader : a.loader = b.loader := congrArg (·.2.1) h
  have hclient : a.client = b.client := congrArg (·.2.2) h
  rwa [Complete, hloader, hclient]

/-- so it still is after `load`. -/
theorem complete_loadReferences :
    Triple (fun w => (w.instances.get i).Complete) (loadReferences S i)
      (fun _ w => (w.instances.get i).Complete) fun _ => False := by
  intro w hw
  have hheld := held_loadReferences (S := S) (i := i) w
  obtain ⟨l, hl⟩ := Option.isSome_iff_exists.mp hw.1
  have hok : ∃ v, (loadReferences S i).exec w = (.ok (), v) := by
    rw [loadReferences, exec_bind_ok (exec_theLoader hl), exec_get_bind]
    have hwhen : Returns (when (metaOf S w l).webapp (enableWebapp S i)) :=
      raises_when (returns_enableWebapp i)
    obtain ⟨_, hwebapp⟩ := hwhen.exists_ok w
    have hkeep : (Held L i).rel w ((when (metaOf S w l).webapp (enableWebapp S i)).exec w).2 :=
      keeps_when held_enableWebapp w
    rcases hr : (when (metaOf S w l).webapp (enableWebapp S i)).exec w with ⟨r, v⟩
    rw [hr] at hwebapp hkeep
    subst hwebapp
    obtain ⟨c, hc⟩ := Option.isSome_iff_exists.mp (complete_of_held hkeep hw).2
    have hadd : ∃ s, (addToLoader S i l).exec v = (.ok (), { v with loaderReferences := s }) :=
      ⟨_, rfl⟩
    obtain ⟨s, hs⟩ := hadd
    rw [exec_bind_ok hr, exec_bind_ok hs]
    have hclient := exec_theClient (w := { v with loaderReferences := s }) hc
    exact ⟨_, (exec_bind_ok hclient).trans rfl⟩
  obtain ⟨v, hv⟩ := hok
  rw [hv] at hheld ⊢
  exact complete_of_held hheld hw

/-- **A load** returns if the rows are there, and an instance that is still enabled then has its
    loader and its client. -/
theorem load_equipped : Triple (Stored i) (load S i) (fun _ => Equipped i) fun _ => False := by
  refine complete_loadLoader.bind fun b => ?_
  cases b with
  | false => exact triple_pure fun _ h => equipped_of_disabled h
  | true  =>
    refine complete_loadClient.bind fun b => ?_
    cases b with
    | false => exact triple_pure fun _ h => equipped_of_disabled h
    | true  => exact complete_loadReferences.bind fun _ => triple_pure fun _ h _ => h

/-- A load may disable the instance, and neither starts nor enables it. -/
def Falls (L : Type) (i : Ref) : Frame (World L) where
  rel w w' := (w'.instances.get i).started = (w.instances.get i).started ∧
    ((w'.instances.get i).enabled = true → (w.instances.get i).enabled = true)
  refl _ := ⟨rfl, fun he => he⟩
  trans h h' := ⟨h'.1.trans h.1, fun he => h.2 (h'.2 he)⟩

/-- Where no flag is set, none is raised. -/
theorem falls_of_flags {m : Action L α} (hm : Keeps (Flags L i) m) : Keeps (Falls L i) m :=
  hm.mono fun h => ⟨congrArg (·.1.1) h, fun he => (congrArg (·.1.2) h).symm.trans he⟩

/-- `load` can only disable. -/
theorem falls_load : Keeps (Falls L i) (load S i) := by
  -- a load that fails only disables the instance
  have hdisable (x : Failure) : Keeps (Falls L i) (do
      report x
      updateEnabled i (some false)
      pure false : Action L Bool) := by
    refine keeps_bind (falls_of_flags (flags_modify fun _ => ⟨rfl, rfl⟩)) fun _ =>
      keeps_bind (fun w => ?_) fun _ => keeps_pure _
    have h := flags_disable (i := i) w
    refine ⟨congrArg Prod.fst h, fun he => ?_⟩
    rw [show (((updateEnabled i (some false)).exec w).2.instances.get i).enabled = false from
      congrArg Prod.snd h] at he
    cases he
  -- a lookup of the client does not touch it
  have hget (u : String) : Keeps (Falls L i) (Client.get S u none none none) := by
    intro w
    have h := (admits_others (S := S) (i := i + 1)).getClient u w i
      (Nat.ne_of_lt (Nat.lt_succ_self i))
    show _ = _ ∧ (_ → _)
    rw [h]
    exact ⟨rfl, fun he => he⟩
  have hloader : Keeps (Falls L i) (loadLoader S i) := by
    refine keeps_bind keeps_get fun w => keeps_ite (keeps_pure _) ?_
    split
    · exact keeps_bind (falls_of_flags (flags_setInstance i fun _ => rfl)) fun _ => keeps_pure _
    · exact hdisable _
  have hclient : Keeps (Falls L i) (loadClient S i) :=
    keeps_bind keeps_get fun w => keeps_ite (keeps_pure _) <| keeps_bind (hget _) fun _ =>
      keeps_bind (falls_of_flags (flags_setInstance i fun _ => rfl)) fun _ =>
      keeps_ite (keeps_pure _) (hdisable _)
  have hreferences : Keeps (Falls L i) (loadReferences S i) :=
    held_loadReferences.mono fun h =>
      ⟨congrArg (·.1.1) h, fun he => (congrArg (·.1.2) h).symm.trans he⟩
  exact keeps_bind hloader fun b => keeps_ite
    (keeps_bind hclient fun b => keeps_ite
      (keeps_bind hreferences fun _ => keeps_pure _) (keeps_pure _)) (keeps_pure _)

/-- Loading an instance again that has its loader and its client -/
theorem held_load_of_complete {w : World L} (h : (w.instances.get i).Complete) :
    ((((load S i).exec w).2).instances.get i).held = (w.instances.get i).held := by
  have hloader : (loadLoader S i).exec w = (.ok true, w) := by
    rw [loadLoader, exec_get_bind, if_pos h.1]
    rfl
  have hclient : (loadClient S i).exec w = (.ok true, w) := by
    rw [loadClient, exec_get_bind, if_pos h.2]
    rfl
  rw [load, exec_bind_ok hloader, if_pos rfl, exec_bind_ok hclient, if_pos rfl]
  exact keeps_bind held_loadReferences (fun _ => keeps_pure _) w

end PluginInstance

end Maubot
