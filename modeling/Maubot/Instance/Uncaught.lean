import Maubot.Instance.Running

namespace Maubot

open Prog

/-!
# Plugin instances — what a start does not handle

`start` handles what the database and the hooks of the plugin raise, and a base configuration that
is missing.

* `Loaded S ls ls'` — loads of classes lead from one state of the loaders to the other;
* `Uncaught` — what a start lets through;
* `uncaught_start` — nothing else makes it raise;
* `loads_start`, `loaders_load` — a start at most loads classes, and a load not even that.
-/

variable {L : Type} {S : Setup L}

/-! ### The loaders -/

/-- Loads of classes lead from the loaders `ls` to others. -/
abbrev Loaded (S : Setup L) (ls : L) : L → Prop :=
  Reach (fun l ls => ((S.loaders.load l).exec ls).2) (fun _ _ => True) ls

/-- The frame of a step that at most loads classes -/
def Loads (S : Setup L) : Frame (World L) where
  rel w w' := ∀ ls, Loaded S ls w.loaders → Loaded S ls w'.loaders
  refl _ _ h := h
  trans h h' ls hls := h' ls (h ls hls)

/-- The same loaders load the same. -/
theorem loads_of_eq {w w' : World L} (h : w'.loaders = w.loaders) : (Loads S).rel w w' :=
  fun _ hls => by rwa [h]

/-- The loaders are as before. -/
abbrev Loaders (L : Type) : Frame (World L) := .ofView fun w => w.loaders

/-- So does a program that leaves them, -/
theorem loads_of_loaders {α : Type} {m : Action L α} (h : Keeps (Loaders L) m) :
    Keeps (Loads S) m := h.mono loads_of_eq

namespace PluginInstance

variable {i l : Ref} {α : Type}

/-! ### A start loads a class -/

/-- and one that leaves the flags. -/
theorem loads_of_flags {m : Action L α} (h : Keeps (Flags L i) m) : Keeps (Loads S) m :=
  h.mono fun h => loads_of_eq (congrArg Prod.snd h)

/-- An instance that is disabled is none of theirs, -/
theorem loads_disable (x : Failure) :
    Keeps (Loads S) (do report x; updateEnabled i (some false) : Action L Unit) :=
  loads_of_loaders <| keeps_bind (fun _ => rfl) fun _ => keeps_bind keeps_get fun _ =>
    keeps_ite (keeps_pure ()) (keeps_bind (fun _ => rfl) fun _ =>
      flags_update.mono fun h => congrArg Prod.snd h)

/-- nor is a database, -/
theorem loads_openDatabase (l : Ref) (env : StartEnv) :
    Keeps (Loads S) (openDatabase S i l env) := by
  refine keeps_bind keeps_get fun w => keeps_ite (keeps_bind (keeps_attempt ?_ _) fun r => ?_)
    (keeps_pure _)
  · exact keeps_bind (keeps_raiseIf _) fun _ => loads_of_flags (i := i) (flags_startDatabase _ _ _)
  · cases r with
    | ok _    => exact keeps_pure _
    | error _ =>
      have h := keeps_bind (loads_disable (S := S) (i := i) (.startDatabase i))
        fun _ => keeps_pure false
      rwa [bind_assoc] at h

/-- nor a plugin object. -/
theorem loads_startPlugin (p : Ref) (env : StartEnv) : Keeps (Loads S) (startPlugin i p env) := by
  refine keeps_bind (keeps_attempt (loads_of_flags (flags_internalStart (i := i) p env)) _)
    fun r => ?_
  cases r with
  | ok _    => exact fun _ => loads_of_eq rfl
  | error _ => exact loads_disable _

/-- A loader that loads still loads afterwards, -/
theorem loads_loadClass (l : Ref) : Keeps (Loads S) (loadClass S l) := fun _ _ h =>
  h.step l trivial

/-- so a start with its dependencies there leaves what is loaded, -/
theorem loads_startLoaded (env : StartEnv) : Keeps (Loads S) (startLoaded S i env) :=
  keeps_bind (AdmitsParts.theLoader i) fun l => keeps_bind (loads_loadClass l) fun cls =>
    keeps_bind (loads_of_flags (i := i) (flags_adjustWebapp l)) fun _ =>
    keeps_bind (loads_openDatabase l env) fun _ => keeps_ite
      (keeps_bind (loads_of_flags (i := i) (flags_readConfig env)) fun _ =>
        keeps_bind (loads_of_flags (flags_construct l cls env)) fun p => loads_startPlugin p env)
      (keeps_pure ())

/-- A load asks where the loader is, and does not use it. -/
theorem loaders_load : Keeps (Loaders L) (load S i) := by
  -- no part of a load touches the loaders' own state
  have hdisable (x : Failure) : Keeps (Loaders L) (do
      report x
      updateEnabled i (some false)
      pure false : Action L Bool) :=
    keeps_bind (fun _ => rfl) fun _ => keeps_bind (keeps_bind keeps_get fun _ =>
      keeps_ite (keeps_pure ()) (keeps_bind (fun _ => rfl) fun _ =>
        flags_update.mono fun h => congrArg Prod.snd h)) fun _ => keeps_pure _
  have hget (u : String) : Keeps (Loaders L) (Client.get S u none none none) := by
    intro w
    rcases Client.exec_get (S := S) u w with ⟨c, -, h⟩ | ⟨row, w', -, -, h, hm⟩ | ⟨-, -, h⟩ <;>
      rw [h]
    · rfl
    · show w'.loaders = w.loaders
      rw [hm.others]
    · rfl
  have hloader : Keeps (Loaders L) (loadLoader S i) := by
    refine keeps_bind keeps_get fun w => keeps_ite (keeps_pure _) ?_
    split
    · exact keeps_bind (fun _ => rfl) fun _ => keeps_pure _
    · exact hdisable _
  have hclient : Keeps (Loaders L) (loadClient S i) :=
    keeps_bind keeps_get fun w => keeps_ite (keeps_pure _) <| keeps_bind (hget _) fun _ =>
      keeps_bind (fun _ => rfl) fun _ => keeps_ite (keeps_pure _) (hdisable _)
  have hreferences : Keeps (Loaders L) (loadReferences S i) :=
    keeps_bind (AdmitsParts.theLoader i) fun _ => keeps_bind keeps_get fun _ =>
      keeps_bind (keeps_when (keeps_enableWebapp (fun _ _ _ => rfl) fun _ _ _ => rfl)) fun _ =>
      keeps_bind (fun _ => rfl) fun _ => keeps_bind (AdmitsParts.theClient i) fun _ _ => rfl
  exact keeps_bind hloader fun b => keeps_ite
    (keeps_bind hclient fun b => keeps_ite
      (keeps_bind hreferences fun _ => keeps_pure _) (keeps_pure _)) (keeps_pure _)

/-- and so does every start. -/
theorem loads_start (env : StartEnv) : Keeps (Loads S) (start S i env) :=
  keeps_bind keeps_get fun _ => keeps_ite (keeps_pure ()) <| keeps_ite (keeps_pure ()) <|
    keeps_bind (keeps_bind keeps_get fun _ =>
      keeps_ite (loads_of_loaders loaders_load) (keeps_pure _)) fun _ =>
    keeps_ite (loads_startLoaded env) (keeps_pure ())

/-! ### What a start lets through -/

/-- A start of the instance meets something that it does not handle; `ls₀` are the loaders of some
    time before.  The start finds them in a state that loads have led to since. -/
inductive Uncaught (S : Setup L) (ls₀ : L) (inst : PluginInstance) (env : StartEnv) : Prop
  /-- `loader.load()` raises. -/
  | load {l : Ref} {ls : L} {e : PyExc} (hl : inst.loader = some l) (hls : Loaded S ls₀ ls)
      (he : ((S.loaders.load l).exec ls).1 = .error e)
  /-- `cls.get_config_class()` raises. -/
  | configClass {e : PyExc} (he : env.configClass = .error e)
  /-- The base configuration is there, but cannot be read or parsed. -/
  | baseConfig {e : PyExc} (hclass : env.configClass = .ok true) (he : env.baseConfig = some e)
      (hfound : e.isMissingFile = false)
  /-- `cls(...)` raises. -/
  | construct {e : PyExc} (he : env.construct = some e)
  /-- What is raised is no `Exception`. -/
  | base {e : PyExc} (he : e ∈ env.exceptions) (hbase : e.isException = false)

/-- What is not caught depends on the loader and the environment. -/
theorem Uncaught.congr {ls₀ : L} {a b : PluginInstance} {env : StartEnv}
    (h : Uncaught S ls₀ a env) (hloader : b.loader = a.loader) : Uncaught S ls₀ b env := by
  cases h with
  | load hl hls he            => exact .load (hloader.trans hl) hls he
  | configClass he            => exact .configClass he
  | baseConfig hclass he hfound => exact .baseConfig hclass he hfound
  | construct he              => exact .construct he
  | base he hbase             => exact .base he hbase

/-- The instance has its loader and its client, and the rows are there. -/
structure Provided (i l : Ref) (w : World L) : Prop where
  stored : Stored i w
  loader : (w.instances.get i).loader = some l
  client : (w.instances.get i).client.isSome = true

/-- An instance with its client and loader keeps them where nothing is linked. -/
theorem Provided.links {w w' : World L} (h : Provided i l w) (hw : LinksUnchanged S w w') :
    Provided i l w' := by
  obtain ⟨hid, -, huser, hloader, hclient, -⟩ := eq_of_links (hw.links i)
  refine ⟨⟨?_, ?_⟩, hloader.trans h.loader, by rw [hclient]; exact h.client⟩
  · rw [hid, hw.rows]
    exact h.stored.1
  · rw [huser, hw.clientRows]
    exact h.stored.2

/-- A step that leaves the links alone -/
theorem Provided.step {U : Prop} {m : Action L α} (hm : Keeps (Links S) m)
    (hraise : ∀ w : World L, Provided i l w → ∀ e, (m.exec w).1 = .error e → U) :
    Triple (Provided i l) m (fun _ => Provided i l) fun _ => U := by
  intro w hw
  have hlinks := hm w
  have he := hraise w hw
  rcases hr : m.exec w with ⟨e | a, v⟩ <;> rw [hr] at hlinks he
  · exact he e rfl
  · exact hw.links hlinks

section Uncaught

variable {ls₀ : L} {inst : PluginInstance} {env : StartEnv}

/-- The configs raise what is not caught, -/
theorem raises_readConfig :
    Raises (fun _ => Uncaught S ls₀ inst env) (readConfig i env : Action L Unit) := by
  unfold readConfig
  cases hclass : env.configClass with
  | error e => exact raises_bind (raises_outcome fun _ _ => .configClass hclass) fun b =>
      raises_ite (raises_bind (raises_attempt (raises_raiseIf fun _ _ _ => .configClass hclass))
        fun _ => raises_modify _) (raises_pure ())
  | ok b    =>
    cases b with
    | false => exact fun w e he => by cases he
    | true  => exact raises_bind (raises_outcome fun _ he => by cases he) fun b =>
        raises_ite (raises_bind
          (raises_attempt (raises_raiseIf fun _ he hfound => .baseConfig hclass he hfound))
          fun _ => raises_modify _) (raises_pure ())

/-- and so does the constructor. -/
theorem caught_construct (cls : Ref) : Triple (Provided i l) (construct i l cls env : Action L Ref)
    (fun _ => Provided i l) fun _ => Uncaught S ls₀ inst env := by
  refine Provided.step (links_construct (S := S) i l cls env) fun w hw e he => ?_
  obtain ⟨c, hc⟩ := Option.isSome_iff_exists.mp hw.client
  rw [construct, exec_bind_ok (exec_theClient hc)] at he
  refine raises_bind (p := fun _ => Uncaught S ls₀ inst env)
    (raises_raiseIf fun _ he => .construct he) (fun _ => ?_) w e he
  exact raises_bind raises_get fun _ => raises_bind (raises_modify _) fun _ =>
    raises_bind (raises_modify _) fun _ => raises_pure _

/-- The class of the loader that the start met does so too. -/
theorem caught_loadClass (hl : inst.loader = some l) :
    Triple (fun w => Provided i l w ∧ Loaded S ls₀ w.loaders) (loadClass S l)
      (fun _ => Provided i l) fun _ => Uncaught S ls₀ inst env := by
  rintro w ⟨hw, hls⟩
  have hlinks := links_of_quiet (quiet_loadClass (S := S) l) w
  rw [loadClass, exec_zoom] at hlinks ⊢
  rcases hr : (S.loaders.load l).exec w.loaders with ⟨e | cls, ls⟩ <;> rw [hr] at hlinks
  · exact .load hl hls (congrArg Prod.fst hr)
  · exact hw.links hlinks

/-- The web app raises nothing. -/
theorem caught_adjustWebapp : Triple (Provided i l) (adjustWebapp S i l) (fun _ => Provided i l)
    fun _ => Uncaught S ls₀ inst env := by
  refine Provided.step (links_adjustWebapp i l) fun w _ e he => ?_
  have hreturns : Returns (adjustWebapp S i l) :=
    raises_bind raises_get fun w => raises_ite (returns_enableWebapp i) <|
      raises_ite (returns_disableWebapp i) (raises_pure ())
  exact (hreturns w e he).elim

/-- If the database raises only `Exception`s, they are handled. -/
theorem caught_openDatabase (hupgradeTable : Proper env.upgradeTable.toList)
    (hcreateDatabase : Proper env.createDatabase.toList)
    (hstartDatabase : Proper env.startDatabase.toList) :
    Triple (Provided i l) (openDatabase S i l env) (fun b w => b = true → Provided i l w)
      fun _ => Uncaught S ls₀ inst env := by
  refine triple_read fun w _ => ?_
  split
  · have hattempt : Triple (Provided i l) (attempt PyExc.isException (do
        raiseIf env.upgradeTable
        startDatabase S i env.sqliteDbExists env.createDatabase (some env.startDatabase)))
        (fun _ => Provided i l) fun _ => Uncaught S ls₀ inst env := by
      refine Provided.step (S := S) ?_ fun w _ e he => ?_
      · exact keeps_attempt (keeps_bind (keeps_raiseIf _) fun _ =>
          links_of_quiet (quiet_startDatabase i _ _ _)) _
      · exact (returns_handled (raises_bind (exceptions_raiseIf hupgradeTable) fun _ =>
          exceptions_startDatabase hcreateDatabase hstartDatabase) w e he).elim
    refine hattempt.bind fun r => ?_
    cases r with
    | ok _    => exact triple_pure fun _ h _ => h
    | error _ =>
      exact ((triple_disable_stored _).pre fun _ h => h.stored).post
        (fun b w h hb => by rw [h.1] at hb; cases hb) fun _ h => h.elim
  · exact triple_pure fun _ h _ => h

/-- … and so are those of the hooks. -/
theorem caught_startPlugin (hattributes : Proper (env.attributes.flatMap Attribute.exceptions))
    (hpreStart : Proper env.preStart.exceptions) (hstart : Proper env.start.exceptions) (p : Ref) :
    Triple (Provided i l) (startPlugin i p env : Action L Unit) (fun _ _ => True)
      fun _ => Uncaught S ls₀ inst env := by
  have hattempt : Triple (Provided i l) (attempt PyExc.isException
        (Plugin.internalStart (saveConfig i) p env.attributes env.preStart env.start) :
        Action L (Except PyExc Unit)) (fun _ => Provided i l) fun _ => Uncaught S ls₀ inst env := by
    refine Provided.step (keeps_attempt (links_internalStart (S := S) i p env) _) fun w _ e he => ?_
    exact (returns_handled (raises_bind (exceptions_runHook p hpreStart) fun _ =>
      raises_bind (exceptions_registerHandlerClass p hattributes) fun _ =>
      exceptions_runHook p hstart) w e he).elim
  refine hattempt.bind fun r => ?_
  cases r with
  | ok _    => exact triple_modify fun _ _ => trivial
  | error _ =>
    exact ((triple_disabled _).pre fun _ h => h.stored).post (fun _ _ _ => trivial)
      fun _ h => h.elim

/-- **A start from its loader on** -/
theorem caught_startLoaded (hl : inst.loader = some l) :
    Triple (fun w => Provided i l w ∧ Loaded S ls₀ w.loaders) (startLoaded S i env)
      (fun _ _ => True) fun _ => Uncaught S ls₀ inst env := by
  -- if all exceptions are proper they are caught; else one of them is not
  by_cases hproper : Proper env.exceptions
  · obtain ⟨henv, hstart⟩ := hproper.append
    obtain ⟨henv, hpreStart⟩ := henv.append
    obtain ⟨henv, hattributes⟩ := henv.append
    obtain ⟨henv, hstartDatabase⟩ := henv.append.1.append.1.append.1.append
    obtain ⟨hupgradeTable, hcreateDatabase⟩ := henv.append
    have hrest : Triple (fun w => Provided i l w ∧ Loaded S ls₀ w.loaders) (do
        let cls ← loadClass S l
        adjustWebapp S i l
        if ← openDatabase S i l env then do
          readConfig i env
          let p ← construct i l cls env
          startPlugin i p env
        else pure ()) (fun _ _ => True) fun _ => Uncaught S ls₀ inst env := by
      refine (caught_loadClass hl).bind fun cls => caught_adjustWebapp.bind fun _ => ?_
      refine (caught_openDatabase hupgradeTable hcreateDatabase hstartDatabase).bind fun b => ?_
      cases b with
      | false => exact triple_pure fun _ _ => trivial
      | true  =>
        refine ((Provided.step (links_of_quiet (quiet_readConfig (S := S) i env))
          fun w _ e he => raises_readConfig w e he).pre fun _ h => h rfl).bind fun _ => ?_
        exact (caught_construct cls).bind (caught_startPlugin hattributes hpreStart hstart)
    intro w hw
    rw [startLoaded, exec_bind_ok (exec_theLoader hw.1.loader)]
    exact hrest w hw
  · intro w hw
    obtain ⟨e, he⟩ := not_forall.mp hproper
    obtain ⟨hmem, hbase⟩ := Classical.not_imp.mp he
    rcases (startLoaded S i env).exec w with ⟨_ | _, _⟩
    · exact .base hmem (Bool.eq_false_iff.mpr hbase)
    · trivial

/-- **A start raises** only what it does not handle, when the instance has its loader and its
    client, and the rows are there. -/
theorem uncaught_start {w w' : World L} {e : PyExc} (hstored : Stored i w)
    (hequipped : Equipped i w)
    (hrunning : (w.instances.get i).started = true → (w.instances.get i).enabled = true)
    (hls : Loaded S ls₀ w.loaders) (he : (start S i env).exec w = (.error e, w')) :
    Uncaught S ls₀ (w.instances.get i) env := by
  rcases exec_start_cases (S := S) env hequipped hrunning with ⟨hok, -⟩ | ⟨hstart, hdue⟩
  · rw [hok] at he
    cases he
  · obtain ⟨hloader, hclient⟩ := hequipped (congrArg Prod.snd hdue)
    obtain ⟨l, hl⟩ := Option.isSome_iff_exists.mp hloader
    have htriple : Triple (fun w => Provided i l w ∧ Loaded S ls₀ w.loaders) (startLoaded S i env)
        (fun _ _ => True) fun _ => Uncaught S ls₀ (w.instances.get i) env := caught_startLoaded hl
    have h := htriple w ⟨⟨hstored, hl, hclient⟩, hls⟩
    rw [← hstart, he] at h
    exact h

end Uncaught

end PluginInstance

end Maubot
