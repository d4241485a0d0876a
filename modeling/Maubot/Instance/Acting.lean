import Maubot.Client.Calls
import Maubot.Client.Views
import Maubot.Instance.Pointers

namespace Maubot

open Prog

/-!
# Plugin instances — whose Matrix client a plugin acts through

* `upholds_start`, `triple_stop` — a start hands the plugin the Matrix client that the instance's
  client has, and a stop drops the plugin;
* `Client.Op.LeavesPlugins` — the calls after which started instances still act for their
  clients: the switch of the access details gives the client a new Matrix client and tells no
  plugin of it;
* `acting_of_reach` — the resulting property over whole runs.
-/

variable {L : Type} {S : Setup L}

namespace PluginInstance

variable {w w' : World L} {i : Ref}

/-! ### Starting and stopping -/

/-- Started instances act for their clients, and `i` exists. -/
def Upholding (i : Ref) (w : World L) : Prop := Acting w ∧ i < w.instances.next

/-- … and is not started. -/
def Waiting (i : Ref) (w : World L) : Prop := Upholding i w ∧ (w.instances.get i).started = false

/-- Where the pointers are kept, an instance upholds what it did. -/
theorem PointersKept.upholding (h : PointersKept w w') (hw : Upholding i w) : Upholding i w' :=
  ⟨h.acting hw.1, Nat.lt_of_lt_of_le hw.2 h.instances⟩

/-- And waits where it waited. -/
theorem PointersKept.waiting (h : PointersKept w w') (hw : Waiting i w) : Waiting i w' :=
  ⟨h.upholding hw.1, (h.started hw.1.2).trans hw.2⟩

/-- The same for a program. -/
theorem upholds_of_pointers {α : Type} {m : Action L α} (hm : Keeps (Pointers L i) m) :
    Keeps (.ofInv (Upholding i)) m := fun w hw => (hm w hw.2).upholding hw

/-- The same for one in the middle of a start. -/
theorem waits_of_pointers {α : Type} {m : Action L α} (hm : Keeps (Pointers L i) m) :
    Triple (Waiting i) m (fun _ => Waiting i) (Waiting i) :=
  hm.triple fun _ _ h hw => (h hw.1.2).waiting hw

/-- Another world that differs in the instance `i` alone, which exists. -/
theorem acting_setInstance (hw : Acting w) {f : PluginInstance → PluginInstance}
    (hclient : ∀ c, (f (w.instances.get i)).client = some c → c < w.clients.next)
    (hplugin : ∀ p, (f (w.instances.get i)).plugin = some p → p < w.plugins.next)
    (hacts : (f (w.instances.get i)).started = true →
      ∃ p c, (f (w.instances.get i)).plugin = some p ∧ (f (w.instances.get i)).client = some c ∧
        (w.plugins.get p).client = (w.clients.get c).client) :
    Acting ((setInstance i f : Action L Unit).exec w).2 := by
  have hself : (w.instances.modify i f).get i = f (w.instances.get i) :=
    Store.get_modify_self w.instances i f
  have hother {j : Ref} (hj : j ≠ i) : (w.instances.modify i f).get j = w.instances.get j :=
    Store.get_modify_ne w.instances f hj
  suffices h : Acting { w with instances := w.instances.modify i f } from h
  -- only what the changed instance points to has to be looked at
  refine { hw with
    client := fun j c hj hc => ?_
    plugin := fun j p hj hp => ?_
    acts := fun j hj hs => ?_ }
  · replace hc : ((w.instances.modify i f).get j).client = some c := hc
    by_cases hji : j = i
    · rw [hji, hself] at hc
      exact hclient c hc
    · rw [hother hji] at hc
      exact hw.client j c hj hc
  · replace hp : ((w.instances.modify i f).get j).plugin = some p := hp
    by_cases hji : j = i
    · rw [hji, hself] at hp
      exact hplugin p hp
    · rw [hother hji] at hp
      exact hw.plugin j p hj hp
  · replace hs : ((w.instances.modify i f).get j).started = true := hs
    show ∃ p c, ((w.instances.modify i f).get j).plugin = some p ∧
      ((w.instances.modify i f).get j).client = some c ∧ _
    by_cases hji : j = i
    · rw [hji, hself] at hs ⊢
      exact hacts hs
    · rw [hother hji] at hs ⊢
      exact hw.acts j hj hs

/-- An assignment to an instance that is not started. -/
theorem waiting_setInstance (hw : Waiting i w) {f : PluginInstance → PluginInstance}
    (hstarted : (f (w.instances.get i)).started = false)
    (hclient : ∀ c, (f (w.instances.get i)).client = some c → c < w.clients.next)
    (hplugin : ∀ p, (f (w.instances.get i)).plugin = some p → p < w.plugins.next) :
    Waiting i ((setInstance i f : Action L Unit).exec w).2 := by
  refine ⟨⟨acting_setInstance hw.1.1 hclient hplugin fun hs => ?_, hw.1.2⟩, ?_⟩
  · rw [hstarted] at hs
    cases hs
  · exact (congrArg PluginInstance.started (Store.get_modify_self w.instances i f)).trans hstarted

/-- Its client exists. -/
theorem Waiting.client (hw : Waiting i w) (c : Ref) (h : (w.instances.get i).client = some c) :
    c < w.clients.next := hw.1.1.client i c hw.1.2 h

/-- So does its plugin object. -/
theorem Waiting.plugin (hw : Waiting i w) (p : Ref) (h : (w.instances.get i).plugin = some p) :
    p < w.plugins.next := hw.1.1.plugin i p hw.1.2 h

/-- It still waits when its client was loaded, -/
theorem waits_loadClient :
    Triple (Waiting i) (loadClient S i) (fun _ => Waiting i) (Waiting i) := by
  intro w hw
  rw [loadClient, exec_get_bind]
  by_cases hsome : (w.instances.get i).client.isSome = true
  · rw [if_pos hsome]
    exact hw
  rw [if_neg hsome]
  obtain ⟨r, w₁, he, hcache⟩ := Client.exec_get_cached (S := S) (w.instances.get i).primaryUser w
  have hkept := pointersKept_get (S := S) (w.instances.get i).primaryUser none none none w
  rw [he] at hkept
  have hw₁ := hkept.waiting hw
  have hset : Waiting i ((setInstance i fun inst => { inst with client := r } :
      Action L Unit).exec w₁).2 := by
    refine waiting_setInstance hw₁ hw₁.2 (fun c hc => ?_) hw₁.plugin
    exact hw₁.1.1.clientCache _ c (hcache c hc)
  rw [exec_bind_ok he, exec_setInstance_bind]
  by_cases hr : r.isSome = true
  · rw [if_pos hr]
    exact hset
  · rw [if_neg hr]
    exact waits_of_pointers (parts_pointers.disable (S := S) _ _) _ hset

/-- and after `load`. -/
theorem waits_dependencies :
    Triple (Waiting i) (dependencies S i) (fun _ => Waiting i) (Waiting i) := by
  have hite {m : Action L Bool} (hm : Triple (Waiting i) m (fun _ => Waiting i) (Waiting i))
      (b : Bool) :
      Triple (Waiting i) (if b = true then m else pure false) (fun _ => Waiting i) (Waiting i) := by
    cases b with
    | true => exact hm
    | false => exact triple_pure fun _ h => h
  have hload : Triple (Waiting i) (load S i) (fun _ => Waiting i) (Waiting i) :=
    (waits_of_pointers parts_pointers.loadLoader).bind <| hite <|
      waits_loadClient.bind <| hite <|
      (waits_of_pointers parts_pointers.loadReferences).bind fun _ => triple_pure fun _ h => h
  refine triple_read fun w _ => ?_
  split
  · exact hload
  · exact triple_pure fun _ h => h

/-- A started instance has its client already. -/
theorem upholds_load : Keeps (.ofInv (Upholding i)) (load S i) := by
  have hclient : Keeps (.ofInv (Upholding i)) (loadClient S i) := by
    intro w hw
    by_cases hsome : (w.instances.get i).client.isSome = true
    · rw [loadClient, exec_get_bind, if_pos hsome]
      exact hw
    · have hstarted : (w.instances.get i).started = false := by
        by_contra hs
        obtain ⟨-, c, -, hc, -⟩ := hw.1.acts i hw.2 (by simpa using hs)
        rw [hc] at hsome
        exact hsome rfl
      exact (waits_loadClient.post (fun _ _ h => h.1) fun _ h => h.1).final (R := Upholding i)
        ⟨hw, hstarted⟩
  exact keeps_bind (upholds_of_pointers parts_pointers.loadLoader) fun _ =>
    keeps_ite (keeps_bind hclient fun _ => keeps_ite
      (keeps_bind (upholds_of_pointers parts_pointers.loadReferences) fun _ => keeps_pure _)
      (keeps_pure _)) (keeps_pure _)

/-- The plugin `p` has been made for the instance, and acts for its client. -/
def MadeFor (i p : Ref) (w : World L) : Prop :=
  Waiting i w ∧ (w.instances.get i).plugin = some p ∧ ActsForClient w i

/-- **The plugin gets the Matrix client.** -/
theorem triple_constructFor (l cls : Ref) (env : StartEnv) :
    Triple (Waiting i) (construct i l cls env : Action L Ref) (fun p => MadeFor i p)
      (Waiting i) := by
  intro w hw
  rw [construct, exec_bind]
  rcases hclient : (w.instances.get i).client with _ | c
  · rw [exec_theClient_none hclient]
    exact hw
  rw [exec_theClient hclient]
  dsimp only
  cases hraised : env.construct with
  | some e => exact hw
  | none =>
    -- the plugin object is made with the Matrix client of the instance's client
    let pl : Plugin :=
      { cls, client := (w.clients.get c).client, instanceId := (w.instances.get i).id
        config := (w.instances.get i).config, database := (w.instances.get i).instDb, loader := l
        webapp := (w.instances.get i).instWebapp
        webappUrl := (w.instances.get i).instWebappUrl }
    let w₁ : World L := { w with plugins := w.plugins.alloc pl }
    have hold {q : Ref} (hq : q < w.plugins.next) : w₁.plugins.get q = w.plugins.get q :=
      Store.get_alloc_of_lt _ _ hq
    have hkept : PointersKept w w₁ :=
      { PointersKept.refl w with
        plugins := Nat.le_succ _
        plugin := fun q hq => congrArg Plugin.client (hold hq) }
    have hw₁ := hkept.waiting hw
    let assign (inst : PluginInstance) : PluginInstance :=
      { inst with plugin := some w.plugins.next }
    have hset : Waiting i ((setInstance i assign : Action L Unit).exec w₁).2 := by
      refine waiting_setInstance hw₁ hw₁.2 hw₁.client ?_
      rintro _ ⟨⟩
      exact Nat.lt_succ_self _
    have hself : (w₁.instances.modify i assign).get i = assign (w.instances.get i) :=
      Store.get_modify_self w₁.instances i assign
    refine ⟨hset, congrArg PluginInstance.plugin hself, w.plugins.next, c,
      congrArg PluginInstance.plugin hself,
      (congrArg PluginInstance.client hself).trans hclient, ?_⟩
    exact congrArg Plugin.client (Store.get_alloc_self w.plugins pl)

/-- A plugin object that was made for it stays so. -/
theorem PointersKept.madeFor {p : Ref} (h : PointersKept w w') (hw : MadeFor i p w) :
    MadeFor i p w' := by
  obtain ⟨hwait, hp, q, c, hq, hc, hqc⟩ := hw
  refine ⟨h.waiting hwait, (h.pluginOf hwait.1.2).trans hp, q, c, (h.pluginOf hwait.1.2).trans hq,
    (h.clientOf hwait.1.2).trans hc, ?_⟩
  rw [h.plugin q (hwait.plugin q hq), h.client c (hwait.client c hc), hqc]

/-- Nothing that the plugin does while it starts changes whose Matrix client it has. -/
theorem triple_startPlugin (S : Setup L) (p : Ref) (env : StartEnv) :
    Triple (MadeFor i p) (startPlugin i p env : Action L Unit) (fun _ => Upholding i)
      (Upholding i) := by
  have hstart : Keeps (Pointers L i) (Plugin.internalStart (saveConfig i) p env.attributes
      env.preStart env.start) := (parts_pointers (S := S)).internalStart p env
  refine Triple.bind (Q := fun _ => MadeFor i p) ?_ fun r => ?_
  · refine ((keeps_attempt hstart _).triple (P := MadeFor i p) fun _ _ h hw => ?_).post
      (fun _ _ h => h) fun _ h => h.1.1
    exact (h hw.1.1.2).madeFor hw
  · cases r with
    | ok _ =>
      intro w hw
      refine ⟨acting_setInstance hw.1.1.1 hw.1.client hw.1.plugin fun _ => ?_, hw.1.1.2⟩
      exact hw.2.2
    | error e =>
      have hdisable : Keeps (Pointers L i) (do
          report (.startInstance i)
          updateEnabled i (some false) : Action L Unit) :=
        keeps_bind (pointers_of_quiet (S := S) (quiet_report (by simp))) fun _ =>
          pointers_of_quiet (S := S) (quiet_updateEnabled i _)
      exact ((waits_of_pointers hdisable).pre fun _ h => h.1).post (fun _ _ h => h.1) fun _ h => h.1

/-- **Start.** -/
theorem upholds_start (env : StartEnv) : Keeps (.ofInv (Upholding i)) (start S i env) := by
  have hloaded : Triple (Waiting i) (startLoaded S i env) (fun _ => Upholding i) (Upholding i) := by
    have hwaits {α : Type} {m : Action L α} (hm : Keeps (Pointers L i) m) :
        Triple (Waiting i) m (fun _ => Waiting i) (Upholding i) :=
      (waits_of_pointers hm).post (fun _ _ h => h) fun _ h => h.1
    refine (hwaits (AdmitsParts.theLoader i)).bind fun l =>
      (hwaits (parts_pointers.loadClass l)).bind fun cls =>
      (hwaits (parts_pointers.adjustWebapp l)).bind fun _ =>
      (hwaits (parts_pointers.openDatabase l env)).bind fun b => ?_
    cases b with
    | false => exact triple_pure fun _ h => h.1
    | true =>
      exact (hwaits ((parts_pointers (S := S)).readConfig env)).bind fun _ =>
        ((triple_constructFor l cls env).post (fun _ _ h => h) fun _ h => h.1).bind fun p =>
        triple_startPlugin S p env
  intro w hw
  rw [start, exec_get_bind]
  by_cases hstarted : (w.instances.get i).started = true
  · rw [if_pos hstarted]
    exact hw
  rw [if_neg hstarted]
  split
  · exact hw
  · refine (Triple.bind (waits_dependencies.post (fun _ _ h => h) fun _ h => h.1) fun b => ?_).final
      (R := Upholding i) ⟨hw, by simpa using hstarted⟩
    cases b with
    | true => exact hloaded
    | false => exact triple_pure fun _ h => h.1

/-- **Stop.** -/
theorem triple_stop (S : Setup L) (env : StopEnv) :
    Triple (Upholding i) (stop i env : Action L Unit) (fun _ => Waiting i) (Waiting i) := by
  intro w hw
  rw [stop, exec_get_bind]
  by_cases hstarted : (w.instances.get i).started = true
  · rw [if_pos hstarted, exec_setInstance_bind]
    let stopped (inst : PluginInstance) : PluginInstance := { inst with started := false }
    have hwait : Waiting i ((setInstance i stopped : Action L Unit).exec w).2 := by
      refine ⟨⟨acting_setInstance hw.1 (hw.1.client i · hw.2) (hw.1.plugin i · hw.2) nofun, hw.2⟩,
        ?_⟩
      exact congrArg PluginInstance.started (Store.get_modify_self w.instances i stopped)
    have hforget : Triple (Waiting i) (setInstance i fun inst => { inst with plugin := none } :
        Action L Unit) (fun _ => Waiting i) (Waiting i) := fun w hw =>
      waiting_setInstance hw hw.2 hw.client nofun
    exact ((waits_of_pointers ((parts_pointers (S := S)).logged _
      ((parts_pointers (S := S)).stopPlugin env))).bind fun _ => hforget.bind fun _ =>
        waits_of_pointers ((parts_pointers (S := S)).closeDatabase env)) _ hwait
  · rw [if_neg hstarted]
    exact ⟨hw, by simpa using hstarted⟩

/-- A stop leaves it acting, or without a plugin object. -/
theorem upholds_stop (S : Setup L) (env : StopEnv) :
    Keeps (.ofInv (Upholding i)) (stop i env : Action L Unit) := fun _ hw =>
  ((triple_stop S env).post (fun _ _ h => h.1) fun _ h => h.1).final (R := Upholding i) hw

/-! ### Updates -/

/-- The references of the loader are no pointers here. -/
theorem pointers_removeFromLoader : Keeps (Pointers L i) (removeFromLoader S i) := by
  refine keeps_bind keeps_get fun w => ?_
  split
  · exact keeps_pure ()
  · split
    · exact pointers_modify fun _ => pointersKept_of_eq rfl rfl rfl rfl rfl
    · exact keeps_bind (pointers_modify fun _ => pointersKept_of_eq rfl rfl rfl rfl rfl) fun _ =>
        keeps_throw _

/-- Neither are those of the client. -/
theorem pointers_removeFromClient : Keeps (Pointers L i) (removeFromClient S i) := by
  refine keeps_get_bind fun w => ?_
  split
  · exact (Pointers L i).refl w
  · next c _ =>
    split
    · next s hs =>
      exact fun _ => pointersKept_setClient w c (fun _ => rfl) fun j hj =>
        .inl (mem_of_mem_remove hs hj)
    · have hreport : Keeps (Pointers L i) (report (.removeReference i)) :=
        pointers_modify fun _ => pointersKept_of_eq rfl rfl rfl rfl rfl
      exact keeps_bind hreport (fun _ => keeps_throw _) w

/-- A stopped instance gets a new client, or a new loader, and starts again. -/
theorem upholds_switchClient (c : Ref) (env : StopEnv × StartEnv) :
    Triple (fun w => Upholding i w ∧ c < w.clients.next) (switchClient S i c env)
      (fun _ => Upholding i) (Upholding i) := by
  let Ready (w : World L) : Prop := Waiting i w ∧ c < w.clients.next
  -- between the stop and the start the instance only waits
  have hready {α : Type} {m : Action L α} (hm : Keeps (Pointers L i) m) :
      Triple Ready m (fun _ => Ready) (Upholding i) := by
    refine (hm.triple (P := Ready) fun _ _ h hw => ?_).post (fun _ _ h => h) fun _ h => h.1.1
    have hkept := h hw.1.1.2
    exact ⟨hkept.waiting hw.1, Nat.lt_of_lt_of_le hw.2 hkept.clients⟩
  have hstop : Triple (fun w => Upholding i w ∧ c < w.clients.next) (stop i env.1 : Action L Unit)
      (fun _ => Ready) (Upholding i) :=
    ((triple_stop S env.1).frame (((moreClients_instances (S := S)).admits i).stop env.1)
      fun _ _ h hc => Nat.lt_of_lt_of_le hc h).post (fun _ _ h => h) fun _ h => h.1.1
  have hassign {f : PluginInstance → PluginInstance}
      (hf : ∀ inst, (f inst).pointers = inst.pointers) :
      Triple Ready (setInstance i f : Action L Unit) (fun _ => Ready) (Upholding i) :=
    hready fun w _ => pointersKept_setInstance w i hf
  -- there it gets its new client, which exists
  have hclient : Triple Ready (setInstance i fun inst => { inst with client := some c } :
      Action L Unit) (fun _ => Ready) (Upholding i) := by
    rintro w ⟨hw, hc⟩
    refine ⟨waiting_setInstance hw hw.2 ?_ hw.plugin, hc⟩
    rintro _ ⟨⟩
    exact hc
  have hstart : Triple Ready (start S i env.2) (fun _ => Upholding i) (Upholding i) := by
    intro w hw
    have h := upholds_start (S := S) env.2 w hw.1.1
    rcases hr : (start S i env.2).exec w with ⟨e | _, w'⟩ <;> rw [hr] at h <;> exact h
  refine hstop.bind fun _ => triple_read fun w _ => (hassign ?_).bind fun _ =>
    (hready pointers_removeFromClient).bind fun _ => hclient.bind fun _ =>
    (hready (pointers_addToClient c)).bind fun _ =>
    (hready (pointers_of_quiet (S := S) (quiet_update i))).bind fun _ => hstart
  exact fun _ => rfl

/-- A new user stops the instance before the client is switched. -/
theorem upholds_updatePrimaryUser (u : Option String) (env : StopEnv × StartEnv) :
    Keeps (.ofInv (Upholding i)) (updatePrimaryUser S i u env) := by
  refine keeps_get_bind fun w hw => ?_
  cases u with
  | none => exact hw
  | some u =>
    dsimp only
    split
    · exact hw
    · obtain ⟨r, w₁, he, hcache⟩ := Client.exec_get_cached (S := S) u w
      have hkept := pointersKept_get (S := S) u none none none w
      rw [he] at hkept
      have hw₁ := hkept.upholding hw
      rw [exec_bind_ok he]
      cases r with
      | none => exact hw₁
      | some c =>
        have hswitch : Triple (fun w => Upholding i w ∧ c < w.clients.next)
            (do switchClient S i c env; pure true : Action L Bool) (fun _ => Upholding i)
            (Upholding i) := (upholds_switchClient c env).bind fun _ => triple_pure fun _ h => h
        exact hswitch.final ⟨hw₁, hw₁.1.clientCache u c (hcache c rfl)⟩

/-- A new type does so too. -/
theorem upholds_updateType (t : Option String) (env : StopEnv × StartEnv) :
    Keeps (.ofInv (Upholding i)) (updateType S i t env) := by
  have hassign {f : PluginInstance → PluginInstance}
      (hf : ∀ inst, (f inst).pointers = inst.pointers) :
      Keeps (.ofInv (Upholding i)) (setInstance i f : Action L Unit) :=
    upholds_of_pointers fun w _ => pointersKept_setInstance w i hf
  have hadd (l : Ref) : Keeps (Pointers L i) (addToLoader S i l) :=
    keeps_bind keeps_get fun _ => pointers_modify fun _ => pointersKept_of_eq rfl rfl rfl rfl rfl
  refine keeps_bind keeps_get fun w => ?_
  cases t with
  | none => exact keeps_pure _
  | some t =>
    refine keeps_ite (keeps_pure _) ?_
    split
    · exact keeps_pure _
    · next l _ =>
      refine keeps_bind ?_ fun _ => keeps_pure _
      exact keeps_bind (upholds_stop S env.1) fun _ => keeps_bind keeps_get fun _ =>
        keeps_bind (hassign fun _ => rfl) fun _ =>
        keeps_bind (upholds_of_pointers pointers_removeFromLoader) fun _ =>
        keeps_bind (hassign fun _ => rfl) fun _ =>
          keeps_bind (upholds_of_pointers (hadd l)) fun _ =>
        keeps_bind (upholds_of_pointers (pointers_of_quiet (S := S) (quiet_update i))) fun _ =>
        upholds_start env.2

/-- An id is no pointer. -/
theorem pointers_updateId (n : Option String) : Keeps (Pointers L i) (updateId S i n) := by
  have hrename (n k : String) : Keeps (Pointers L i) (renameRow n k) := by
    refine keeps_bind keeps_get fun w => ?_
    split
    · exact keeps_pure ()
    · exact keeps_ite (keeps_throw _) <|
        pointers_modify fun _ => pointersKept_of_eq rfl rfl rfl rfl rfl
  refine keeps_bind keeps_get fun w => ?_
  cases n with
  | none => exact keeps_pure ()
  | some n =>
    exact keeps_ite (keeps_pure ()) <| keeps_bind keeps_get fun _ =>
      keeps_bind (hrename _ _) fun _ =>
      fun w _ => pointersKept_setInstance w i fun _ => rfl

/-- Nor is a config. -/
theorem pointers_updateConfig (S : Setup L) (config : Option String) (onUpdate : Hook) :
    Keeps (Pointers L i) (updateConfig i config onUpdate) := by
  have hnotify : Keeps (Pointers L i) (notifyPlugin i onUpdate) := by
    refine keeps_bind keeps_get fun w => ?_
    split
    · exact (parts_pointers (S := S)).runHook _ onUpdate
    · exact keeps_pure ()
  refine keeps_bind keeps_get fun w => ?_
  cases config with
  | none => exact keeps_pure ()
  | some c =>
    exact keeps_ite (keeps_pure ()) <|
      keeps_bind (fun w _ => pointersKept_setInstance w i fun _ => rfl) fun _ =>
      keeps_bind hnotify fun _ => pointers_of_quiet (S := S) (quiet_update i)

/-- A deletion leaves the pointers. -/
theorem pointers_delete (env : DeleteEnv) : Keeps (Pointers L i) (delete S i env) := by
  have hforget : Keeps (Pointers L i) (modify fun w : World L =>
      { w with instanceCache := Function.update w.instanceCache (w.instances.get i).id none } :
        Action L Unit) := fun w _ =>
    { PointersKept.refl w with
      instanceCache := fun k j hj => by
        replace hj : Function.update w.instanceCache (w.instances.get i).id none k = some j := hj
        by_cases hk : k = (w.instances.get i).id
        · rw [hk, Function.update_self] at hj
          cases hj
        · rw [Function.update_of_ne hk] at hj
          exact .inl hj }
  have hrow : Keeps (Pointers L i) (deleteRow i : Action L Unit) :=
    keeps_bind (pointers_modify fun _ => pointersKept_of_eq rfl rfl rfl rfl rfl) fun _ =>
      fun w _ => pointersKept_setInstance w i fun _ => rfl
  exact keeps_bind pointers_removeFromLoader fun _ => keeps_bind pointers_removeFromClient fun _ =>
    keeps_bind hforget fun _ => keeps_bind hrow fun _ => parts_pointers.deleteResources env

/-- A start or a stop on request upholds it. -/
theorem upholds_updateStarted (started : Option Bool) (env : StopEnv × StartEnv) :
    Keeps (.ofInv (Upholding i)) (updateStarted S i started env) := by
  refine keeps_bind keeps_get fun w => ?_
  cases started with
  | none => exact keeps_pure ()
  | some b =>
    exact keeps_ite (keeps_pure ()) (keeps_ite (upholds_start env.2) (upholds_stop S env.1))

/-! ### Lookup and creation -/

/-- A new object for a row points nowhere. -/
theorem pointersKept_fromRow (k : String) (row : InstanceRow) (w : World L) :
    PointersKept w ((fromRow k row : Action L Ref).exec w).2 := by
  let inst : PluginInstance :=
    { id := k, type := row.type, enabled := row.enabled, primaryUser := row.primaryUser
      configStr := row.config, databaseEngine := row.databaseEngine }
  have hold {j : Ref} (hj : j < w.instances.next) :
      (w.instances.alloc inst).get j = w.instances.get j := Store.get_alloc_of_lt _ _ hj
  have hnew : (w.instances.alloc inst).get w.instances.next = inst := Store.get_alloc_self _ _
  exact
    { PointersKept.refl w with
      instances := Nat.le_succ _
      pointers := fun j hj => congrArg pointers (hold hj)
      fresh := fun j hj hj' => by
        obtain rfl : j = w.instances.next := Nat.le_antisymm (Nat.le_of_lt_succ hj') hj
        exact (congrArg pointers hnew).trans rfl
      references := fun c j hc hj => .inl ⟨hc, hj⟩
      instanceCache := fun k' j hj => by
        replace hj : Function.update w.instanceCache k (some w.instances.next) k' = some j := hj
        by_cases hk : k' = k
        · rw [hk, Function.update_self, Option.some.injEq] at hj
          exact .inr (hj ▸ Nat.lt_succ_self _)
        · rw [Function.update_of_ne hk] at hj
          exact .inl hj }

/-- An instance that is looked up or made points nowhere new. -/
theorem pointersKept_getInstance (k : String) (t u : Option String) (w : World L) :
    PointersKept w ((PluginInstance.get k t u : Action L _).exec w).2 := by
  rcases exec_get_cases k t u w with he | ⟨row, -, -, he⟩ | ⟨row, -, -, -, he⟩ <;> rw [he]
  · exact .refl w
  · exact pointersKept_fromRow k row w
  · let w₁ : World L := { w with instanceRows := Function.update w.instanceRows k (some row) }
    have hrow : PointersKept w w₁ := pointersKept_of_eq rfl rfl rfl rfl rfl
    exact hrow.trans (pointersKept_fromRow k row w₁)

/-- So one may be created. -/
theorem acting_createInstance (hw : Acting w) (k : String) (data : NewInstance) (env : StartEnv) :
    Acting ((createInstance S k data env).exec w).2 := by
  -- a new instance is set up as any other is started
  have hsetUp (i : Ref) : Keeps (.ofInv (Upholding i)) (setUpInstance S i data env) := by
    exact keeps_bind (upholds_of_pointers fun w _ => pointersKept_setInstance w i fun _ => rfl)
      fun _ =>
      keeps_bind (upholds_of_pointers (pointers_of_quiet (S := S) (quiet_update i))) fun _ =>
      keeps_bind upholds_load fun _ => upholds_start env
  rw [createInstance]
  split
  · exact hw
  split
  · exact hw
  obtain ⟨r, w₁, he, -⟩ := Client.exec_get_cached (S := S) (data.primaryUser.getD "") w
  have hw₁ := (pointersKept_get (S := S) (data.primaryUser.getD "") none none none w).acting hw
  rw [he] at hw₁
  rw [exec_bind_ok he]
  cases r with
  -- without a client for the owner nothing is made
  | none => exact hw₁
  | some c =>
    dsimp only
    rw [exec_get_bind]
    split
    · exact hw₁
    · have hget := (pointersKept_getInstance k data.type data.primaryUser w₁).acting hw₁
      rw [exec_bind]
      rcases hr : (PluginInstance.get k data.type data.primaryUser).exec w₁ with ⟨e | r, w₂⟩ <;>
        rw [hr] at hget
      · exact hget
      · cases r with
        | none => exact hget
        -- the new instance is in the cache when it is set up
        | some i =>
          have hset := hsetUp i w₂ ⟨hget, hget.instanceCache k i (cached_of_get hr)⟩
          dsimp only
          rw [exec_bind]
          rcases hr' : (setUpInstance S i data env).exec w₂ with ⟨e | _, w₃⟩ <;>
            rw [hr'] at hset <;>
            exact hset.1

/-! ### Operations of instances -/

/-- And every operation on an instance leaves the bots acting for the right client. -/
theorem acting_op (hw : Acting w) {op : Op} (hheld : op.Held w) : Acting (op.exec S w) := by
  have hmethod {α : Type} {m : Action L α} {i : Ref} (hi : Live w i)
      (hm : Keeps (.ofInv (Upholding i)) m) : Acting (m.exec w).2 := (hm w ⟨hw, hi.1⟩).1
  have hkept {α : Type} {m : Action L α} {i : Ref} (hi : Live w i) (hm : Keeps (Pointers L i) m) :
      Acting (m.exec w).2 := (hm w hi.1).acting hw
  cases op with
  | get k t u => exact (pointersKept_getInstance k t u w).acting hw
  | load i => exact hmethod (hheld i rfl) upholds_load
  | start i env => exact hmethod (hheld i rfl) (upholds_start env)
  | stop i env => exact hmethod (hheld i rfl) (upholds_stop S env)
  | updateId i n => exact hkept (hheld i rfl) (pointers_updateId n)
  | updatePrimaryUser i u env => exact hmethod (hheld i rfl) (upholds_updatePrimaryUser u env)
  | updateType i t env => exact hmethod (hheld i rfl) (upholds_updateType t env)
  | updateConfig i c onUpdate => exact hkept (hheld i rfl) (pointers_updateConfig S c onUpdate)
  | updateEnabled i e =>
    exact hkept (hheld i rfl) (pointers_of_quiet (S := S) (quiet_updateEnabled i e))
  | delete i env => exact hkept (hheld i rfl) (pointers_delete env)

end PluginInstance

namespace Client

open PluginInstance

variable {w w' : World L} {c : Ref}

/-! ### Methods of clients -/

/-- The frame of the methods of the client `c`, which exists. -/
abbrev Acts (L : Type) (c : Ref) : Frame (World L) :=
  .ofInv fun w => Acting w ∧ c < w.clients.next

/-- A program that keeps the pointers keeps a client's instances acting. -/
theorem acts_of_kept {α : Type} {m : Action L α} (hm : ∀ w, PointersKept w (m.exec w).2) :
    Keeps (Acts L c) m := fun w hw =>
  ⟨(hm w).acting hw.1, Nat.lt_of_lt_of_le hw.2 (hm w).clients⟩

/-- So does a change of anything else. -/
theorem acts_modify {f : World L → World L} (hinstances : ∀ w, (f w).instances = w.instances)
    (hclients : ∀ w, (f w).clients = w.clients) (hplugins : ∀ w, (f w).plugins = w.plugins)
    (hclientCache : ∀ w, (f w).clientCache = w.clientCache)
    (hinstanceCache : ∀ w, (f w).instanceCache = w.instanceCache) :
    ∀ w, PointersKept w ((modify f : Action L Unit).exec w).2 := fun w =>
  pointersKept_of_eq (hinstances w) (hclients w) (hplugins w) (hclientCache w) (hinstanceCache w)

/-- The instances that refer to the client are started, or stopped, one after the other. -/
theorem acts_gather {l : List Ref} {m : Ref → Action L Unit} {w : World L} (hw : Acting w)
    (hc : c < w.clients.next) (hl : ∀ i ∈ l, i ∈ (w.clients.get c).references.elems)
    (hm : ∀ i, Keeps (.ofInv (Upholding i)) (m i)) (hnext : ∀ i, Keeps (Identity L) (m i))
    (hmore : ∀ i, Keeps (MoreClients L) (m i)) :
    Acting ((gather (l.map m)).exec w).2 ∧ c < ((gather (l.map m)).exec w).2.clients.next := by
  have hgather : Keeps (.ofInv fun w => (Acting w ∧ c < w.clients.next) ∧
      ∀ i ∈ l, i < w.instances.next) (gather (l.map m)) := by
    refine keeps_gather fun n hn => ?_
    obtain ⟨i, hi, rfl⟩ := List.mem_map.mp hn
    rintro w ⟨⟨hw, hc⟩, hl⟩
    refine ⟨⟨(hm i w ⟨hw, hl i hi⟩).1, Nat.lt_of_lt_of_le hc (hmore i w)⟩, fun j hj => ?_⟩
    rw [(hnext i w).next]
    exact hl j hj
  exact (hgather w ⟨⟨hw, hc⟩, fun i hi => hw.references c i hc (hl i hi)⟩).1

/-- The methods of a client, the switch of the access details apart. -/
theorem admits_acts (c : Ref) : Client.Admits S c (Acts L c) where
  assign f _ _ hclient href := acts_of_kept fun w =>
    pointersKept_setClient w c hclient fun j hj => .inl (by rwa [href] at hj)
  setRow f _ _ :=
    acts_of_kept fun w => pointersKept_setClient w c (fun _ => rfl) fun j hj => .inl hj
  setAutojoin w b _ := by
    have hrow : Keeps (Acts L c) (setClientRow c fun row => { row with autojoin := b }) :=
      acts_of_kept fun w => pointersKept_setClient w c (fun _ => rfl) fun j hj => .inl hj
    have hadd (m : Ref) (t : EventType) (h : Handler) : Keeps (Acts L c) (addEventHandler m t h) :=
      acts_of_kept (acts_modify (fun _ => rfl) (fun _ => rfl) (fun _ => rfl) (fun _ => rfl)
        fun _ => rfl)
    have hremove (m : Ref) (t : EventType) (h : Handler) :
        Keeps (Acts L c) (removeEventHandler m t h) :=
      acts_of_kept (acts_modify (fun _ => rfl) (fun _ => rfl) (fun _ => rfl) (fun _ => rfl)
        fun _ => rfl)
    cases b with
    | true => exact keeps_bind (hadd _ _ _) (fun _ => hrow) w
    | false => exact keeps_bind (hremove _ _ _) (fun _ => hrow) w
  setOnline w b := by
    have hrow : Keeps (Acts L c) (setClientRow c fun row => { row with online := b }) :=
      acts_of_kept fun w => pointersKept_setClient w c (fun _ => rfl) fun j hj => .inl hj
    have hpresence (m : Ref) :
        Keeps (Acts L c) (setMatrixClient m fun mc => { mc with presence := b }) :=
      acts_of_kept (acts_modify (fun _ => rfl) (fun _ => rfl) (fun _ => rfl) (fun _ => rfl)
        fun _ => rfl)
    exact keeps_bind (hpresence _) (fun _ => hrow) w
  update := keeps_bind keeps_get fun _ => keeps_ite (keeps_pure ()) <| keeps_ite
    (acts_of_kept (acts_modify (fun _ => rfl) (fun _ => rfl) (fun _ => rfl) (fun _ => rfl)
      fun _ => rfl))
    (keeps_throw _)
  startSync := keeps_bind keeps_get fun _ => keeps_when <| acts_of_kept <|
    acts_modify (fun _ => rfl) (fun _ => rfl) (fun _ => rfl) (fun _ => rfl) fun _ => rfl
  stopSync := keeps_bind keeps_get fun _ => acts_of_kept <|
    acts_modify (fun _ => rfl) (fun _ => rfl) (fun _ => rfl) (fun _ => rfl) fun _ => rfl
  -- each instance that starts leaves the others to act for the client
  startPlugins env := keeps_get_bind fun w hw =>
    acts_gather hw.1 hw.2 (fun _ hi => hi) (fun i => upholds_start (env i))
      (fun i => identity_start i (env i)) fun i => (moreClients_instances.admits i).start (env i)
  stopPlugins env := keeps_get_bind fun w hw =>
    acts_gather hw.1 hw.2 (fun _ hi => (List.mem_filter.mp hi).1)
      (fun i => upholds_stop S (env i))
      (fun i => identity_of_links (S := S) (links_stop i (env i)))
      fun i => ((moreClients_instances (S := S)).admits i).stop (env i)

/-! ### Access details -/

/-- No started instance has the client. -/
def Unused (c : Ref) (w : World L) : Prop :=
  ∀ i, i < w.instances.next → (w.instances.get i).started = true →
    (w.instances.get i).client ≠ some c

/-- A client that nobody uses stays unused. -/
theorem Unused.kept (hw : Unused c w) (h : PointersKept w w') : Unused c w' := by
  intro i hi hstarted
  have hold := h.old hi fun hp => by
    have hfalse : (w'.instances.get i).started = false := congrArg Prod.fst hp
    rw [hfalse] at hstarted
    cases hstarted
  rw [h.started hold] at hstarted
  rw [h.clientOf hold]
  exact hw i hold hstarted

/-- The client `c` gets another Matrix client. -/
theorem acting_setMatrix (hw : Acting w) (hunused : Unused c w) (m : Ref) :
    Acting ((setClient c fun cl => { cl with client := m } : Action L Unit).exec w).2 := by
  let assign (cl : Client) : Client := { cl with client := m }
  have href (q : Ref) : ((w.clients.modify c assign).get q).references =
      (w.clients.get q).references :=
    Store.view_modify w.clients c assign Client.references (fun _ => rfl) q
  suffices h : Acting { w with clients := w.clients.modify c assign } from h
  refine { hw with references := fun q i hq hi => ?_, acts := fun i hi hstarted => ?_ }
  · replace hi : i ∈ ((w.clients.modify c assign).get q).references.elems := hi
    rw [href] at hi
    exact hw.references q i hq hi
  · obtain ⟨p, q, hp, hq, hpq⟩ := hw.acts i hi hstarted
    have hne : q ≠ c := fun heq => hunused i hi hstarted (heq ▸ hq)
    refine ⟨p, q, hp, hq, ?_⟩
    rw [hpq]
    exact (congrArg Client.client (Store.get_modify_ne w.clients assign hne)).symm

/-- One whose instances are stopped may get another Matrix client. -/
theorem acting_switchAccess (hw : Acting w) (hunused : Unused c w) (m : Ref)
    (token homeserver : Option String) (deviceId : String) (crypto : CryptoEnv) :
    Acting ((switchAccess S c m token homeserver deviceId crypto).exec w).2 := by
  let F : Frame (World L) := .ofInv fun w => Acting w ∧ Unused c w
  -- an assignment that keeps the pointers keeps who acts for whom
  have hkept {α : Type} {n : Action L α} (hn : ∀ w, PointersKept w (n.exec w).2) : Keeps F n :=
    fun w hw => ⟨(hn w).acting hw.1, hw.2.kept (hn w)⟩
  have hmodify {f : World L → World L} (hinstances : ∀ w, (f w).instances = w.instances)
      (hclients : ∀ w, (f w).clients = w.clients) (hplugins : ∀ w, (f w).plugins = w.plugins)
      (hclientCache : ∀ w, (f w).clientCache = w.clientCache)
      (hinstanceCache : ∀ w, (f w).instanceCache = w.instanceCache) :
      Keeps F (modify f : Action L Unit) :=
    hkept (acts_modify hinstances hclients hplugins hclientCache hinstanceCache)
  have hassign {f : Client → Client} (hclient : ∀ cl, (f cl).client = cl.client)
      (href : ∀ cl, (f cl).references = cl.references) : Keeps F (setClient c f) :=
    hkept fun w => pointersKept_setClient w c hclient fun j hj => .inl (by rwa [href] at hj)
  have hmatrix (r : Ref) (f : MatrixClient → MatrixClient) : Keeps F (setMatrixClient r f) :=
    hmodify (fun _ => rfl) (fun _ => rfl) (fun _ => rfl) (fun _ => rfl) fun _ => rfl
  have hadd (r : Ref) (t : EventType) (h : Handler) : Keeps F (addEventHandler r t h) :=
    hmodify (fun _ => rfl) (fun _ => rfl) (fun _ => rfl) (fun _ => rfl) fun _ => rfl
  have hremove : Keeps F (removeCryptoEventHandlers c) := by
    refine keeps_bind keeps_get fun w => ?_
    split
    · exact keeps_pure ()
    · exact keeps_forM fun _ _ =>
        hmodify (fun _ => rfl) (fun _ => rfl) (fun _ => rfl) (fun _ => rfl) fun _ => rfl
  have hprepare : Keeps F (prepareCrypto c) :=
    keeps_bind keeps_get fun _ => keeps_bind (keeps_forM fun _ _ => hadd _ _ _) fun _ =>
      keeps_bind (hassign (fun _ => rfl) fun _ => rfl) fun _ => hmatrix _ _
  have hcrypto : Keeps F (startCrypto c crypto) :=
    keeps_bind keeps_get fun _ => keeps_bind (keeps_outcome _) fun _ =>
      hassign (fun _ => rfl) fun _ => rfl
  -- only here the client gets another Matrix client, which is in nobody else's hands
  have hset : Keeps F (setClient c fun cl => { cl with client := m }) := fun w hw =>
    ⟨acting_setMatrix hw.1 hw.2 m, hw.2⟩
  have hstart : Keeps F (startSync c) := keeps_bind keeps_get fun _ => keeps_when (hmatrix _ _)
  have hstop : Keeps F (stopSync c) := keeps_bind keeps_get fun _ => hmatrix _ _
  -- the steps of the switch, in their order
  have hswitch : Keeps F (switchAccess S c m token homeserver deviceId crypto) := by
    refine keeps_bind hstop fun _ => keeps_bind hremove fun _ => keeps_bind keeps_get fun w₁ =>
      keeps_bind (hmatrix _ _) fun _ => keeps_bind (hmatrix _ _) fun _ => keeps_bind hset fun _ =>
      keeps_bind (hassign (fun _ => rfl) fun _ => rfl) fun _ => keeps_bind keeps_get fun w₂ => ?_
    dsimp only
    split
    · exact keeps_bind hprepare fun _ => keeps_bind hcrypto fun _ => hstart
    · exact keeps_bind (hassign (fun _ => rfl) fun _ => rfl) fun _ => hstart
  exact (hswitch w ⟨hw, hunused⟩).1

/-- **Access details.**  A swap keeps the started instances acting for their clients if none of
    them has the client. -/
theorem acting_updateAccessDetails (hw : Acting w) (token homeserver deviceId : Option String)
    (env : AccessEnv)
    (hunused : Swaps token homeserver deviceId env (view c w) → Unused c w) :
    Acting ((updateAccessDetails S c token homeserver deviceId env).exec w).2 := by
  have hmake : PointersKept w ((makeClient c homeserver token
      (some (deviceId.getD (w.clients.get c).row.deviceId)) : Action L Ref).exec w).2 :=
    pointersKept_of_eq rfl rfl rfl rfl rfl
  rcases updateAccessDetails_cases (S := S) c token homeserver deviceId env w with
    he | he | ⟨hswaps, he⟩ <;> rw [he]
  · exact hw
  · exact hmake.acting hw
  · obtain ⟨m, w₁, hm⟩ : ∃ m w₁, (makeClient c homeserver token
        (some (deviceId.getD (w.clients.get c).row.deviceId)) : Action L Ref).exec w =
          (.ok m, w₁) :=
      ⟨_, _, rfl⟩
    rw [exec_bind_ok hm]
    rw [hm] at hmake
    exact acting_switchAccess (hmake.acting hw) ((hunused hswaps).kept hmake) m _ _ _ _

/-! ### Runs -/

/-- A client may be deleted. -/
theorem acting_deleteClient (hw : Acting w) (u : String) (env : Ref → StopEnv)
    (refused : Option PyExc) : Acting ((deleteClient S u env refused).exec w).2 := by
  have hforget (w : World L) (c : Ref) : PointersKept w
      { w with clientCache := Function.update w.clientCache (w.clients.get c).id none } :=
    { PointersKept.refl w with
      clientCache := fun v q hq => by
        replace hq : Function.update w.clientCache (w.clients.get c).id none v = some q := hq
        by_cases hv : v = (w.clients.get c).id
        · rw [hv, Function.update_self] at hq
          cases hq
        · rw [Function.update_of_ne hv] at hq
          exact .inl hq }
  have hdelete (c : Ref) : Keeps (Acts L c) (delete c refused) := by
    refine keeps_bind (acts_of_kept (hforget · c)) fun _ => keeps_bind (keeps_raiseIf _) fun _ => ?_
    exact acts_of_kept (acts_modify (fun _ => rfl) (fun _ => rfl) (fun _ => rfl) (fun _ => rfl)
      fun _ => rfl)
  obtain ⟨r, w₁, he, hcache, hcases⟩ := exec_deleteClient_cases (S := S) u env refused w
  have hw₁ := (pointersKept_get (S := S) u none none none w).acting hw
  rw [he] at hw₁
  rcases hcases with hend | ⟨c, hr, -, hend⟩ <;> rw [hend]
  · exact hw₁
  · have hstop : Keeps (Acts L c) (when (w₁.clients.get c).started (stop c env) : Action L Unit) :=
      keeps_when ((admits_acts (S := S) c).stop env)
    exact (keeps_bind hstop (fun _ => hdelete c) w₁
      ⟨hw₁, hw₁.clientCache u c (hcache c hr)⟩).1

/-- The call swaps no Matrix client under a running plugin. -/
def Op.LeavesPlugins (w : World L) : Op → Prop
  | .updateAccessDetails c token homeserver deviceId env =>
    Swaps token homeserver deviceId env (view c w) → Unused c w
  | _ => True

/-- Hence every operation on a client may be called, if it leaves the plugins. -/
theorem acting_exec (hw : Acting w) {op : Op} (hheld : op.Held w) (hop : op.LeavesPlugins w) :
    Acting (op.exec S w) := by
  have hmethod {α : Type} {m : Action L α} {c : Ref} (hc : c < w.clients.next)
      (hm : Keeps (Acts L c) m) : Acting (m.exec w).2 := (hm w ⟨hw, hc⟩).1
  cases op with
  | get u h t d => exact (pointersKept_get u h t d w).acting hw
  | start c n env => exact hmethod (hheld c rfl) ((admits_acts c).start n env)
  | stop c env => exact hmethod (hheld c rfl) ((admits_acts (S := S) c).stop env)
  | updateStarted c b env env' =>
    exact hmethod (hheld c rfl) ((admits_acts c).updateStarted b env env')
  | updateEnabled c b save =>
    exact hmethod (hheld c rfl) ((admits_acts (S := S) c).updateEnabled b save)
  | updateDisplayname c x e p save =>
    exact hmethod (hheld c rfl) ((admits_acts (S := S) c).updateProfile _ (fun _ _ => rfl)
      (fun _ _ => rfl) x e p save)
  | updateAvatarUrl c x e p save =>
    exact hmethod (hheld c rfl) ((admits_acts (S := S) c).updateProfile _ (fun _ _ => rfl)
      (fun _ _ => rfl) x e p save)
  | updateSync c b save => exact hmethod (hheld c rfl) ((admits_acts (S := S) c).updateSync b save)
  | updateAutojoin c b save =>
    exact hmethod (hheld c rfl) ((admits_acts (S := S) c).updateAutojoin b save)
  | updateOnline c b save =>
    exact hmethod (hheld c rfl) ((admits_acts (S := S) c).updateOnline b save)
  | updateAccessDetails c t h d env => exact acting_updateAccessDetails hw t h d env hop
  | clearCache c => exact hmethod (hheld c rfl) (admits_acts (S := S) c).clearCache
  | delete u env refused => exact acting_deleteClient hw u env refused

end Client

section Runs

open PluginInstance

variable {w₀ w : World L}

/-- The caller holds the object, and the call swaps no Matrix client under a running plugin. -/
structure Call.LeavesPlugins (w : World L) (call : Call L) : Prop where
  held   : call.Held w
  leaves : ∀ op, call = .onClient op → op.LeavesPlugins w

/-- Operations on instances do. -/
theorem Call.leavesPlugins_instance {op : PluginInstance.Op}
    (h : (Call.onInstance op).Held w) : (Call.onInstance op).LeavesPlugins w :=
  ⟨h, fun _ hop => by cases hop⟩

/-- At first no plugin object exists. -/
theorem acting_of_startup (h : Startup w) : Acting w where
  client i _ hi := by
    rw [h.instances] at hi
    exact absurd hi (Nat.not_lt_zero i)
  plugin i _ hi := by
    rw [h.instances] at hi
    exact absurd hi (Nat.not_lt_zero i)
  references c _ hc := by
    rw [h.clients] at hc
    exact absurd hc (Nat.not_lt_zero c)
  clientCache _ _ hc := by
    rw [h.clientCache] at hc
    cases hc
  instanceCache _ _ hi := by
    rw [h.instanceCache] at hi
    cases hi
  acts i hi := by
    rw [h.instances] at hi
    exact absurd hi (Nat.not_lt_zero i)

/-- A call of either kind keeps it. -/
theorem Call.acting (hw : Acting w) {call : Call L} (hcall : call.LeavesPlugins w) :
    Acting (call.exec S w) := by
  have hmethod {α : Type} {m : Action L α} {i : Ref} (hi : Live w i)
      (hm : Keeps (.ofInv (Upholding i)) m) : Acting (m.exec w).2 := (hm w ⟨hw, hi.1⟩).1
  cases call with
  | onInstance op => exact acting_op hw hcall.held
  | create k data env => exact acting_createInstance hw k data env
  | updateStarted i b env => exact hmethod hcall.held (upholds_updateStarted b env)
  | updateDbEngine i e =>
    exact hmethod hcall.held
      (upholds_of_pointers (pointers_of_quiet (S := S) (quiet_updateDbEngine i e)))
  | onClient op => exact Client.acting_exec hw hcall.held (hcall.leaves op rfl)
  | loaders ls =>
    have hkept : PointersKept w { w with loaders := ls } := pointersKept_of_eq rfl rfl rfl rfl rfl
    exact hkept.acting hw

/-- **Whose Matrix client plugins act through, over whole runs.**  As long as no access details
    are swapped under a running plugin, the plugin of every started instance has the Matrix
    client that the instance's client has now. -/
theorem acting_of_reach (h₀ : Startup w₀)
    (h : Reach (Call.exec S) Call.LeavesPlugins w₀ w) (i : Ref) (hi : i < w.instances.next)
    (hstarted : (w.instances.get i).started = true) : ActsForClient w i :=
  (h.invariant (acting_of_startup h₀) fun _ _ hw hcall => Call.acting hw hcall).acts i hi hstarted

end Runs

namespace InstanceTest

open PluginInstance

/-- Get the instance `a` and start it. -/
def botRunning : World Unit :=
  Call.exec setup (.onInstance (.start 0 {}))
    (Call.exec setup (.onInstance (.get "a" none none)) startup)

/-- The bot of the witness acts for its client. -/
theorem botRunning_acts : ActsForClient botRunning 0 := by
  have hget : Reach (Call.exec setup) Call.LeavesPlugins startup
      (Call.exec setup (.onInstance (.get "a" none none)) startup) :=
    Reach.step (Call.onInstance (Op.get "a" none none)) .start
      (Call.leavesPlugins_instance (by rintro i ⟨⟩))
  have hstart : Reach (Call.exec setup) Call.LeavesPlugins startup botRunning :=
    Reach.step (Call.onInstance (Op.start 0 {})) hget
      (Call.leavesPlugins_instance (by rintro i ⟨⟩; decide))
  exact acting_of_reach startup_startup hstart 0 (by decide +kernel) (by decide +kernel)

/-- The client of the instance gets a new token while the plugin runs. -/
def newToken : Call Unit :=
  .onClient (.updateAccessDetails 0 (some "other") (some "https://matrix.example.com") none
    { whoami := .ok { userId := "@bot:example.com" } })

/-- The plugin keeps the Matrix client with the old one. -/
theorem newToken_not_acts :
    ¬ ∀ w₀ : World Unit, Startup w₀ → ∀ w,
      Reach (Call.exec setup) (fun w call => call.Held w) w₀ w →
        ∀ i, i < w.instances.next → (w.instances.get i).started = true → ActsForClient w i := by
  intro h
  have hget : Reach (Call.exec setup) (fun w call => call.Held w) startup
      (Call.exec setup (.onInstance (.get "a" none none)) startup) :=
    Reach.step (Call.onInstance (Op.get "a" none none)) .start (by rintro i ⟨⟩)
  have hstart : Reach (Call.exec setup) (fun w call => call.Held w) startup botRunning :=
    Reach.step (Call.onInstance (Op.start 0 {})) hget (by rintro i ⟨⟩; decide)
  have hswap := Reach.step newToken hstart (by rintro c ⟨⟩; decide +kernel)
  obtain ⟨p, c, hp, hc, hpc⟩ := h startup startup_startup _ hswap 0 (by decide +kernel)
    (by decide +kernel)
  have hp' : ((newToken.exec setup botRunning).instances.get 0).plugin = some 0 := by decide +kernel
  have hc' : ((newToken.exec setup botRunning).instances.get 0).client = some 0 := by decide +kernel
  obtain rfl : 0 = p := Option.some.inj (hp'.symm.trans hp)
  obtain rfl : 0 = c := Option.some.inj (hc'.symm.trans hc)
  exact absurd hpc (by decide +kernel)

end InstanceTest

end Maubot
