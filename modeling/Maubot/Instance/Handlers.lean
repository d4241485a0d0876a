import Maubot.Instance.Registrations
import Mathlib.Data.Multiset.Filter

namespace Maubot

open Prog

/-!
# Plugin instances — handlers over runs of starts and stops

* `preparePlugin` — the part of `start` before the plugin runs, with `start_eq`;
* `Tidy` — a call leaves no registrations of a plugin that it gives up;
* `handlers_of_tidy` — in a run of tidy calls the handlers are those of the started plugins.
-/

variable {L : Type} (S : Setup L)

namespace PluginInstance

/-! ### The two parts of a start -/

/-- `start` up to the plugin's `internal_start`: the plugin, if it gets that far. -/
def prepareLoaded (i : Ref) (env : StartEnv) : Action L (Option Ref) := do
  let l ← theLoader i
  let cls ← loadClass S l
  adjustWebapp S i l
  if ← openDatabase S i l env then do
    readConfig i env
    let p ← construct i l cls env
    pure (some p)
  else pure none

def preparePlugin (i : Ref) (env : StartEnv) : Action L (Option Ref) := do
  let w ← world
  if (w.instances.get i).started then pure none
  else if !(w.instances.get i).enabled then pure none
  else if ← dependencies S i then prepareLoaded S i env
  else pure none

/-- `start` after that. -/
def runPlugin (i : Ref) (env : StartEnv) (p : Option Ref) : Action L Unit :=
  match p with
  | some p => startPlugin i p env
  | none   => pure ()

/-- The start of an instance is split before its plugin runs. -/
theorem startLoaded_eq (i : Ref) (env : StartEnv) :
    startLoaded S i env = prepareLoaded S i env >>= runPlugin i env := by
  simp only [startLoaded, prepareLoaded, bind_assoc]
  congr! with l cls _ b
  cases b with
  | false => rfl
  | true => simp only [if_true, bind_assoc]; rfl

/-- The same for `start` as a whole. -/
theorem start_eq (i : Ref) (env : StartEnv) :
    start S i env = preparePlugin S i env >>= runPlugin i env := by
  simp only [start, preparePlugin, bind_assoc]
  congr! with w
  split
  · rfl
  split
  · rfl
  simp only [bind_assoc]
  congr! with b
  cases b with
  | false => rfl
  | true => exact startLoaded_eq S i env

/-! ### Preparing -/

variable {S} {i : Ref} {w w' : World L}

/-- A loader that is set leaves the instance ready. -/
theorem ready_setLoader (l : Option Ref) :
    Keeps (.ofInv (Ready S i)) (setInstance i fun inst => { inst with loader := l }) :=
  fun _ hw => hw.setInstance (fun _ => rfl) (fun _ => rfl) (fun _ => rfl)
    fun c hc => hw.1.client i hw.2.1 c hc

/-- So does the first step of `load`, -/
theorem ready_loadLoader : Keeps (.ofInv (Ready S i)) (loadLoader S i) := by
  refine keeps_bind keeps_get fun w => keeps_ite (keeps_pure true) ?_
  split
  · exact keeps_bind (ready_setLoader _) fun _ => keeps_pure true
  · exact keeps_bind (ready_of_quiet (quiet_report (by simp))) fun _ =>
      keeps_bind (ready_of_quiet (quiet_updateEnabled i _)) fun _ => keeps_pure false

/-- Looking the client up, whose reference is then good. -/
theorem triple_getClient (u : String) :
    Triple (Ready S i) (Client.get S u none none none)
      (fun c w => Ready S i w ∧ ∀ x, c = some x → x < w.clients.next) (Ready S i) := by
  intro w hw
  rcases Client.exec_get (S := S) u w with ⟨c, hc, he⟩ | ⟨row, w', _, _, he, hm⟩ | ⟨_, _, he⟩ <;>
    rw [he]
  · refine ⟨hw, ?_⟩
    rintro x ⟨⟩
    exact hw.1.clientLt u c hc
  · refine ⟨hw.of_made hm, ?_⟩
    rintro x ⟨⟩
    rw [hm.nextClient]
    exact Nat.lt_succ_self _
  · exact ⟨hw, by simp⟩

/-- the second one, also where the client raises, -/
theorem ready_loadClient :
    Triple (Ready S i) (loadClient S i) (fun _ => Ready S i) (Ready S i) := by
  refine triple_get_bind fun w _ => ?_
  split
  · exact triple_pure fun _ h => h.1
  refine ((triple_getClient _).pre fun _ h => h.1).bind fun c => ?_
  refine Triple.bind (Q := fun _ => Ready S i) (fun w h => ?_) fun _ => ?_
  · exact h.1.setInstance (fun _ => rfl) (fun _ => rfl) (fun _ => rfl) h.2
  split
  · exact triple_pure fun _ h => h
  · have hk : Keeps (.ofInv (Ready S i)) (do
        report (.getClient i)
        updateEnabled i (some false)
        pure false : Action L Bool) :=
      keeps_bind (ready_of_quiet (quiet_report (by simp))) fun _ =>
        keeps_bind (ready_of_quiet (quiet_updateEnabled i _)) fun _ => keeps_pure false
    exact hk.triple fun _ _ h => h

/-- and the last. -/
theorem ready_loadReferences : Keeps (.ofInv (Ready S i)) (loadReferences S i) :=
  keeps_bind (ready_of_quiet (quiet_theLoader i)) fun l => keeps_bind keeps_get fun _ =>
    keeps_bind (keeps_when ready_enableWebapp) fun _ => keeps_bind (ready_addToLoader l) fun _ =>
    keeps_bind (ready_of_quiet (quiet_theClient i)) fun c => ready_addToClient c

/-- Hence an instance is ready after `load`. -/
theorem ready_dependencies :
    Triple (Ready S i) (dependencies S i) (fun _ => Ready S i) (Ready S i) := by
  refine triple_get_bind fun w _ => ?_
  split
  · refine Triple.bind ((ready_loadLoader.triple fun _ _ h => h).pre fun _ h => h.1) fun b => ?_
    split
    · refine Triple.bind ready_loadClient fun b => ?_
      split
      · exact Triple.bind (ready_loadReferences.triple fun _ _ h => h) fun _ =>
          triple_pure fun _ h => h
      · exact triple_pure fun _ h => h
    · exact triple_pure fun _ h => h
  · exact triple_pure fun _ h => h.1

/-- The plugin is new: it has registered nothing, and nothing runs it yet. -/
structure Prepared (S : Setup L) (i p : Ref) (w : World L) : Prop where
  ready   : Ready S i w
  plugin  : (w.instances.get i).plugin = some p
  runs    : Running w i
  entries : (w.plugins.get p).handlersAtStartup = []
  unused  : ∀ j < w.instances.next, (w.instances.get j).started = true →
    (w.instances.get j).plugin ≠ some p

/-- The world with one more plugin object. -/
theorem Ready.allocPlugin (hw : Ready S i w) (pl : Plugin) :
    Ready S i { w with plugins := w.plugins.alloc pl } := by
  obtain ⟨hreg, hi, hst⟩ := hw
  refine ⟨?_, hi, hst⟩
  exact
    { hreg.toShape with
      running := fun j hj hs => by
        obtain ⟨p, c, hp, hc, hlt, hpc, hpw⟩ := hreg.running j hj hs
        refine ⟨p, c, hp, hc, Nat.lt_succ_of_lt hlt, ?_, ?_⟩
        · rw [Store.get_alloc_of_lt _ _ hlt, hpc]
        · rw [Store.get_alloc_of_lt _ _ hlt, hpw]
      handlers := fun c hc => by
        refine (hreg.handlers c hc).trans (Finset.sum_congr rfl fun j hj => ?_)
        unfold handlersOf
        by_cases hs : (w.instances.get j).started ∧ (w.instances.get j).client = some c
        · obtain ⟨p, _, hp, _, hlt, _⟩ := hreg.running j (Finset.mem_range.mp hj) hs.1
          rw [if_pos hs, if_pos hs, hp]
          simp only
          rw [Store.get_alloc_of_lt _ _ hlt]
        · rw [if_neg hs, if_neg hs]
      routes := hreg.routes }

/-- The plugin object that `start` makes. -/
def newPlugin (w : World L) (i c l cls : Ref) : Plugin where
  cls
  client := (w.clients.get c).client
  instanceId := (w.instances.get i).id
  config := (w.instances.get i).config
  database := (w.instances.get i).instDb
  loader := l
  webapp := (w.instances.get i).instWebapp
  webappUrl := (w.instances.get i).instWebappUrl

/-- The constructor makes a plugin object without handlers, if it does not raise. -/
theorem exec_construct {c : Ref} (hc : (w.instances.get i).client = some c) (l cls : Ref)
    {env : StartEnv} (henv : env.construct = none) :
    (construct i l cls env).exec w = (.ok w.plugins.next,
      { w with
        plugins := w.plugins.alloc (newPlugin w i c l cls)
        instances := w.instances.modify i fun inst =>
          { inst with plugin := some w.plugins.next } }) := by
  rw [construct, exec_bind_ok (exec_theClient hc), henv]
  simp [raiseIf, setInstance, newPlugin, exec_map]

/-- After it the instance is prepared for that object. -/
theorem triple_construct (l cls : Ref) (env : StartEnv) :
    Triple (Ready S i) (construct i l cls env) (fun p => Prepared S i p) (Ready S i) := by
  intro w hw
  cases hc : (w.instances.get i).client with
  | none =>
    have he : (construct i l cls env).exec w = (.error { cls := .attributeError }, w) :=
      exec_bind_error (by simp [theClient, hc])
    rw [he]
    exact hw
  | some c =>
    cases henv : env.construct with
    | some e =>
      have he : (construct i l cls env).exec w = (.error e, w) := by
        rw [construct, exec_bind_ok (exec_theClient hc), henv]
        exact exec_bind_error rfl
      rw [he]
      exact hw
    | none =>
      rw [exec_construct hc l cls henv]
      -- the plugin is new, and the instance gets it before it counts as started
      have hready := (hw.allocPlugin (newPlugin w i c l cls)).setInstance
        (f := fun inst => { inst with plugin := some w.plugins.next }) (fun _ => rfl)
        (fun _ => rfl) (fun _ => rfl) fun c' hc' => hw.1.client i hw.2.1 c' hc'
      refine ⟨hready, by rw [Store.get_modify_self], ⟨w.plugins.next, c, ?_⟩, ?_, ?_⟩
      · simp [hc, newPlugin]
      · simp [newPlugin]
      · -- no running instance has a plugin that was just made
        intro j hj hs
        rcases eq_or_ne j i with rfl | hji
        · rw [Store.get_modify_self] at hs
          rw [hw.2.2] at hs
          cases hs
        · rw [Store.get_modify_ne _ _ hji] at hs ⊢
          obtain ⟨p, _, hp, _, hlt, _⟩ := hw.1.running j hj hs
          rw [hp]
          exact fun he => Nat.ne_of_lt hlt (Option.some.inj he)

/-- After the first part of `start` it is prepared, or nothing is registered. -/
theorem triple_preparePlugin (env : StartEnv)  :
    Triple (fun w => Registrations S w ∧ i < w.instances.next) (preparePlugin S i env)
      (fun r w => match r with
        | some p => Prepared S i p w
        | none   => Registrations S w) (Registrations S) := by
  refine triple_get_bind fun w₀ hw₀ => ?_
  by_cases hst : (w₀.instances.get i).started = true
  · rw [if_pos hst]
    exact triple_pure fun _ h => h.1.1
  rw [if_neg hst]
  split
  · exact triple_pure fun _ h => h.1.1
  -- from here on the instance is known to be stopped
  have hready : Triple (Ready S i) (do
      if ← dependencies S i then prepareLoaded S i env
      else pure none : Action L (Option Ref))
      (fun r w => match r with
        | some p => Prepared S i p w
        | none   => Ready S i w) (Ready S i) := by
    refine Triple.bind ready_dependencies fun b => ?_
    cases b with
    | false => exact triple_pure fun _ h => h
    | true =>
      refine ((ready_of_quiet (quiet_theLoader i)).triple fun _ _ h => h).bind fun l => ?_
      refine ((ready_of_quiet (quiet_loadClass l)).triple fun _ _ h => h).bind fun cls => ?_
      -- the web app comes or goes before there is a plugin
      have hadjust : Keeps (.ofInv (Ready S i)) (adjustWebapp S i l) :=
        keeps_bind keeps_get fun _ =>
          keeps_ite ready_enableWebapp (keeps_ite ready_disableWebapp (keeps_pure ()))
      refine (hadjust.triple fun _ _ h => h).bind fun _ => ?_
      refine ((ready_of_quiet (quiet_openDatabase i l env)).triple fun _ _ h => h).bind fun b => ?_
      cases b with
      | false => exact triple_pure fun _ h => h
      | true =>
        refine ((ready_of_quiet (quiet_readConfig i env)).triple fun _ _ h => h).bind fun _ => ?_
        exact (triple_construct l cls env).bind fun p => triple_pure fun _ h => h
  refine (hready.pre ?_).post ?_ fun _ h => h.1
  · rintro w ⟨hw, rfl⟩
    exact ⟨hw.1, hw.2, by simpa using hst⟩
  · intro r w h
    cases r with
    | none => exact h.1
    | some p => exact h

/-! ### Running -/

/-- Where one summand changes. -/
theorem sum_change {M : Type} [AddCommMonoid M] {f g : Ref → M} {n i : Ref} (hi : i < n)
    (h : ∀ j, j ≠ i → g j = f j) :
    ∑ j ∈ Finset.range n, g j + f i = ∑ j ∈ Finset.range n, f j + g i := by
  have hmem := Finset.mem_range.mpr hi
  rw [← Finset.add_sum_erase _ g hmem, ← Finset.add_sum_erase _ f hmem,
    Finset.sum_congr rfl fun j hj => h j (Finset.ne_of_mem_erase hj)]
  exact (add_right_comm (g i) _ (f i)).trans ((add_comm _ _).trans (by ac_rfl))

/-- Handlers that are registered change no other part of the world. -/
theorem SameShape.of_registered {p : Ref} {s : List Plugin.Step}
    (h : Plugin.Registered p s w w') : SameShape w w' where
  next := h.next
  instanceCache := h.instanceCache
  id i := (congrArg PluginInstance.id (h.core i) :)
  client i := (congrArg PluginInstance.client (h.core i) :)
  instWebapp i := (congrArg PluginInstance.instWebapp (h.core i) :)
  nextClient := by rw [h.clients]
  matrix c := by rw [h.clients]
  clientCache := h.clientCache
  matrixClients := h.matrixClients
  pluginRoutes := h.pluginRoutes
  nextHandlers := h.nextHandlers
  nextPlugin := h.nextPlugin
  nextWebapp := h.nextWebapp

/-- Nothing registered. -/
theorem SameRegistrations.of_registered {p : Ref} (h : Plugin.Registered p [] w w') :
    SameRegistrations w w' where
  toSameShape := .of_registered h
  started i := (congrArg PluginInstance.started (h.core i) :)
  plugin i _ := (congrArg PluginInstance.plugin (h.core i) :)
  plugins q := by
    rcases eq_or_ne q p with rfl | hq
    · simpa using h.plugin
    · exact h.others q hq
  handlers d := by
    rw [h.handlers]
    simp
  routes app := by
    rw [h.webapps]
    simp

/-- The plugin of one instance has registered or given up handlers and routes, and the
    handlers on the clients have changed by just these. -/
structure OneChanged (i : Ref) (w w' : World L) : Prop extends SameShape w w' where
  started  : ∀ j, j ≠ i → (w'.instances.get j).started = (w.instances.get j).started
  plugin   : ∀ j, j ≠ i → (w'.instances.get j).plugin = (w.instances.get j).plugin
  plugins  : ∀ j < w.instances.next, j ≠ i → (w.instances.get j).started = true →
    ∀ q, (w.instances.get j).plugin = some q → w'.plugins.get q = w.plugins.get q
  running  : (w'.instances.get i).started = true → Running w' i
  handlers : ∀ c < w.clients.next,
    handlersOn w' c + handlersOf w c i = handlersOn w c + handlersOf w' c i
  routes   : ∀ app, (w.instances.get i).instWebapp ≠ some app →
    (w'.webapps.get app).routes = (w.webapps.get app).routes
  cleared  : (w'.instances.get i).started = false →
    ∀ app, (w.instances.get i).instWebapp = some app → (w'.webapps.get app).routes = []

/-- The handlers of the other instances stay. -/
theorem OneChanged.handlersOf (h : OneChanged i w w') {j : Ref} (hj : j < w.instances.next)
    (hji : j ≠ i) (c : Ref) : handlersOf w' c j = handlersOf w c j := by
  unfold PluginInstance.handlersOf
  rw [h.started j hji, h.client j, h.plugin j hji]
  split
  · rename_i hs
    cases hp : (w.instances.get j).plugin with
    | none => rfl
    | some q =>
      simp only
      rw [h.plugins j hj hji hs.1 q hp]
  · rfl

/-- So if one instance is right afterwards, all are. -/
theorem Registrations.of_oneChanged (hw : Registrations S w) (hi : i < w.instances.next)
    (h : OneChanged i w w') : Registrations S w' where
  toShape := hw.toShape.of_same h.toSameShape
  running j hj hs := by
    rcases eq_or_ne j i with rfl | hji
    · exact h.running hs
    · rw [h.started j hji] at hs
      obtain ⟨p, c, hp, hc, hlt, hpc, hpw⟩ := hw.running j (h.next ▸ hj) hs
      refine ⟨p, c, (h.plugin j hji).trans hp, (h.client j).trans hc, h.nextPlugin ▸ hlt, ?_, ?_⟩
      · rw [h.plugins j (h.next ▸ hj) hji hs p hp, h.matrix, hpc]
      · rw [h.plugins j (h.next ▸ hj) hji hs p hp, h.instWebapp, hpw]
  handlers c hc := by
    rw [h.next]
    have hsum := sum_change (f := fun j => PluginInstance.handlersOf w c j)
      (g := fun j => if j < w.instances.next then PluginInstance.handlersOf w' c j
        else PluginInstance.handlersOf w c j) hi fun j hji => by
          split
          · exact h.handlersOf ‹_› hji c
          · rfl
    rw [Finset.sum_congr rfl fun j hj => if_pos (Finset.mem_range.mp hj), if_pos hi] at hsum
    have hon := h.handlers c (h.nextClient ▸ hc)
    rw [hw.handlers c (h.nextClient ▸ hc), ← hsum] at hon
    exact add_right_cancel hon
  routes j hj hs app happ := by
    rw [h.instWebapp] at happ
    rcases eq_or_ne j i with rfl | hji
    · exact h.cleared hs app happ
    · rw [h.routes app fun he => hji (hw.webapp_inj (h.next ▸ hj) hi happ he)]
      exact hw.routes j (h.next ▸ hj) (h.started j hji ▸ hs) app happ

/-- A started instance has the handlers of its plugin object, at its client. -/
theorem handlersOf_of_started {p c c' : Ref} (hs : (w.instances.get i).started = true)
    (hp : (w.instances.get i).plugin = some p) (hc : (w.instances.get i).client = some c) :
    PluginInstance.handlersOf w c' i = if c' = c then ↑(w.plugins.get p).entries else 0 := by
  unfold PluginInstance.handlersOf
  rw [hs, hc, hp]
  simp [eq_comm]

/-- Two such steps are one. -/
theorem SameShape.trans {w'' : World L} (h : SameShape w w') (h' : SameShape w' w'') :
    SameShape w w'' where
  next := h'.next.trans h.next
  instanceCache := h'.instanceCache.trans h.instanceCache
  id i := (h'.id i).trans (h.id i)
  client i := (h'.client i).trans (h.client i)
  instWebapp i := (h'.instWebapp i).trans (h.instWebapp i)
  nextClient := h'.nextClient.trans h.nextClient
  matrix c := (h'.matrix c).trans (h.matrix c)
  clientCache := h'.clientCache.trans h.clientCache
  matrixClients := h'.matrixClients.trans h.matrixClients
  pluginRoutes := h'.pluginRoutes.trans h.pluginRoutes
  nextHandlers := h'.nextHandlers.trans h.nextHandlers
  nextPlugin := h'.nextPlugin.trans h.nextPlugin
  nextWebapp := h'.nextWebapp.trans h.nextWebapp

/-- A field besides id, client and web app may be set. -/
theorem SameShape.setInstance (w : World L) (i : Ref) {f : PluginInstance → PluginInstance}
    (hid : ∀ inst, (f inst).id = inst.id) (hclient : ∀ inst, (f inst).client = inst.client)
    (hwebapp : ∀ inst, (f inst).instWebapp = inst.instWebapp) :
    SameShape w { w with instances := w.instances.modify i f } :=
  { (SameRegistrations.refl w).toSameShape with
    id := Store.view_modify w.instances i f PluginInstance.id hid
    client := Store.view_modify w.instances i f PluginInstance.client hclient
    instWebapp := Store.view_modify w.instances i f PluginInstance.instWebapp hwebapp }

/-- Everything the plugin registered is there once the instance counts as started. -/
theorem Prepared.oneChanged {p : Ref} {s : List Plugin.Step} (hw : Prepared S i p w)
    (h : Plugin.Registered p s w w') :
    OneChanged i w { w' with instances := w'.instances.modify i fun inst =>
      { inst with started := true } } := by
  obtain ⟨⟨hreg, hi, hst⟩, hplugin, ⟨p', c, hp', hc, hlt, hpc, hpw⟩, hentries, hunused⟩ := hw
  obtain rfl : p' = p := Option.some.inj (hp'.symm.trans hplugin)
  have hshape := (SameShape.of_registered h).trans (.setInstance w' i
    (f := fun inst => { inst with started := true }) (fun _ => rfl) (fun _ => rfl) fun _ => rfl)
  set w'' : World L := { w' with instances := w'.instances.modify i fun inst =>
    { inst with started := true } } with hw''
  have hclt := hreg.client i hi c hc
  have hdictc : (w.matrixClients.get (w.plugins.get p').client).eventHandlers = dictOf w c := by
    rw [hpc]
    rfl
  have hne (j : Ref) (hj : j ≠ i) : w''.instances.get j = w'.instances.get j := by
    rw [hw'', Store.get_modify_ne _ _ hj]
  have hself : w''.instances.get i = { w'.instances.get i with started := true } := by
    rw [hw'', Store.get_modify_self]
  have hplugin' : (w''.instances.get i).plugin = some p' := by
    rw [hself]
    exact (congrArg PluginInstance.plugin (h.core i)).trans hplugin
  have hclient' : (w''.instances.get i).client = some c := (hshape.client i).trans hc
  -- the plugin had no entries before, so those of the run are all it has
  have hentries' : (w''.plugins.get p').entries =
      (Plugin.events s).map Plugin.handlerEntry := by
    show (w'.plugins.get p').entries = _
    rw [h.plugin, Plugin.entries, hentries, List.nil_append, List.map_map]
    rfl
  exact
    { toSameShape := hshape
      started := fun j hj => by
        rw [hne j hj]
        exact (congrArg PluginInstance.started (h.core j) :)
      plugin := fun j hj => by
        rw [hne j hj]
        exact (congrArg PluginInstance.plugin (h.core j) :)
      plugins := fun j hj hji hs q hq =>
        h.others q fun he => hunused j hj hs (he ▸ hq)
      running := fun _ => by
        refine ⟨p', c, hplugin', hclient', h.nextPlugin ▸ hlt, ?_, ?_⟩
        · show (w'.plugins.get p').client = _
          rw [h.plugin, hshape.matrix]
          exact hpc
        · show (w'.plugins.get p').webapp = _
          rw [h.plugin, hshape.instWebapp]
          exact hpw
      handlers := fun c' hc' => by
        rw [handlersOf_of_not_started hst, add_zero,
          handlersOf_of_started (by rw [hself]) hplugin' hclient', hentries', handlersOn,
          hshape.dictOf]
        show (↑(pluginEntries (w'.eventHandlers.get (dictOf w c'))) :
          Multiset (EventType × Handler)) = _
        rw [h.handlers, hdictc]
        by_cases hcc : c' = c
        · subst hcc
          rw [if_pos rfl, if_pos rfl, handlersOn, Multiset.coe_add, pluginEntries,
            List.filter_append]
          congr 2
          refine List.filter_eq_self.mpr fun x hx => ?_
          obtain ⟨y, _, rfl⟩ := List.mem_map.mp hx
          rfl
        · have hdict : dictOf w c' ≠ dictOf w c := fun he =>
            hcc (hreg.dictInj c' hc' c hclt he)
          rw [if_neg hcc, if_neg hdict, add_zero, handlersOn]
      routes := fun app happ => by
        show (w'.webapps.get app).routes = _
        rw [h.webapps, hpw, if_neg happ]
      cleared := fun hs => by
        rw [hself] at hs
        cases hs }

/-! ### Stopping -/

/-- Handlers that are removed one by one are all gone. -/
theorem exec_forM_removeEventHandler (m : Ref) (hs : List (Handler × EventType)) (w : World L) :
    (hs.forM fun h => removeEventHandler m h.2 h.1 : Action L Unit).exec w = (.ok (),
      { w with
        eventHandlers := w.eventHandlers.modify (w.matrixClients.get m).eventHandlers
          fun l => l.diff (hs.map fun h => (h.2, h.1)) }) := by
  induction hs generalizing w with
  | nil => simp [Store.modify_id]
  | cons h hs ih =>
    show (removeEventHandler m h.2 h.1 >>= fun _ => hs.forM _).exec w = _
    rw [removeEventHandler, exec_modify_bind, ih]
    simp [Store.modify_modify, List.diff_cons]

/-- The world after the instance's plugin gave up all that it registered. -/
def stopped (i p : Ref) (w : World L) : World L :=
  let d := (w.matrixClients.get (w.plugins.get p).client).eventHandlers
  { w with
    instances := w.instances.modify i fun inst => { inst with started := false }
    eventHandlers := w.eventHandlers.modify d (·.diff (w.plugins.get p).entries)
    webapps := match (w.plugins.get p).webapp with
      | none     => w.webapps
      | some app => w.webapps.modify app fun a => { a with routes := [] } }

/-- The handlers of an instance are among those of the client. -/
theorem handlersOf_le (hw : Registrations S w) (hi : i < w.instances.next) {c : Ref}
    (hc : c < w.clients.next) : handlersOf w c i ≤ handlersOn w c := by
  rw [hw.handlers c hc, ← Finset.add_sum_erase _ _ (Finset.mem_range.mpr hi)]
  exact Multiset.le_add_right _ _

/-- Of the handlers of plugins those of a plugin are taken, and no others. -/
theorem pluginEntries_diff {es : List (EventType × Handler)} (hes : pluginEntries es = es)
    (l : List (EventType × Handler)) :
    (↑(pluginEntries (l.diff es)) : Multiset (EventType × Handler)) =
      (↑(pluginEntries l) : Multiset (EventType × Handler)) - ↑es := by
  conv_rhs => rw [← hes]
  have hsub := Multiset.filter_sub (fun x : EventType × Handler => x.2.isPlugin = true) ↑l ↑es
  simp only [Multiset.coe_sub, Multiset.filter_coe, Bool.decide_eq_true] at hsub
  rw [lawful_beq_subsingleton instBEqProd instBEqOfDecidableEq]
  exact hsub

/-- A stopped plugin object has no routes. -/
theorem routes_stopped (i p app : Ref) (w : World L) :
    ((stopped i p w).webapps.get app).routes =
      if (w.plugins.get p).webapp = some app then [] else (w.webapps.get app).routes := by
  unfold stopped
  cases (w.plugins.get p).webapp with
  | none => simp
  | some a =>
    simp only [Store.get_modify, Option.some.injEq, eq_comm (a := a)]
    split <;> rfl

/-- The stop changes no other instance. -/
theorem oneChanged_stopped {p : Ref} (hw : Registrations S w) (hi : i < w.instances.next)
    (hs : (w.instances.get i).started = true) (hp : (w.instances.get i).plugin = some p) :
    OneChanged i w (stopped i p w) := by
  obtain ⟨p', c, hp', hc, hlt, hpc, hpw⟩ := hw.running i hi hs
  obtain rfl : p' = p := Option.some.inj (hp'.symm.trans hp)
  have hclt := hw.client i hi c hc
  have hdictc : (w.matrixClients.get (w.plugins.get p').client).eventHandlers = dictOf w c := by
    rw [hpc]
    rfl
  have hstarted : ((stopped i p' w).instances.get i).started = false := by
    rw [stopped, Store.get_modify_self]
  have hne (j : Ref) (hj : j ≠ i) : (stopped i p' w).instances.get j = w.instances.get j := by
    rw [stopped, Store.get_modify_ne _ _ hj]
  have hset := SameShape.setInstance w i (f := fun inst => { inst with started := false })
    (fun _ => rfl) (fun _ => rfl) fun _ => rfl
  have hshape : SameShape w (stopped i p' w) :=
    { hset with
      nextWebapp := by
        unfold stopped
        cases (w.plugins.get p').webapp <;> rfl }
  exact
    { toSameShape := hshape
      started := fun j hj => by rw [hne j hj]
      plugin := fun j hj => by rw [hne j hj]
      plugins := fun _ _ _ _ _ _ => rfl
      running := fun h => by
        rw [hstarted] at h
        cases h
      handlers := fun c' hc' => by
        rw [handlersOf_of_not_started hstarted, add_zero, handlersOf_of_started hs hp hc]
        unfold handlersOn
        rw [hshape.dictOf, stopped, Store.get_modify, hdictc]
        by_cases hcc : c' = c
        · subst hcc
          rw [if_pos rfl, if_pos rfl]
          -- the plugin's handlers are among those on the client
          have hle := handlersOf_le hw hi hc'
          rw [handlersOf_of_started hs hp hc, if_pos rfl, handlersOn] at hle
          have hfilter : pluginEntries (w.plugins.get p').entries = (w.plugins.get p').entries :=
            List.filter_eq_self.mpr fun x hx =>
              (List.mem_filter.mp (Multiset.mem_of_le hle (Multiset.mem_coe.mpr hx))).2
          rw [pluginEntries_diff hfilter]
          exact tsub_add_cancel_of_le hle
        · have hdict : dictOf w c' ≠ dictOf w c := fun he =>
            hcc (hw.dictInj c' hc' c hclt he)
          rw [if_neg hcc, if_neg hdict, add_zero]
      routes := fun app happ => by rw [routes_stopped, hpw, if_neg happ]
      cleared := fun _ app happ => by rw [routes_stopped, hpw, if_pos happ] }

/-- The plugin has nothing registered. -/
def Bare (w : World L) (p : Ref) : Prop :=
  (w.plugins.get p).handlersAtStartup = [] ∧
    ∀ app, (w.plugins.get p).webapp = some app → (w.webapps.get app).routes = []

/-- The stop of the plugin object removes its handlers, -/
theorem exec_removeHandlers (i p : Ref) (w : World L) :
    (Plugin.removeHandlers p).exec w =
      (.ok (), { w with eventHandlers := (stopped i p w).eventHandlers }) := by
  rw [Plugin.removeHandlers, exec_get_bind, exec_forM_removeEventHandler]
  rfl

/-- and clears its web app. -/
theorem exec_clearWebapp (i p : Ref) (w : World L) :
    (Plugin.clearWebapp p).exec w = (.ok (), { w with webapps := (stopped i p w).webapps }) := by
  rw [Plugin.clearWebapp, exec_get_bind]
  unfold stopped
  cases (w.plugins.get p).webapp <;> rfl

/-- `internal_stop` takes back what was registered unless `pre_stop` raises. -/
theorem exec_internalStop (i p : Ref) (stop : Option PyExc) (w : World L) :
    ((Plugin.internalStop p none stop).exec w).2 =
      { w with
        eventHandlers := (stopped i p w).eventHandlers
        webapps := (stopped i p w).webapps } := by
  rw [Plugin.internalStop, exec_bind_ok (exec_raiseIf_none w),
    exec_bind_ok (exec_removeHandlers i p w), exec_bind_ok (exec_clearWebapp i p _)]
  cases stop <;> rfl

/-- Where `pre_stop` raises it does neither. -/
theorem exec_internalStop_some (p : Ref) (e : PyExc) (stop : Option PyExc) (w : World L) :
    (Plugin.internalStop p (some e) stop).exec w = (.error e, w) :=
  exec_bind_error rfl

/-- With nothing registered there is nothing to give up. -/
theorem stopped_of_bare {p : Ref} (h : Bare w p) :
    SameRegistrations (stopped i p w)
      { w with instances := w.instances.modify i fun inst => { inst with started := false } } := by
  have hentries : (w.plugins.get p).entries = [] := by rw [Plugin.entries, h.1]; rfl
  refine { SameRegistrations.refl (stopped i p w) with
    nextWebapp := ?_, handlers := fun d => ?_, routes := fun app => ?_ }
  · unfold stopped
    cases (w.plugins.get p).webapp <;> rfl
  · rw [stopped, hentries]
    simp [Store.modify_id]
  · unfold stopped
    cases hwebapp : (w.plugins.get p).webapp with
    | none => rfl
    | some a =>
      rw [Store.get_modify]
      split
      · rename_i ha
        rw [ha]
        exact h.2 a hwebapp
      · rfl

/-- An exception that is logged changes no registrations. -/
theorem exec_logged (x : Failure) (m : Action L Unit) (w : World L) :
    SameRegistrations (m.exec w).2 ((logged x m).exec w).2 := by
  rw [logged, exec_bind, exec_attempt]
  rcases m.exec w with ⟨e | _, w'⟩
  · by_cases he : e.isException = true
    · simp only [he, if_true]
      exact { SameRegistrations.refl w' with }
    · simp only [he]
      exact .refl w'
  · exact .refl w'

/-! ### Tidy calls -/

/-- The script of a start registers nothing if it fails. -/
def Plugin.TidyScript (s : List Plugin.Step) : Prop :=
  Plugin.raised s = none ∨ Plugin.done s = []

/-- The call leaves no registrations behind: a plugin whose hooks raise in `internal_start`
    has registered nothing before, and one whose `pre_stop` raises has nothing registered. -/
def Op.Tidy (S : Setup L) (w : World L) : Op → Prop
  | .start i env => ∀ p w', (preparePlugin S i env).exec w = (.ok (some p), w') →
    Plugin.TidyScript (env.script (w'.plugins.get p).webapp.isSome)
  | .stop i env  => (w.instances.get i).started = true → env.preStop = none ∨
    ∀ p, (w.instances.get i).plugin = some p → Bare w p
  | _            => True

/-- Looking instances up, starting and stopping them, and toggling `enabled`. -/
def Op.IsCall : Op → Prop
  | .get ..           => True
  | .start ..         => True
  | .stop ..          => True
  | .updateEnabled .. => True
  | _                 => False

/-- A tidy start of a prepared object registers what it has. -/
theorem Registrations.startPlugin {p : Ref} {env : StartEnv} (hw : Prepared S i p w)
    (h : Plugin.TidyScript (env.script (w.plugins.get p).webapp.isSome)) :
    Registrations S ((startPlugin i p env).exec w).2 := by
  obtain ⟨w', he, hreg⟩ := Plugin.performs_internalStart S i env w rfl
  rw [PluginInstance.startPlugin, exec_bind, exec_attempt, he]
  unfold Plugin.ending
  cases hr : Plugin.raised (env.script (w.plugins.get p).webapp.isSome) with
  | none => exact hw.ready.1.of_oneChanged hw.ready.2.1 (hw.oneChanged hreg)
  | some e =>
    -- nothing was registered, so whatever the failure changes does not matter
    rw [h.resolve_left (by simp [hr])] at hreg
    have hw' : Ready S i w' := hw.ready.of_same (.of_registered hreg)
    have hfail : Keeps (.ofInv (Ready S i)) (do
        report (.startInstance i)
        updateEnabled i (some false) : Action L Unit) :=
      keeps_bind (ready_of_quiet (quiet_report (by simp))) fun _ =>
        ready_of_quiet (quiet_updateEnabled i _)
    by_cases hex : e.isException = true
    · simp only [hex, if_true]
      exact (hfail w' hw').1
    · simp only [hex]
      exact hw'.1

/-- So a tidy start of an instance keeps the registrations right. -/
theorem Registrations.start {env : StartEnv} (hw : Registrations S w)
    (hi : i < w.instances.next) (h : (Op.start i env).Tidy S w) :
    Registrations S ((start S i env).exec w).2 := by
  rw [start_eq]
  have hprep := triple_preparePlugin (S := S) (i := i) env w ⟨hw, hi⟩
  rcases hr : (preparePlugin S i env).exec w with ⟨e | p, w'⟩ <;> rw [hr] at hprep
  · rwa [exec_bind_error hr]
  · rw [exec_bind_ok hr]
    cases p with
    | none => exact hprep
    | some p => exact .startPlugin hprep (h p w' hr)

/-- A tidy stop of its plugin leaves the instance ready. -/
theorem ready_stopPlugin {env : StopEnv} (hw : Registrations S w) (hi : i < w.instances.next)
    (hs : (w.instances.get i).started = true) (h : (Op.stop i env).Tidy S w) :
    Ready S i ((stopPlugin i env).exec { w with instances := w.instances.modify i fun inst =>
      { inst with started := false } }).2 := by
  obtain ⟨p, c, hp, _⟩ := hw.running i hi hs
  have hstopped : Ready S i (stopped i p w) :=
    ⟨hw.of_oneChanged hi (oneChanged_stopped hw hi hs hp), hi, by
      rw [stopped, Store.get_modify_self]⟩
  set w₁ : World L := { w with instances := w.instances.modify i fun inst =>
    { inst with started := false } } with hw₁
  have hp₁ : (w₁.instances.get i).plugin = some p := by
    rw [hw₁, Store.get_modify_self]
    exact hp
  have he : (stopPlugin i env).exec w₁ = (Plugin.internalStop p env.preStop env.stop).exec w₁ := by
    rw [stopPlugin, exec_get_bind, hp₁]
  rw [he]
  cases hpre : env.preStop with
  | none =>
    rw [exec_internalStop i]
    exact hstopped.of_same (.refl (stopped i p w))
  | some e =>
    rw [exec_internalStop_some]
    exact hstopped.of_same (stopped_of_bare ((h hs).resolve_left (by simp [hpre]) p hp))

/-- So a tidy stop keeps the registrations right. -/
theorem Registrations.stop {env : StopEnv} (hw : Registrations S w)
    (hi : i < w.instances.next) (h : (Op.stop i env).Tidy S w) :
    Registrations S ((stop i env).exec w).2 := by
  rw [PluginInstance.stop, exec_get_bind]
  by_cases hs : (w.instances.get i).started = true
  · rw [if_pos hs, exec_setInstance_bind]
    have hready : Ready S i ((logged (.stopInstance i) (stopPlugin i env)).exec
        ((setInstance i fun inst => { inst with started := false } : Action L Unit).exec w).2).2 :=
      (ready_stopPlugin hw hi hs h).of_same (exec_logged (.stopInstance i) _ _)
    have hrest : Keeps (.ofInv (Ready S i)) (do
        setInstance i fun inst => { inst with plugin := none }
        closeDatabase i env : Action L Unit) :=
      keeps_bind (fun w hw => hw.setInstance (fun _ => rfl) (fun _ => rfl) (fun _ => rfl)
        fun c hc => hw.1.client i hw.2.1 c hc) fun _ => ready_of_quiet (quiet_closeDatabase i env)
    rw [exec_bind]
    rcases hr : (logged (.stopInstance i) (stopPlugin i env)).exec
      ((setInstance i fun inst => { inst with started := false } : Action L Unit).exec w).2
      with ⟨e | _, w'⟩
    · rw [hr] at hready
      exact hready.1
    · rw [hr] at hready
      exact (hrest w' hready).1
  · rw [if_neg hs]
    exact hw

/-! ### Runs -/

/-- A new object stands for an id that no instance has. -/
theorem Registrations.fromRow (hw : Registrations S w) {id : String}
    (hid : w.instanceCache id = none) (row : InstanceRow) :
    Registrations S ((PluginInstance.fromRow id row).exec w).2 := by
  have hrouted := hw.toShape.routed.fromRow hid row
  set w' := ((PluginInstance.fromRow id row).exec w).2
  have hnext : w'.instances.next = w.instances.next + 1 := rfl
  have hold (i : Ref) (hi : i < w.instances.next) : w'.instances.get i = w.instances.get i :=
    Store.get_alloc_of_lt w.instances _ hi
  -- the new instance has no client, no web app and no plugin
  have hnew : (w'.instances.get w.instances.next).client = none ∧
      (w'.instances.get w.instances.next).instWebapp = none ∧
      (w'.instances.get w.instances.next).started = false := by
    rw [show w'.instances.get w.instances.next = _ from Store.get_alloc_self w.instances _]
    exact ⟨rfl, rfl, rfl⟩
  have hcases {i : Ref} (hi : i < w'.instances.next) :
      i < w.instances.next ∨ i = w.instances.next :=
    Nat.lt_succ_iff_lt_or_eq.mp hi
  exact
    { hw.toShape with
      cached := hrouted.cached
      client := fun i hi c hc => by
        rcases hcases hi with hlt | rfl
        · exact hw.client i hlt c (hold i hlt ▸ hc)
        · rw [hnew.1] at hc
          cases hc
      webapp := hrouted.webapp
      routeKey := hrouted.routeKey
      running := fun i hi hs => by
        rcases hcases hi with hlt | rfl
        · rw [hold i hlt] at hs
          have := hw.running i hlt hs
          unfold Running at this ⊢
          rwa [hold i hlt]
        · rw [hnew.2.2] at hs
          cases hs
      -- so it adds nothing to the sum
      handlers := fun c hc => by
        rw [hnext, Finset.sum_range_succ, handlersOf_of_not_started hnew.2.2, add_zero]
        refine (hw.handlers c hc).trans (Finset.sum_congr rfl fun i hi => ?_)
        unfold handlersOf
        rw [hold i (Finset.mem_range.mp hi)]
        rfl
      routes := fun i hi hs app happ => by
        rcases hcases hi with hlt | rfl
        · rw [hold i hlt] at hs happ
          exact hw.routes i hlt hs app happ
        · rw [hnew.2.1] at happ
          cases happ }

/-- An instance that is looked up or made registers nothing. -/
theorem Registrations.get (hw : Registrations S w) (id : String) (type user : Option String) :
    Registrations S ((get id type user).exec w).2 := by
  rcases exec_get_cases id type user w with he | ⟨row, hc, _, he⟩ | ⟨row, hc, -, -, he⟩ <;> rw [he]
  · exact hw
  · exact hw.fromRow hc row
  · have hrow : Registrations S
        { w with instanceRows := Function.update w.instanceRows id (some row) } :=
      hw.of_same { SameRegistrations.refl w with }
    exact hrow.fromRow hc row

/-- A call keeps the invariant. -/
theorem Registrations.exec (hw : Registrations S w) {op : Op} (hcall : op.IsCall)
    (hheld : op.Held w) (h : op.Tidy S w) : Registrations S (op.exec S w) := by
  cases op with
  | get id t u => exact hw.get id t u
  | start i env => exact hw.start (hheld i rfl).1 h
  | stop i env => exact hw.stop (hheld i rfl).1 h
  | updateEnabled i e => exact hw.of_same (.of_unchanged (quiet_updateEnabled (S := S) i e w))
  | _ => cases hcall

/-- The program has just started and serves no web apps. -/
structure Idle (w : World L) : Prop extends Startup w where
  pluginRoutes : w.pluginRoutes = fun _ => none

/-- At first nothing is registered. -/
theorem Idle.registrations (h : Idle w) : Registrations S w where
  cached i hi := absurd hi (by rw [h.instances]; exact Nat.not_lt_zero i)
  client i hi := absurd hi (by rw [h.instances]; exact Nat.not_lt_zero i)
  clientLt u c hc := by
    rw [h.clientCache] at hc
    cases hc
  matrixLt c hc := absurd hc (by rw [h.clients]; exact Nat.not_lt_zero c)
  dictLt c hc := absurd hc (by rw [h.clients]; exact Nat.not_lt_zero c)
  dictInj c hc := absurd hc (by rw [h.clients]; exact Nat.not_lt_zero c)
  webapp i hi := absurd hi (by rw [h.instances]; exact Nat.not_lt_zero i)
  routeKey k app hk := by
    rw [h.pluginRoutes] at hk
    cases hk
  routeLt k app hk := by
    rw [h.pluginRoutes] at hk
    cases hk
  routeInj k k' app hk := by
    rw [h.pluginRoutes] at hk
    cases hk
  running i hi := absurd hi (by rw [h.instances]; exact Nat.not_lt_zero i)
  handlers c hc := absurd hc (by rw [h.clients]; exact Nat.not_lt_zero c)
  routes i hi := absurd hi (by rw [h.instances]; exact Nat.not_lt_zero i)

/-- **Handlers and routes.**  In every run of tidy calls, the handlers on each client are
    those of the plugins started on it, and an instance that is not started has no routes. -/
theorem handlers_of_tidy {w₀ : World L} (h₀ : Idle w₀)
    (h : Reach (Op.exec S) (fun w op => op.IsCall ∧ op.Held w ∧ op.Tidy S w) w₀ w) :
    ExactHandlers w ∧ ClearRoutes w := by
  have hw : Registrations S w :=
    h.invariant h₀.registrations fun _ op hw hop => hw.exec hop.1 hop.2.1 hop.2.2
  exact ⟨hw.handlers, hw.routes⟩

end PluginInstance

/-! ### A start that fails halfway -/

namespace InstanceTest

open PluginInstance

/-- Nor is it in the world of the witness. -/
theorem startup_idle : Idle startup := { startup_startup with pluginRoutes := rfl }

/-- `pre_start` registers a handler. -/
def registering : Hook where
  registers := [[{ val := 7, eventTypes := ["m.room.message"] }]]

/-- … and raises after it. -/
def failing : StartEnv where
  preStart := { registering with raises := some { cls := .valueError } }

end InstanceTest

namespace PluginInstance

open InstanceTest in
/-- Look the instance `a` up and start it with a `pre_start` that raises: its handler stays
    on the client. -/
theorem failed_not_exact :
    ¬ ∀ w₀ : World Unit, Idle w₀ →
      ∀ w, Reach (Op.exec setup) (fun w op => op.IsCall ∧ op.Held w) w₀ w →
        ExactHandlers w ∧ ClearRoutes w := by
  intro h
  have hget : Reach (Op.exec setup) (fun w op => op.IsCall ∧ op.Held w) startup found :=
    Reach.step (Op.get "a" none none) .start ⟨trivial, by rintro i ⟨⟩⟩
  have hstart := hget.step (Op.start 0 failing) ⟨trivial, by rintro i ⟨⟩; decide⟩
  have := (h startup startup_idle _ hstart).1 0 (by decide +kernel)
  exact absurd this (by decide +kernel)

open InstanceTest in
/-- A `pre_start` that registers the handler and returns. -/
theorem started_exact :
    ExactHandlers (Op.exec setup (Op.start 0 { preStart := registering }) found) ∧
      ClearRoutes (Op.exec setup (Op.start 0 { preStart := registering }) found) :=
  handlers_of_tidy (S := setup) startup_idle <|
    (Reach.step (Op.get "a" none none) .start ⟨trivial, by rintro i ⟨⟩, trivial⟩).step
      (Op.start 0 { preStart := registering }) ⟨trivial, by rintro i ⟨⟩; decide, fun p w' _ => by
        cases (w'.plugins.get p).webapp <;> exact Or.inl rfl⟩

end PluginInstance

end Maubot
