import Maubot.Plugin.Script
import Maubot.Instance.Operations
import Maubot.Client.Lookup
import Mathlib.Algebra.BigOperators.Group.Finset.Basic
import Mathlib.Algebra.Order.BigOperators.Group.Multiset
import Mathlib.Data.Multiset.AddSub

namespace Maubot

open Prog

/-!
# Plugin instances — handlers and routes of started instances

* `ExactHandlers` — the handlers on a client are those of the plugins that are started on it;
* `ClearRoutes` — the web app of an instance that is not started has no routes;
* `Registrations` — the invariant that carries both through a run.
-/

variable {L : Type} (S : Setup L)

/-- The event handlers that a plugin has registered, as entries of its client's dict. -/
def Plugin.entries (p : Plugin) : List (EventType × Handler) :=
  p.handlersAtStartup.map fun h => (h.2, h.1)

namespace PluginInstance

/-! ### The property -/

/-- The dict of the event handlers of a client. -/
def dictOf (w : World L) (c : Ref) : Ref :=
  (w.matrixClients.get (w.clients.get c).client).eventHandlers

/-- The event handlers on a client that plugins registered. -/
def handlersOn (w : World L) (c : Ref) : Multiset (EventType × Handler) :=
  ↑(pluginEntries (w.eventHandlers.get (dictOf w c)))

/-- The event handlers of the instance's plugin, if it is started on the client. -/
def handlersOf (w : World L) (c i : Ref) : Multiset (EventType × Handler) :=
  if (w.instances.get i).started ∧ (w.instances.get i).client = some c then
    match (w.instances.get i).plugin with
    | some p => ↑(w.plugins.get p).entries
    | none   => 0
  else 0

/-- The handlers on each client are those of the plugins whose instance is started on it. -/
def ExactHandlers (w : World L) : Prop :=
  ∀ c < w.clients.next,
    handlersOn w c = ∑ i ∈ Finset.range w.instances.next, handlersOf w c i

/-- The web apps of the instances that are not started have no routes. -/
def ClearRoutes (w : World L) : Prop :=
  ∀ i < w.instances.next, (w.instances.get i).started = false →
    ∀ app, (w.instances.get i).instWebapp = some app → (w.webapps.get app).routes = []

/-! ### The invariant -/

/-- The objects of different instances and clients are different. -/
structure Shape (w : World L) : Prop where
  cached     : ∀ i < w.instances.next, w.instanceCache (w.instances.get i).id = some i
  client     : ∀ i < w.instances.next, ∀ c, (w.instances.get i).client = some c →
    c < w.clients.next
  clientLt   : ∀ u c, w.clientCache u = some c → c < w.clients.next
  matrixLt   : ∀ c < w.clients.next, (w.clients.get c).client < w.matrixClients.next
  dictLt     : ∀ c < w.clients.next, dictOf w c < w.eventHandlers.next
  dictInj    : ∀ c < w.clients.next, ∀ c' < w.clients.next, dictOf w c = dictOf w c' → c = c'
  webapp     : ∀ i < w.instances.next, (w.instances.get i).instWebapp =
    w.pluginRoutes (MaubotServer.subpath S (w.instances.get i).id)
  routeKey   : ∀ k app, w.pluginRoutes k = some app → ∃ i < w.instances.next,
    k = MaubotServer.subpath S (w.instances.get i).id
  routeLt    : ∀ k app, w.pluginRoutes k = some app → app < w.webapps.next
  routeInj   : ∀ k k' app, w.pluginRoutes k = some app → w.pluginRoutes k' = some app → k = k'

/-- The plugin of a started instance runs on the client and the web app of the instance. -/
def Running (w : World L) (i : Ref) : Prop :=
  ∃ p c, (w.instances.get i).plugin = some p ∧ (w.instances.get i).client = some c ∧
    p < w.plugins.next ∧ (w.plugins.get p).client = (w.clients.get c).client ∧
    (w.plugins.get p).webapp = (w.instances.get i).instWebapp

structure Registrations (w : World L) : Prop extends Shape S w where
  running  : ∀ i < w.instances.next, (w.instances.get i).started = true → Running w i
  handlers : ExactHandlers w
  routes   : ClearRoutes w

/-! ### The web apps of the server -/

/-- An id stands for one instance, which has the web app that the server has for the id. -/
structure Routed (w : World L) : Prop where
  cached   : ∀ i < w.instances.next, w.instanceCache (w.instances.get i).id = some i
  webapp   : ∀ i < w.instances.next, (w.instances.get i).instWebapp =
    w.pluginRoutes (MaubotServer.subpath S (w.instances.get i).id)
  routeKey : ∀ k app, w.pluginRoutes k = some app → ∃ i < w.instances.next,
    k = MaubotServer.subpath S (w.instances.get i).id

section Routed

variable {S} {w w' : World L} {i j : Ref}

/-- The shape of the world includes its routes. -/
theorem Shape.routed (hw : Shape S w) : Routed S w where
  cached   := hw.cached
  webapp   := hw.webapp
  routeKey := hw.routeKey

/-- Who is routed is seen from ids, web apps, the cache and the routes. -/
theorem Routed.of_kept (hw : Routed S w) (hnext : w'.instances.next = w.instances.next)
    (hcache : w'.instanceCache = w.instanceCache) (hroutes : w'.pluginRoutes = w.pluginRoutes)
    (hid : ∀ j, (w'.instances.get j).id = (w.instances.get j).id)
    (hwebapp : ∀ j, (w'.instances.get j).instWebapp = (w.instances.get j).instWebapp) :
    Routed S w' where
  cached j hj := by
    rw [hcache, hid]
    exact hw.cached j (hnext ▸ hj)
  webapp j hj := by
    rw [hwebapp, hroutes, hid]
    exact hw.webapp j (hnext ▸ hj)
  routeKey k app hk := by
    obtain ⟨j, hj, hkey⟩ := hw.routeKey k app (hroutes ▸ hk)
    exact ⟨j, hnext ▸ hj, by rw [hid, hkey]⟩

/-- The ids of two instances are two, and so are their keys. -/
theorem Routed.id_inj (hw : Routed S w) (hi : i < w.instances.next) (hj : j < w.instances.next)
    (hid : (w.instances.get i).id = (w.instances.get j).id) : i = j := by
  have hcached := hw.cached i hi
  rw [hid, hw.cached j hj] at hcached
  exact (Option.some.inj hcached).symm

/-- Two instances have different paths. -/
theorem Routed.subpath_ne (hw : Routed S w) (hi : i < w.instances.next)
    (hj : j < w.instances.next) (hji : j ≠ i) :
    MaubotServer.subpath S (w.instances.get j).id ≠
      MaubotServer.subpath S (w.instances.get i).id := by
  exact fun he => hji (hw.id_inj hj hi ((MaubotServer.subpath_inj S).mp he))

/-- A new object stands for an id that no instance has, so the server has no web app for it. -/
theorem Routed.fromRow (hw : Routed S w) {id : String} (hid : w.instanceCache id = none)
    (row : InstanceRow) : Routed S ((PluginInstance.fromRow id row).exec w).2 := by
  set w' := ((PluginInstance.fromRow id row).exec w).2
  have hcache : w'.instanceCache = Function.update w.instanceCache id (some w.instances.next) := rfl
  have hnext : w'.instances.next = w.instances.next + 1 := rfl
  have hold {j : Ref} (hj : j < w.instances.next) : w'.instances.get j = w.instances.get j :=
    Store.get_alloc_of_lt w.instances _ hj
  have hnew : w'.instances.get w.instances.next = _ := Store.get_alloc_self w.instances _
  -- the id was free
  have hids {j : Ref} (hj : j < w.instances.next) : (w.instances.get j).id ≠ id := by
    rintro rfl
    rw [hw.cached j hj] at hid
    cases hid
  refine ⟨fun j hj => ?_, fun j hj => ?_, fun k app hk => ?_⟩
  · rw [hnext] at hj
    rcases Nat.lt_succ_iff_lt_or_eq.mp hj with hj | rfl
    · rw [hold hj, hcache, Function.update_of_ne (hids hj)]
      exact hw.cached j hj
    · rw [hnew, hcache, Function.update_self]
  · show _ = w.pluginRoutes _
    rw [hnext] at hj
    rcases Nat.lt_succ_iff_lt_or_eq.mp hj with hj | rfl
    · rw [hold hj]
      exact hw.webapp j hj
    · -- a route under the new id would be that of an instance that has it
      rw [hnew]
      show none = w.pluginRoutes (MaubotServer.subpath S id)
      cases hroute : w.pluginRoutes (MaubotServer.subpath S id) with
      | none => rfl
      | some app =>
        obtain ⟨j, hj, hkey⟩ := hw.routeKey _ app hroute
        exact absurd ((MaubotServer.subpath_inj S).mp hkey).symm (hids hj)
  · obtain ⟨j, hj, hkey⟩ := hw.routeKey k app hk
    exact ⟨j, Nat.lt_succ_of_lt hj, by rw [hold hj, hkey]⟩

end Routed

/-! ### Steps that keep the objects -/

/-- No object has been made or given up. -/
structure SameShape (w w' : World L) : Prop where
  next          : w'.instances.next = w.instances.next
  instanceCache : w'.instanceCache = w.instanceCache
  id            : ∀ i, (w'.instances.get i).id = (w.instances.get i).id
  client        : ∀ i, (w'.instances.get i).client = (w.instances.get i).client
  instWebapp    : ∀ i, (w'.instances.get i).instWebapp = (w.instances.get i).instWebapp
  nextClient    : w'.clients.next = w.clients.next
  matrix        : ∀ c, (w'.clients.get c).client = (w.clients.get c).client
  clientCache   : w'.clientCache = w.clientCache
  matrixClients : w'.matrixClients = w.matrixClients
  pluginRoutes  : w'.pluginRoutes = w.pluginRoutes
  nextHandlers  : w'.eventHandlers.next = w.eventHandlers.next
  nextPlugin    : w'.plugins.next = w.plugins.next
  nextWebapp    : w'.webapps.next = w.webapps.next

variable {S} {w w' : World L}

/-- The dictionary of a client's handlers is the same. -/
theorem SameShape.dictOf (h : SameShape w w') (c : Ref) : dictOf w' c = dictOf w c := by
  rw [PluginInstance.dictOf, h.matrixClients, h.matrix]
  rfl

/-- So are the routes. -/
theorem SameShape.routed (h : SameShape w w') (hw : Routed S w) : Routed S w' :=
  hw.of_kept h.next h.instanceCache h.pluginRoutes h.id h.instWebapp

/-- Hence the shape stays. -/
theorem Shape.of_same (hw : Shape S w) (h : SameShape w w') : Shape S w' where
  cached := (h.routed hw.routed).cached
  client i hi c hc := by
    rw [h.nextClient]
    exact hw.client i (h.next ▸ hi) c (h.client i ▸ hc)
  clientLt u c hc := by
    rw [h.nextClient]
    exact hw.clientLt u c (h.clientCache ▸ hc)
  matrixLt c hc := by
    rw [h.matrix, h.matrixClients]
    exact hw.matrixLt c (h.nextClient ▸ hc)
  dictLt c hc := by
    rw [h.dictOf, h.nextHandlers]
    exact hw.dictLt c (h.nextClient ▸ hc)
  dictInj c hc c' hc' he := by
    rw [h.dictOf, h.dictOf] at he
    exact hw.dictInj c (h.nextClient ▸ hc) c' (h.nextClient ▸ hc') he
  webapp := (h.routed hw.routed).webapp
  routeKey := (h.routed hw.routed).routeKey
  routeLt k app hk := by
    rw [h.nextWebapp]
    exact hw.routeLt k app (h.pluginRoutes ▸ hk)
  routeInj k k' app hk hk' := hw.routeInj k k' app (h.pluginRoutes ▸ hk) (h.pluginRoutes ▸ hk')

/-- The web apps of two instances are two. -/
theorem Shape.webapp_inj (hw : Shape S w) {i j : Ref} (hi : i < w.instances.next)
    (hj : j < w.instances.next) {app : Ref} (hai : (w.instances.get i).instWebapp = some app)
    (haj : (w.instances.get j).instWebapp = some app) : i = j := by
  rw [hw.webapp i hi] at hai
  rw [hw.webapp j hj] at haj
  exact hw.routed.id_inj hi hj ((MaubotServer.subpath_inj S).mp (hw.routeInj _ _ app hai haj))

/-- The settings of instances and of loaders, and nothing else, may have changed. -/
structure SameRegistrations (w w' : World L) : Prop extends SameShape w w' where
  started  : ∀ i, (w'.instances.get i).started = (w.instances.get i).started
  plugin   : ∀ i, (w'.instances.get i).started = true →
    (w'.instances.get i).plugin = (w.instances.get i).plugin
  plugins  : ∀ p, w'.plugins.get p = w.plugins.get p
  handlers : ∀ d, w'.eventHandlers.get d = w.eventHandlers.get d
  routes   : ∀ app, (w'.webapps.get app).routes = (w.webapps.get app).routes

/-- The same registrations are the same handlers of each instance. -/
theorem SameRegistrations.handlersOf (h : SameRegistrations w w') (c i : Ref) :
    handlersOf w' c i = handlersOf w c i := by
  unfold PluginInstance.handlersOf
  rw [h.started, h.client]
  split
  · rename_i hs
    rw [h.plugin i ((h.started i).trans hs.1)]
    split
    · rw [h.plugins]
    · rfl
  · rfl

/-- And they are right if they were. -/
theorem Registrations.of_same (hw : Registrations S w) (h : SameRegistrations w w') :
    Registrations S w' where
  toShape := hw.toShape.of_same h.toSameShape
  running i hi hs := by
    obtain ⟨p, c, hp, hc, hlt, hclient, hwebapp⟩ := hw.running i (h.next ▸ hi) (h.started i ▸ hs)
    refine ⟨p, c, (h.plugin i hs).trans hp, (h.client i).trans hc, h.nextPlugin ▸ hlt, ?_, ?_⟩
    · rw [h.plugins, h.matrix, hclient]
    · rw [h.plugins, h.instWebapp, hwebapp]
  handlers c hc := by
    rw [handlersOn, h.dictOf, h.handlers, h.next]
    exact (hw.handlers c (h.nextClient ▸ hc)).trans
      (Finset.sum_congr rfl fun i _ => (h.handlersOf c i).symm)
  routes i hi hs app happ := by
    rw [h.routes]
    exact hw.routes i (h.next ▸ hi) (h.started i ▸ hs) app (h.instWebapp i ▸ happ)

/-- Where nothing changes, they are the same. -/
theorem SameRegistrations.of_unchanged (h : Unchanged S w w') : SameRegistrations w w' where
  next := h.next
  instanceCache := h.instanceCache
  id i := (congrArg PluginInstance.id (h.core i) :)
  client i := (congrArg PluginInstance.client (h.core i) :)
  instWebapp i := (congrArg PluginInstance.instWebapp (h.core i) :)
  nextClient := by rw [h.clients]
  matrix c := by rw [h.clients]
  clientCache := h.clientCache
  matrixClients := h.matrixClients
  pluginRoutes := h.pluginRoutes
  nextHandlers := by rw [h.eventHandlers]
  nextPlugin := by rw [h.plugins]
  nextWebapp := by rw [h.webapps]
  started i := (congrArg PluginInstance.started (h.core i) :)
  plugin i _ := (congrArg PluginInstance.plugin (h.core i) :)
  plugins p := by rw [h.plugins]
  handlers d := by rw [h.eventHandlers]
  routes app := by rw [h.webapps]

/-! ### Preparing a start -/

variable (S) in
/-- The instance may be started. -/
def Ready (i : Ref) (w : World L) : Prop :=
  Registrations S w ∧ i < w.instances.next ∧ (w.instances.get i).started = false

variable {i : Ref}

/-- A ready instance stays ready. -/
theorem Ready.of_same (hw : Ready S i w) (h : SameRegistrations w w') : Ready S i w' :=
  ⟨hw.1.of_same h, h.next ▸ hw.2.1, (h.started i).trans hw.2.2⟩

/-- Also over a quiet program. -/
theorem ready_of_quiet {α : Type} {m : Action L α} (hm : Keeps (Quiet S) m) :
    Keeps (.ofInv (Ready S i)) m := fun w hw =>
  hw.of_same (.of_unchanged (hm w))

/-- An instance that is not started has no handlers. -/
theorem handlersOf_of_not_started (h : (w.instances.get i).started = false) (c : Ref) :
    handlersOf w c i = 0 := by
  simp [handlersOf, h]

/-- What is assigned to an instance that is not started does not matter. -/
theorem Ready.setInstance (hw : Ready S i w) {f : PluginInstance → PluginInstance}
    (hid : ∀ inst, (f inst).id = inst.id) (hstarted : ∀ inst, (f inst).started = inst.started)
    (hwebapp : ∀ inst, (f inst).instWebapp = inst.instWebapp)
    (hclient : ∀ c, (f (w.instances.get i)).client = some c → c < w.clients.next) :
    Ready S i { w with instances := w.instances.modify i f } := by
  obtain ⟨hreg, hlt, hst⟩ := hw
  set w' : World L := { w with instances := w.instances.modify i f } with hw'
  have hids (j : Ref) : (w'.instances.get j).id = (w.instances.get j).id :=
    Store.view_modify _ _ _ PluginInstance.id hid j
  have hsts (j : Ref) : (w'.instances.get j).started = (w.instances.get j).started :=
    Store.view_modify _ _ _ PluginInstance.started hstarted j
  have hwebs (j : Ref) : (w'.instances.get j).instWebapp = (w.instances.get j).instWebapp :=
    Store.view_modify _ _ _ PluginInstance.instWebapp hwebapp j
  have hother (j : Ref) (hj : j ≠ i) : w'.instances.get j = w.instances.get j :=
    Store.get_modify_ne _ _ hj
  -- the instance itself is not running, so only its id, its client and its web app matter
  refine ⟨?_, hlt, (hsts i).trans hst⟩
  exact
    { hreg.toShape with
      cached := fun j hj => by
        rw [hids]
        exact hreg.cached j hj
      client := fun j hj c hc => by
        rcases eq_or_ne j i with rfl | hne
        · refine hclient c ?_
          rwa [hw', Store.get_modify_self] at hc
        · rw [hother j hne] at hc
          exact hreg.client j hj c hc
      webapp := fun j hj => by
        rw [hwebs, hids]
        exact hreg.webapp j hj
      routeKey := fun k app hk => by
        obtain ⟨j, hj, hkey⟩ := hreg.routeKey k app hk
        exact ⟨j, hj, by rw [hids, hkey]⟩
      running := fun j hj hs => by
        rcases eq_or_ne j i with rfl | hne
        · rw [hsts, hst] at hs
          cases hs
        · have := hreg.running j hj (hsts j ▸ hs)
          unfold Running at this ⊢
          rwa [hother j hne]
      -- a stopped instance has no handlers, before and after
      handlers := fun c hc => by
        refine (hreg.handlers c hc).trans (Finset.sum_congr rfl fun j _ => ?_)
        rcases eq_or_ne j i with rfl | hne
        · rw [handlersOf_of_not_started hst, handlersOf_of_not_started ((hsts j).trans hst)]
        · unfold handlersOf
          rw [hother j hne]
      routes := fun j hj hs app happ =>
        hreg.routes j hj (hsts j ▸ hs) app (hwebs j ▸ happ) }

/-- A step that the registrations do not show. -/
theorem ready_modify {f : World L → World L} (hf : ∀ w, SameRegistrations w (f w)) :
    Keeps (.ofInv (Ready S i)) (modify f : Action L Unit) := fun w hw => hw.of_same (hf w)

/-- Nothing is registered by nothing. -/
theorem SameRegistrations.refl (w : World L) : SameRegistrations w w :=
  { next := rfl, instanceCache := rfl, id := fun _ => rfl, client := fun _ => rfl
    instWebapp := fun _ => rfl, nextClient := rfl, matrix := fun _ => rfl, clientCache := rfl
    matrixClients := rfl, pluginRoutes := rfl, nextHandlers := rfl, nextPlugin := rfl
    nextWebapp := rfl, started := fun _ => rfl, plugin := fun _ _ => rfl
    plugins := fun _ => rfl, handlers := fun _ => rfl, routes := fun _ => rfl }

/-- A reference at the loader is no registration. -/
theorem ready_addToLoader (l : Ref) : Keeps (.ofInv (Ready S i)) (addToLoader S i l) :=
  keeps_bind keeps_get fun _ => ready_modify fun w => { SameRegistrations.refl w with }

/-- Neither are the references at a client, -/
theorem ready_setReferences (c : Ref) (s : PySet Ref) :
    Keeps (.ofInv (Ready S i)) (setReferences c s) := ready_modify fun w =>
  { SameRegistrations.refl w with
    matrix := Store.view_modify w.clients c (fun cl => { cl with references := s })
      Client.client fun _ => rfl }

/-- nor one more of them. -/
theorem ready_addToClient (c : Ref) : Keeps (.ofInv (Ready S i)) (addToClient S i c) :=
  keeps_bind keeps_get fun _ => ready_setReferences c _

/-! ### A new client -/

section Made

variable {u : String} {row : ClientRow} {c : Ref}

/-- The clients are the old ones and the one that was made. -/
theorem made_cases (h : Client.Made u row w w') (hc : c < w'.clients.next) :
    c < w.clients.next ∨ c = w.clients.next := by
  rw [h.nextClient] at hc
  exact Nat.lt_succ_iff_lt_or_eq.mp hc

/-- An old client keeps its dictionary. -/
theorem dictOf_made_old (hw : Shape S w) (h : Client.Made u row w w') (hc : c < w.clients.next) :
    dictOf w' c = dictOf w c := by
  rw [dictOf, h.clients c hc, h.matrixClients _ (hw.matrixLt c hc)]
  rfl

/-- The new one has a new dictionary. -/
theorem dictOf_made_new (h : Client.Made u row w w') :
    dictOf w' w.clients.next = w.eventHandlers.next := by
  rw [dictOf, h.holds.1, h.holds.2]

/-- The old clients keep their dicts, the new one has a new dict. -/
theorem Shape.of_made (hw : Shape S w) (h : Client.Made u row w w') : Shape S w' where
  cached i hi := by
    rw [h.others] at hi ⊢
    exact hw.cached i hi
  client i hi c hc := by
    rw [h.others] at hi hc
    exact h.nextClient ▸ Nat.lt_succ_of_lt (hw.client i hi c hc)
  clientLt v c hc := by
    have hcache : w'.clientCache = Function.update w.clientCache u (some w.clients.next) := by
      rw [h.others]
    rw [hcache] at hc
    rw [h.nextClient]
    rcases of_update_eq_some hc with ⟨-, hnew⟩ | ⟨-, hold⟩
    · -- the cache finds the new client, or an old one
      obtain rfl := Option.some.inj hnew
      exact Nat.lt_succ_self _
    · exact Nat.lt_succ_of_lt (hw.clientLt v c hold)
  matrixLt c hc := by
    rw [h.nextMatrix]
    rcases made_cases h hc with hlt | rfl
    · rw [h.clients c hlt]
      exact Nat.lt_succ_of_lt (hw.matrixLt c hlt)
    · rw [h.holds.1]
      exact Nat.lt_succ_self _
  dictLt c hc := by
    rw [h.nextHandlers]
    rcases made_cases h hc with hlt | rfl
    · rw [dictOf_made_old hw h hlt]
      exact Nat.lt_succ_of_lt (hw.dictLt c hlt)
    · rw [dictOf_made_new h]
      exact Nat.lt_succ_self _
  dictInj c hc c' hc' he := by
    -- the new client has a new Matrix client, whose handlers no old one has
    rcases made_cases h hc with hlt | rfl <;> rcases made_cases h hc' with hlt' | rfl
    · rw [dictOf_made_old hw h hlt, dictOf_made_old hw h hlt'] at he
      exact hw.dictInj c hlt c' hlt' he
    · rw [dictOf_made_old hw h hlt, dictOf_made_new h] at he
      exact absurd (hw.dictLt c hlt) (by rw [he]; exact Nat.lt_irrefl _)
    · rw [dictOf_made_old hw h hlt', dictOf_made_new h] at he
      exact absurd (hw.dictLt c' hlt') (by rw [← he]; exact Nat.lt_irrefl _)
    · rfl
  webapp i hi := by
    rw [h.others] at hi ⊢
    exact hw.webapp i hi
  routeKey k app hk := by
    rw [h.others] at hk ⊢
    exact hw.routeKey k app hk
  routeLt k app hk := by
    rw [h.others] at hk ⊢
    exact hw.routeLt k app hk
  routeInj k k' app hk hk' := by
    rw [h.others] at hk hk'
    exact hw.routeInj k k' app hk hk'

/-- No handler is in that, so each instance has the handlers that it had. -/
theorem handlersOf_made (h : Client.Made u row w w') (c i : Ref) :
    handlersOf w' c i = handlersOf w c i := by
  rw [h.others]
  rfl

/-- A new client has no handlers of plugins. -/
theorem Registrations.of_made (hw : Registrations S w) (h : Client.Made u row w w') :
    Registrations S w' where
  toShape := hw.toShape.of_made h
  running i hi hs := by
    have hinst : w'.instances = w.instances := by rw [h.others]
    have hplugins : w'.plugins = w.plugins := by rw [h.others]
    obtain ⟨p, c, hp, hc, hlt, hpc, hpw⟩ := hw.running i (hinst ▸ hi) (hinst ▸ hs)
    refine ⟨p, c, hinst ▸ hp, hinst ▸ hc, hplugins ▸ hlt, ?_, ?_⟩
    · rw [hplugins, hpc, h.clients c (hw.client i (hinst ▸ hi) c hc)]
    · rw [hplugins, hpw, hinst]
  handlers c hc := by
    have hinst : w'.instances = w.instances := by rw [h.others]
    rw [Finset.sum_congr rfl fun i _ => handlersOf_made h c i, hinst]
    rcases made_cases h hc with hlt | rfl
    · rw [handlersOn, dictOf_made_old hw.toShape h hlt, h.eventHandlers _ (hw.dictLt c hlt)]
      exact hw.handlers c hlt
    · -- no instance has the new client
      rw [handlersOn, dictOf_made_new h, h.plugins, Finset.sum_eq_zero fun i hi => ?_]
      · rfl
      · refine if_neg fun hs => ?_
        have hlt := hw.client i (Finset.mem_range.mp hi) _ hs.2
        exact Nat.lt_irrefl _ hlt
  routes i hi hs app happ := by
    rw [h.others] at hi hs happ ⊢
    exact hw.routes i hi hs app happ

end Made

/-- And a ready instance stays ready. -/
theorem Ready.of_made {u : String} {row : ClientRow} (hw : Ready S i w)
    (h : Client.Made u row w w') : Ready S i w' := by
  have hinst : w'.instances = w.instances := by rw [h.others]
  exact ⟨hw.1.of_made h, hinst ▸ hw.2.1, hinst ▸ hw.2.2⟩

/-- The world after the instance's web app was changed to `web`. -/
def withWebapp (S : Setup L) (i : Ref) (web : Option Ref) (url : Option String)
    (webapps : Store WebApp) (w : World L) : World L :=
  { w with
    instances := w.instances.modify i fun inst =>
      { inst with instWebapp := web, instWebappUrl := url }
    webapps
    pluginRoutes := Function.update w.pluginRoutes
      (MaubotServer.subpath S (w.instances.get i).id) web }

/-- An instance that got a web app has it, -/
theorem withWebapp_self (web : Option Ref) (url : Option String) (webapps : Store WebApp) :
    (withWebapp S i web url webapps w).instances.get i =
      { w.instances.get i with instWebapp := web, instWebappUrl := url } := by
  rw [withWebapp, Store.get_modify_self]

/-- no other has it, -/
theorem withWebapp_ne (web : Option Ref) (url : Option String) (webapps : Store WebApp) {j : Ref}
    (hj : j ≠ i) :
    (withWebapp S i web url webapps w).instances.get j = w.instances.get j := by
  rw [withWebapp, Store.get_modify_ne _ _ hj]

/-- and nothing else about it has changed. -/
theorem withWebapp_view {α : Type} (web : Option Ref) (url : Option String)
    (webapps : Store WebApp) (view : PluginInstance → α)
    (hview : ∀ inst, view { inst with instWebapp := web, instWebappUrl := url } = view inst)
    (j : Ref) :
    view ((withWebapp S i web url webapps w).instances.get j) = view (w.instances.get j) :=
  Store.view_modify w.instances i _ view hview j

section WithWebapp

variable {web : Option Ref} {url : Option String} {webapps : Store WebApp}

/-- The web app is mounted at the instance's path, -/
theorem routes_withWebapp_self : (withWebapp S i web url webapps w).pluginRoutes
    (MaubotServer.subpath S (w.instances.get i).id) = web :=
  Function.update_self _ _ _

/-- and the other paths are as before. -/
theorem routes_withWebapp_ne {k : String}
    (hk : k ≠ MaubotServer.subpath S (w.instances.get i).id) :
    (withWebapp S i web url webapps w).pluginRoutes k = w.pluginRoutes k :=
  Function.update_of_ne hk _ _

/-- So the routes are right again. -/
theorem Routed.withWebapp (hw : Routed S w) (hi : i < w.instances.next) :
    Routed S (withWebapp S i web url webapps w) := by
  have hids := withWebapp_view (S := S) (w := w) (i := i) web url webapps
    PluginInstance.id fun _ => rfl
  refine ⟨fun j hj => ?_, fun j hj => ?_, fun k app hk => ?_⟩
  · rw [hids]
    exact hw.cached j hj
  · rw [hids]
    rcases eq_or_ne j i with rfl | hji
    · rw [withWebapp_self, routes_withWebapp_self]
    · rw [withWebapp_ne web url webapps hji, routes_withWebapp_ne (hw.subpath_ne hi hj hji)]
      exact hw.webapp j hj
  · rcases eq_or_ne k (MaubotServer.subpath S (w.instances.get i).id) with rfl | hkk
    · exact ⟨i, hi, by rw [hids]⟩
    · obtain ⟨j, hj, hkj⟩ := hw.routeKey k app (routes_withWebapp_ne hkk ▸ hk)
      exact ⟨j, hj, by rw [hids, hkj]⟩

/-- The instance has a web app that no other has. -/
theorem Shape.withWebapp (hw : Shape S w) (hi : i < w.instances.next)
    (hnext : w.webapps.next ≤ webapps.next) (hlt : ∀ app, web = some app → app < webapps.next)
    (hother : ∀ k app, k ≠ MaubotServer.subpath S (w.instances.get i).id →
      w.pluginRoutes k = some app → web ≠ some app) :
    Shape S (withWebapp S i web url webapps w) := by
  have hclients := withWebapp_view (S := S) (w := w) (i := i) web url webapps
    PluginInstance.client fun _ => rfl
  have hrouted : Routed S (PluginInstance.withWebapp S i web url webapps w) :=
    hw.routed.withWebapp hi
  exact
    { hw with
      cached := hrouted.cached
      client := fun j hj c hc => hw.client j hj c (hclients j ▸ hc)
      webapp := hrouted.webapp
      routeKey := hrouted.routeKey
      routeLt := fun k app hk => by
        rcases eq_or_ne k (MaubotServer.subpath S (w.instances.get i).id) with rfl | hkk
        · rw [routes_withWebapp_self] at hk
          exact hlt app hk
        · rw [routes_withWebapp_ne hkk] at hk
          exact Nat.lt_of_lt_of_le (hw.routeLt k app hk) hnext
      -- the route of the instance leads to the new web app, to which no other leads
      routeInj := fun k k' app hk hk' => by
        rcases eq_or_ne k (MaubotServer.subpath S (w.instances.get i).id) with rfl | hkk <;>
          rcases eq_or_ne k' (MaubotServer.subpath S (w.instances.get i).id) with rfl | hkk'
        · rfl
        · rw [routes_withWebapp_self] at hk
          rw [routes_withWebapp_ne hkk'] at hk'
          exact absurd hk (hother k' app hkk' hk')
        · rw [routes_withWebapp_self] at hk'
          rw [routes_withWebapp_ne hkk] at hk
          exact absurd hk' (hother k app hkk hk)
        · rw [routes_withWebapp_ne hkk] at hk
          rw [routes_withWebapp_ne hkk'] at hk'
          exact hw.routeInj k k' app hk hk' }

/-- Handlers have nothing to do with it. -/
theorem handlersOf_withWebapp (c j : Ref) :
    handlersOf (withWebapp S i web url webapps w) c j = handlersOf w c j := by
  unfold handlersOf
  rw [withWebapp_view web url webapps PluginInstance.started fun _ => rfl,
    withWebapp_view web url webapps PluginInstance.client fun _ => rfl,
    withWebapp_view web url webapps PluginInstance.plugin fun _ => rfl]
  rfl

/-- Only the instance that is not started has the new web app, which has no routes. -/
theorem Ready.withWebapp (hw : Ready S i w) (hnext : w.webapps.next ≤ webapps.next)
    (hlt : ∀ app, web = some app → app < webapps.next)
    (hother : ∀ k app, k ≠ MaubotServer.subpath S (w.instances.get i).id →
      w.pluginRoutes k = some app →
      web ≠ some app ∧ (webapps.get app).routes = (w.webapps.get app).routes)
    (hclear : ∀ app, web = some app → (webapps.get app).routes = []) :
    Ready S i (withWebapp S i web url webapps w) := by
  obtain ⟨hreg, hi, hst⟩ := hw
  have hsts := withWebapp_view (S := S) (w := w) (i := i) web url webapps
    PluginInstance.started fun _ => rfl
  refine ⟨?_, hi, (hsts i).trans hst⟩
  refine ⟨hreg.toShape.withWebapp hi hnext hlt fun k app hk happ => (hother k app hk happ).1,
    fun j hj hs => ?_, fun c hc => ?_, fun j hj hs app happ => ?_⟩
  · -- the started instances are others
    rcases eq_or_ne j i with rfl | hji
    · rw [hsts, hst] at hs
      cases hs
    · have hrunning := hreg.running j hj (hsts j ▸ hs)
      unfold Running at hrunning ⊢
      rwa [withWebapp_ne web url webapps hji]
  · exact (hreg.handlers c hc).trans
      (Finset.sum_congr rfl fun j _ => (handlersOf_withWebapp c j).symm)
  · rcases eq_or_ne j i with rfl | hji
    · rw [withWebapp_self] at happ
      exact hclear app happ
    · rw [withWebapp_ne web url webapps hji] at happ
      have hroute := hreg.webapp j hj ▸ happ
      show (webapps.get app).routes = []
      rw [(hother _ app (hreg.toShape.routed.subpath_ne hi hj hji) hroute).2]
      exact hreg.routes j hj (hsts j ▸ hs) app happ

end WithWebapp

/-- `get_instance_subapp` finds the web app of the instance or makes one without routes. -/
theorem ready_enableWebapp : Keeps (.ofInv (Ready S i)) (enableWebapp S i) := by
  intro w hw
  have hweb := hw.1.webapp i hw.2.1
  cases hroute : w.pluginRoutes (MaubotServer.subpath S (w.instances.get i).id) with
  -- a web app that is there is used again,
  | some app =>
    have hexec : ((enableWebapp S i).exec w).2 = withWebapp S i (some app)
        (some (S.publicUrl ++ MaubotServer.subpath S (w.instances.get i).id)) w.webapps w := by
      rw [enableWebapp, exec_get_bind,
        exec_bind_ok (MaubotServer.exec_getInstanceSubapp_some hroute), withWebapp, ← hroute,
        Function.update_eq_self]
      rfl
    rw [hexec]
    refine hw.withWebapp (Nat.le_refl _) (fun a ha => ?_) (fun k a hk ha => ⟨fun he => ?_, rfl⟩)
      fun a ha => hw.1.routes i hw.2.1 hw.2.2 a (by rw [hweb, hroute, ha])
    · exact hw.1.routeLt _ a (by rw [hroute, ha])
    · exact hk (hw.1.routeInj _ _ a ha (by rw [hroute, he]))
  -- and else a new one is made, which no route leads to
  | none =>
    have hexec : ((enableWebapp S i).exec w).2 = withWebapp S i (some w.webapps.next)
        (some (S.publicUrl ++ MaubotServer.subpath S (w.instances.get i).id))
        (w.webapps.alloc {}) w := by
      rw [enableWebapp, exec_get_bind,
        exec_bind_ok (MaubotServer.exec_getInstanceSubapp_none hroute)]
      rfl
    rw [hexec]
    refine hw.withWebapp (Nat.le_succ _) (fun a ha => ?_) (fun k a hk ha => ⟨fun he => ?_, ?_⟩)
      fun a ha => ?_
    · rw [← Option.some.inj ha]
      exact Nat.lt_succ_self _
    · exact Nat.lt_irrefl a (Option.some.inj he ▸ hw.1.routeLt k a ha)
    · rw [Store.get_alloc_of_lt _ _ (hw.1.routeLt k a ha)]
    · rw [← Option.some.inj ha, Store.get_alloc_self]

/-- A web app that is taken off leaves the instance ready. -/
theorem ready_disableWebapp : Keeps (.ofInv (Ready S i)) (disableWebapp S i) := by
  intro w hw
  have hweb := hw.1.webapp i hw.2.1
  have hexec : ∃ webapps : Store WebApp,
      ((disableWebapp S i).exec w).2 = withWebapp S i none none webapps w ∧
      webapps.next = w.webapps.next ∧
      ∀ a, (∀ k, k ≠ MaubotServer.subpath S (w.instances.get i).id →
        w.pluginRoutes k = some a → webapps.get a = w.webapps.get a) := by
    cases hroute : w.pluginRoutes (MaubotServer.subpath S (w.instances.get i).id) with
    | none =>
      refine ⟨w.webapps, ?_, rfl, fun _ _ _ _ => rfl⟩
      rw [disableWebapp, exec_get_bind,
        exec_bind_ok (MaubotServer.exec_removeInstanceWebapp_none hroute), withWebapp, ← hroute,
        Function.update_eq_self]
      rfl
    | some app =>
      refine ⟨w.webapps.modify app fun a => { a with routes := [] }, ?_, rfl, fun a k hk ha => ?_⟩
      · rw [disableWebapp, exec_get_bind,
          exec_bind_ok (MaubotServer.exec_removeInstanceWebapp_some hroute)]
        rfl
      · refine Store.get_modify_ne _ _ fun he => hk ?_
        exact hw.1.routeInj _ _ a ha (by rw [hroute, he])
  obtain ⟨webapps, he, hnext, hsame⟩ := hexec
  rw [he]
  exact hw.withWebapp (Nat.le_of_eq hnext.symm) (by simp)
    (fun k a hk ha => ⟨by simp, by rw [hsame a k hk ha]⟩) (by simp)

end PluginInstance

end Maubot
