import Maubot.Instance.Frames

namespace Maubot

open Prog

/-!
# Plugins — what starting a plugin registers

* `StartEnv.script` — the registrations of `internal_start` in order, up to what it raises;
* `Registered` — the world after some registrations of one plugin;
* `Performs` — a program that performs a script; `performs_internalStart`.
-/

variable {L : Type}

namespace Plugin

/-- A step of a plugin's start. -/
inductive Step
  | event (eventType : EventType) (val : Ref)
  | route (r : WebRoute)
  | raise (e : PyExc)
  deriving DecidableEq, Repr

/-- The steps before the first exception. -/
def done : List Step → List Step
  | []             => []
  | .raise _ :: _  => []
  | s :: rest      => s :: done rest

/-- The first exception. -/
def raised : List Step → Option PyExc
  | []             => none
  | .raise e :: _  => some e
  | _ :: rest      => raised rest

/-- How a program that performs the script ends. -/
def ending (s : List Step) : Except PyExc Unit :=
  match raised s with
  | none   => .ok ()
  | some e => .error e

def Step.event? : Step → Option (EventType × Ref)
  | .event t val => some (t, val)
  | _            => none

def Step.route? : Step → Option WebRoute
  | .route r => some r
  | _        => none

/-- The event handlers that steps register. -/
def events (s : List Step) : List (EventType × Ref) := s.filterMap Step.event?

/-- The routes that steps register. -/
def routes (s : List Step) : List WebRoute := s.filterMap Step.route?

/-- No step registers nothing. -/
@[simp] theorem events_nil : events [] = [] := rfl

/-- A handler that is registered comes first. -/
@[simp] theorem events_event (t : EventType) (val : Ref) (s : List Step) :
    events (.event t val :: s) = (t, val) :: events s := rfl

/-- A route is no event handler. -/
@[simp] theorem events_route (r : WebRoute) (s : List Step) :
    events (.route r :: s) = events s := rfl

/-- The handlers of two scripts one after the other. -/
@[simp] theorem events_append (s t : List Step) : events (s ++ t) = events s ++ events t :=
  List.filterMap_append

/-- No step adds no route. -/
@[simp] theorem routes_nil : routes [] = [] := rfl

/-- An event handler is no route. -/
@[simp] theorem routes_event (t : EventType) (val : Ref) (s : List Step) :
    routes (.event t val :: s) = routes s := rfl

/-- A route that is added comes first. -/
@[simp] theorem routes_route (r : WebRoute) (s : List Step) :
    routes (.route r :: s) = r :: routes s := rfl

/-- The routes of two scripts. -/
@[simp] theorem routes_append (s t : List Step) : routes (s ++ t) = routes s ++ routes t :=
  List.filterMap_append

/-! ### The script of a start -/

def raiseStep (e : Option PyExc) : List Step :=
  match e with
  | none   => []
  | some e => [.raise e]

def webHandlerScript (val : Ref) (h : WebHandler) : List Step :=
  raiseStep h.refused ++ [.route { method := h.method, path := h.path, handler := val }]

/-- `webapp` tells whether the plugin has a web app. -/
def attributeScript (webapp : Bool) (a : Attribute) : List Step :=
  if a.gettable then
    a.eventTypes.map (.event · a.val) ++
      if webapp then a.webHandlers.flatMap (webHandlerScript a.val) else []
  else []

def hookScript (webapp : Bool) (h : Hook) : List Step :=
  h.registers.flatMap (·.flatMap (attributeScript webapp)) ++ raiseStep h.raises

end Plugin

/-- What `internal_start` does, in order. -/
def StartEnv.script (env : StartEnv) (webapp : Bool) : List Plugin.Step :=
  Plugin.hookScript webapp env.preStart ++
    (env.attributes.flatMap (Plugin.attributeScript webapp) ++ Plugin.hookScript webapp env.start)

namespace Plugin

/-! ### The world after some registrations -/

def handlerEntry (h : EventType × Ref) : EventType × Handler := (h.1, .plugin h.2)

def startupEntry (h : EventType × Ref) : Handler × EventType := (.plugin h.2, h.1)

/-- The plugin `p` has performed the steps `s`; settings of instances may have changed. -/
structure Registered (p : Ref) (s : List Step) (w w' : World L) : Prop where
  next          : w'.instances.next = w.instances.next
  instanceCache : w'.instanceCache = w.instanceCache
  core          : ∀ i, (w'.instances.get i).core = (w.instances.get i).core
  clients       : w'.clients = w.clients
  clientCache   : w'.clientCache = w.clientCache
  matrixClients : w'.matrixClients = w.matrixClients
  pluginRoutes  : w'.pluginRoutes = w.pluginRoutes
  nextHandlers  : w'.eventHandlers.next = w.eventHandlers.next
  nextPlugin    : w'.plugins.next = w.plugins.next
  nextWebapp    : w'.webapps.next = w.webapps.next
  others        : ∀ q, q ≠ p → w'.plugins.get q = w.plugins.get q
  plugin        : w'.plugins.get p = { w.plugins.get p with
    handlersAtStartup := (w.plugins.get p).handlersAtStartup ++ (events s).map startupEntry }
  handlers      : ∀ d, w'.eventHandlers.get d =
    if d = (w.matrixClients.get (w.plugins.get p).client).eventHandlers then
      w.eventHandlers.get d ++ (events s).map handlerEntry
    else w.eventHandlers.get d
  webapps       : ∀ a, (w'.webapps.get a).routes =
    if (w.plugins.get p).webapp = some a then (w.webapps.get a).routes ++ routes s
    else (w.webapps.get a).routes

/-- Nothing has been registered by no step. -/
theorem Registered.refl (p : Ref) (w : World L) : Registered p [] w w :=
  { next := rfl, instanceCache := rfl, core := fun _ => rfl, clients := rfl, clientCache := rfl
    matrixClients := rfl, pluginRoutes := rfl
    nextHandlers := rfl, nextPlugin := rfl, nextWebapp := rfl
    others := fun _ _ => rfl, plugin := by simp, handlers := fun _ => by simp
    webapps := fun _ => by simp }

/-- Two scripts register what both together do. -/
theorem Registered.trans {p : Ref} {s t : List Step} {w w' w'' : World L}
    (h : Registered p s w w') (h' : Registered p t w' w'') : Registered p (s ++ t) w w'' where
  next := h'.next.trans h.next
  instanceCache := h'.instanceCache.trans h.instanceCache
  core i := (h'.core i).trans (h.core i)
  clients := h'.clients.trans h.clients
  clientCache := h'.clientCache.trans h.clientCache
  matrixClients := h'.matrixClients.trans h.matrixClients
  pluginRoutes := h'.pluginRoutes.trans h.pluginRoutes
  nextHandlers := h'.nextHandlers.trans h.nextHandlers
  nextPlugin := h'.nextPlugin.trans h.nextPlugin
  nextWebapp := h'.nextWebapp.trans h.nextWebapp
  others q hq := (h'.others q hq).trans (h.others q hq)
  plugin := by
    rw [h'.plugin, h.plugin]
    simp [List.append_assoc]
  handlers d := by
    rw [h'.handlers, h.handlers, h.matrixClients, h.plugin]
    split <;> simp [List.append_assoc]
  webapps a := by
    rw [h'.webapps, h.webapps, h.plugin]
    split <;> simp [List.append_assoc]

/-! ### Programs that perform a script -/

/-- For a plugin with this web app (or none), the program performs the script up to its first
    exception, and raises that. -/
def Performs (p : Ref) (webapp : Option Ref) (s : List Step) (m : Action L Unit) : Prop :=
  ∀ w, (w.plugins.get p).webapp = webapp →
    ∃ w', m.exec w = (ending s, w') ∧ Registered p (done s) w w'

variable {p : Ref} {app? : Option Ref}

/-- `pure ()` performs nothing. -/
theorem performs_nil : Performs (L := L) p app? [] (pure ()) :=
  fun w _ => ⟨w, rfl, .refl p w⟩

/-- The second script is done if the first one does not raise. -/
theorem done_append (s t : List Step) :
    done (s ++ t) = match raised s with
      | none   => s ++ done t
      | some _ => done s := by
  induction s with
  | nil => rfl
  | cons x s ih =>
    cases x with
    | raise e => rfl
    | event t v => simp only [List.cons_append, done, raised, ih]; split <;> rfl
    | route r => simp only [List.cons_append, done, raised, ih]; split <;> rfl

/-- What is raised is what the first one raises, or else the second. -/
theorem raised_append (s t : List Step) :
    raised (s ++ t) = match raised s with
      | none   => raised t
      | some e => some e := by
  induction s with
  | nil => rfl
  | cons x s ih =>
    cases x with
    | raise e => rfl
    | event t v => exact ih
    | route r => exact ih

/-- A script that does not raise is done. -/
theorem done_of_raised_none {s : List Step} (h : raised s = none) : done s = s := by
  have := done_append s []
  rw [h, List.append_nil] at this
  simpa [done] using this

/-- Two programs perform their scripts one after the other. -/
theorem Performs.bind {s t : List Step} {m n : Action L Unit} (hm : Performs p app? s m)
    (hn : Performs p app? t n) : Performs p app? (s ++ t) (do m; n) := by
  intro w hw
  obtain ⟨w', he, hr⟩ := hm w hw
  cases hs : raised s with
  | some e =>
    refine ⟨w', ?_, ?_⟩
    · rw [exec_bind, he]
      simp [ending, raised_append, hs]
    · rw [done_append, hs]
      exact hr
  | none =>
    obtain ⟨w'', he', hr'⟩ := hn w' (by rw [hr.plugin]; exact hw)
    refine ⟨w'', ?_, ?_⟩
    · rw [exec_bind, he]
      simp [ending, raised_append, hs, he']
    · rw [done_append, hs]
      rw [done_of_raised_none hs] at hr
      exact hr.trans hr'

/-- A loop performs the scripts of its rounds. -/
theorem performs_forM {α : Type} {f : α → Action L Unit} {g : α → List Step} (l : List α)
    (h : ∀ a ∈ l, Performs p app? (g a) (f a)) : Performs p app? (l.flatMap g) (l.forM f) := by
  induction l with
  | nil => exact performs_nil
  | cons a l ih =>
    rw [List.flatMap_cons]
    exact (h a (by simp)).bind (ih fun x hx => h x (by simp [hx]))

/-- An exception is performed by raising it. -/
theorem performs_raiseIf (e : Option PyExc) :
    Performs (L := L) p app? (raiseStep e) (raiseIf e) := by
  intro w _
  cases e with
  | none => exact ⟨w, rfl, .refl p w⟩
  | some e => exact ⟨w, rfl, .refl p w⟩

/-- A quiet program that does not raise registers nothing. -/
theorem performs_of_quiet {S : Setup L} {m : Action L Unit}
    (hm : Keeps (PluginInstance.Quiet S) m) (hr : Returns m) : Performs p app? [] m := by
  intro w _
  obtain ⟨_, hok⟩ := hr.exists_ok w
  have h := hm w
  refine ⟨_, Prod.ext hok rfl, ?_⟩
  exact
    { next := h.next, instanceCache := h.instanceCache, core := h.core, clients := h.clients
      clientCache := h.clientCache, matrixClients := h.matrixClients, pluginRoutes := h.pluginRoutes
      nextHandlers := by rw [h.eventHandlers], nextPlugin := by rw [h.plugins]
      nextWebapp := by rw [h.webapps], others := fun q _ => by rw [h.plugins]
      plugin := by rw [h.plugins]; simp [done]
      handlers := fun d => by rw [h.eventHandlers]; simp [done]
      webapps := fun a => by rw [h.webapps]; simp [done] }

/-- A config that is saved registers nothing. -/
theorem performs_saveConfig (S : Setup L) (i : Ref) (val : String) :
    Performs p app? [] (PluginInstance.saveConfig i val : Action L Unit) := by
  refine performs_of_quiet (S := S) (PluginInstance.quiet_saveConfig i val) ?_
  exact raises_bind raises_get fun _ => raises_ite (raises_pure ()) <|
    raises_bind (raises_modify _) fun _ => raises_bind (returns_attempt _) fun _ =>
    raises_pure ()

/-- What a registration does to the plugin object and the client. -/
theorem exec_registerEventHandler (val : Ref) (t : EventType) (w : World L) :
    (registerEventHandler p val t).exec w = (.ok (),
      { w with
        plugins := w.plugins.modify p fun pl =>
          { pl with handlersAtStartup := pl.handlersAtStartup ++ [(.plugin val, t)] }
        eventHandlers := w.eventHandlers.modify
          (w.matrixClients.get (w.plugins.get p).client).eventHandlers
          (· ++ [(t, .plugin val)]) }) := by
  simp [registerEventHandler, setPlugin, addEventHandler]

/-- It performs one step. -/
theorem performs_registerEventHandler (val : Ref) (t : EventType) :
    Performs (L := L) p app? [.event t val] (registerEventHandler p val t) := by
  intro w _
  refine ⟨_, exec_registerEventHandler val t w, ?_⟩
  exact
    { Registered.refl p w with
      others := fun q hq => by rw [Store.get_modify_ne _ _ hq]
      plugin := by simp [done, startupEntry]
      handlers := fun d => by simp [Store.get_modify, done, handlerEntry]
      webapps := fun a => by simp [done] }

/-- So does a route that is added. -/
theorem performs_addRoute {app : Ref} (val : Ref) (h : WebHandler) :
    Performs (L := L) p (some app) (webHandlerScript val h)
      (PluginWebApp.addRoute app { method := h.method, path := h.path, handler := val }
        h.refused) := by
  intro w hw
  unfold webHandlerScript
  cases h.refused with
  | some e => exact ⟨w, rfl, .refl p w⟩
  | none =>
    refine ⟨_, rfl, ?_⟩
    exact
      { Registered.refl p w with
        plugin := by simp [done, raiseStep]
        handlers := fun d => by simp [done, raiseStep]
        webapps := fun a => by
          rw [hw, Store.get_modify]
          by_cases ha : a = app
          · simp [ha, done, raiseStep]
          · simp [ha, Ne.symm ha] }

/-- The web handlers of an attribute, if there is a web app. -/
theorem performs_registerWebHandlers (val : Ref) (handlers : List WebHandler) :
    Performs (L := L) p app?
      (if app?.isSome then handlers.flatMap (webHandlerScript val) else [])
      (registerWebHandlers p val handlers) := by
  intro w hw
  rw [registerWebHandlers, exec_get_bind, hw]
  cases app? with
  | none => exact ⟨w, rfl, .refl p w⟩
  | some app => exact performs_forM handlers (fun h _ => performs_addRoute val h) w hw

/-- The handlers of one attribute, -/
theorem performs_registerAttribute (a : Attribute) :
    Performs (L := L) p app? (attributeScript app?.isSome a) (registerAttribute p a) := by
  unfold attributeScript registerAttribute
  split
  · rw [List.map_eq_flatMap]
    exact (performs_forM a.eventTypes fun t _ => performs_registerEventHandler a.val t).bind
      (performs_registerWebHandlers a.val a.webHandlers)
  · exact performs_nil

/-- and those of an object, attribute by attribute. -/
theorem performs_registerHandlerClass (obj : List Attribute) :
    Performs (L := L) p app? (obj.flatMap (attributeScript app?.isSome))
      (registerHandlerClass p obj) :=
  performs_forM obj fun a _ => performs_registerAttribute a

/-- A hook performs what it registers. -/
theorem performs_runHook (S : Setup L) (i : Ref) (h : Hook) :
    Performs p app? (hookScript app?.isSome h)
      (runHook (PluginInstance.saveConfig i) p h : Action L Unit) := by
  have hsaves : Performs p app? (h.saves.flatMap fun _ => [])
      (h.saves.forM (PluginInstance.saveConfig i) : Action L Unit) :=
    performs_forM h.saves fun val _ => performs_saveConfig S i val
  rw [List.flatMap_eq_nil_iff.mpr (fun _ _ => rfl)] at hsaves
  exact (performs_forM h.registers fun obj _ => performs_registerHandlerClass obj).bind
    (hsaves.bind (performs_raiseIf h.raises))

/-- **What a start registers.** -/
theorem performs_internalStart (S : Setup L) (i : Ref) (env : StartEnv) :
    Performs p app? (env.script app?.isSome)
      (internalStart (PluginInstance.saveConfig i) p env.attributes env.preStart env.start :
        Action L Unit) :=
  (performs_runHook S i env.preStart).bind
    ((performs_registerHandlerClass env.attributes).bind (performs_runHook S i env.start))

end Plugin

end Maubot
