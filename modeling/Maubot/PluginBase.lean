import Maubot.Server

namespace Maubot

open Prog

/-!
# Plugins — registration of handlers, internal start and stop

`plugin_base.py`.  What a plugin's own code does in a hook is data: the objects it passes
to `register_handler_class`, the texts it has its config saved with, and what it raises.
The scheduler is left out.
-/

variable {L : Type}

/-- A web handler of an attribute, with aiohttp's answer to `add_route`. -/
structure WebHandler where
  method  : String
  path    : String
  refused : Option PyExc := none
  deriving DecidableEq, Repr

/-- An attribute that `dir(obj)` lists. -/
structure Attribute where
  /-- the identity of the value -/
  val         : Ref
  /-- `getattr` does not raise `AttributeError` -/
  gettable    : Bool := true
  /-- `__mb_event_types__` if `__mb_event_handler__` is set, else empty -/
  eventTypes  : List EventType := []
  /-- `__mb_web_handler__`, empty if there is none -/
  webHandlers : List WebHandler := []
  deriving DecidableEq, Repr

/-- What a hook of a plugin does. -/
structure Hook where
  registers : List (List Attribute) := []
  saves     : List String := []
  raises    : Option PyExc := none
  deriving DecidableEq, Repr

namespace Plugin

def registerEventHandler (p : Ref) (val : Ref) (eventType : EventType) : Action L Unit := do
  setPlugin p fun pl =>
    { pl with handlersAtStartup := pl.handlersAtStartup ++ [(.plugin val, eventType)] }
  let w ← world
  addEventHandler (w.plugins.get p).client eventType (.plugin val)

def registerWebHandlers (p : Ref) (val : Ref) (handlers : List WebHandler) : Action L Unit := do
  let w ← world
  match (w.plugins.get p).webapp with
  | none     => pure ()
  | some app => handlers.forM fun h =>
    PluginWebApp.addRoute app { method := h.method, path := h.path, handler := val } h.refused

def registerAttribute (p : Ref) (a : Attribute) : Action L Unit :=
  if a.gettable then do
    a.eventTypes.forM (registerEventHandler p a.val)
    registerWebHandlers p a.val a.webHandlers
  else pure ()

def registerHandlerClass (p : Ref) (obj : List Attribute) : Action L Unit :=
  obj.forM (registerAttribute p)

/-- A hook of the plugin `p`, whose config is written by `saveConfig`. -/
def runHook (saveConfig : String → Action L Unit) (p : Ref) (h : Hook) : Action L Unit := do
  h.registers.forM (registerHandlerClass p)
  h.saves.forM saveConfig
  raiseIf h.raises

/-- `attributes` is `dir(self)`. -/
def internalStart (saveConfig : String → Action L Unit) (p : Ref) (attributes : List Attribute)
    (preStart start : Hook) : Action L Unit := do
  runHook saveConfig p preStart
  registerHandlerClass p attributes
  runHook saveConfig p start

def removeHandlers (p : Ref) : Action L Unit := do
  let w ← world
  (w.plugins.get p).handlersAtStartup.forM fun h =>
    removeEventHandler (w.plugins.get p).client h.2 h.1

def clearWebapp (p : Ref) : Action L Unit := do
  let w ← world
  match (w.plugins.get p).webapp with
  | none     => pure ()
  | some app => PluginWebApp.clear app

def internalStop (p : Ref) (preStop stop : Option PyExc) : Action L Unit := do
  raiseIf preStop
  removeHandlers p
  clearWebapp p
  raiseIf stop

end Plugin

end Maubot
