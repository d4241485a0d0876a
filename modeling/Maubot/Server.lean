import Maubot.World

namespace Maubot

open Prog

/-!
# The web server — web apps of instances

`get_instance_subapp` and `remove_instance_webapp` of `server.py`, and `clear` of
`plugin_server.py`.
-/

variable {L : Type} (S : Setup L)

namespace MaubotServer

/-- The key of `plugin_routes` for an instance. -/
def subpath (instanceId : String) : String := S.pluginBasePath ++ instanceId ++ "/"

/-- Two instances have the same path if they have the same id. -/
theorem subpath_inj {a b : String} : subpath S a = subpath S b ↔ a = b := by
  simp [subpath, ← String.toList_inj]

end MaubotServer

namespace PluginWebApp

def clear (app : Ref) : Action L Unit :=
  modify fun w => { w with webapps := w.webapps.modify app fun a => { a with routes := [] } }

/-- `add_route`; `refused` is aiohttp's answer to the path and the method. -/
def addRoute (app : Ref) (route : WebRoute) (refused : Option PyExc) : Action L Unit := do
  raiseIf refused
  modify fun w =>
    { w with webapps := w.webapps.modify app fun a => { a with routes := a.routes ++ [route] } }

end PluginWebApp

namespace MaubotServer

def getInstanceSubapp (instanceId : String) : Action L (Ref × String) := do
  let w ← world
  let url := S.publicUrl ++ subpath S instanceId
  match w.pluginRoutes (subpath S instanceId) with
  | some app => pure (app, url)
  | none     => do
    modify fun w =>
      { w with
        webapps := w.webapps.alloc {}
        pluginRoutes := Function.update w.pluginRoutes (subpath S instanceId) w.webapps.next }
    pure (w.webapps.next, url)

def removeInstanceWebapp (instanceId : String) : Action L Unit := do
  let w ← world
  match w.pluginRoutes (subpath S instanceId) with
  | none     => pure ()
  | some app => do
    modify fun w =>
      { w with pluginRoutes := Function.update w.pluginRoutes (subpath S instanceId) none }
    PluginWebApp.clear app

variable {S}

/-- A web app that is mounted is given again. -/
theorem exec_getInstanceSubapp_some {id : String} {app : Ref} {w : World L}
    (h : w.pluginRoutes (subpath S id) = some app) :
    (getInstanceSubapp S id).exec w = (.ok (app, S.publicUrl ++ subpath S id), w) := by
  rw [getInstanceSubapp, exec_get_bind, h]
  rfl

/-- A new web app has no routes. -/
theorem exec_getInstanceSubapp_none {id : String} {w : World L}
    (h : w.pluginRoutes (subpath S id) = none) :
    (getInstanceSubapp S id).exec w = (.ok (w.webapps.next, S.publicUrl ++ subpath S id),
      { w with
        webapps := w.webapps.alloc {}
        pluginRoutes := Function.update w.pluginRoutes (subpath S id) (some w.webapps.next) }) := by
  rw [getInstanceSubapp, exec_get_bind, h]
  rfl

/-- One that is mounted is taken off and cleared. -/
theorem exec_removeInstanceWebapp_some {id : String} {app : Ref} {w : World L}
    (h : w.pluginRoutes (subpath S id) = some app) :
    (removeInstanceWebapp S id).exec w = (.ok (),
      { w with
        webapps := w.webapps.modify app fun a => { a with routes := [] }
        pluginRoutes := Function.update w.pluginRoutes (subpath S id) none }) := by
  rw [removeInstanceWebapp, exec_get_bind, h]
  rfl

/-- Where none is mounted nothing happens. -/
theorem exec_removeInstanceWebapp_none {id : String} {w : World L}
    (h : w.pluginRoutes (subpath S id) = none) :
    (removeInstanceWebapp S id).exec w = (.ok (), w) := by
  rw [removeInstanceWebapp, exec_get_bind, h]
  rfl

end MaubotServer

end Maubot
