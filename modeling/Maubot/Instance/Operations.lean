import Maubot.Instance.Frames
import Maubot.Lib.Runs

namespace Maubot

open Prog

/-!
# Plugin instances — runs of complete operations

The operations as data, for runs in which each call ends before the next one begins.  A
caller holds the objects that `get` returned and that have not been deleted since.
-/

variable {L : Type} (S : Setup L)

namespace PluginInstance

/-- The object has been made and not been deleted. -/
def Live (w : World L) (i : Ref) : Prop :=
  i < w.instances.next ∧ (w.instances.get i).deleted = false

instance (w : World L) (i : Ref) : Decidable (Live w i) := by
  unfold Live; infer_instance

/-- A complete operation. -/
inductive Op
  | get (instanceId : String) (type primaryUser : Option String)
  | load (i : Ref)
  | start (i : Ref) (env : StartEnv)
  | stop (i : Ref) (env : StopEnv)
  | updateId (i : Ref) (newId : Option String)
  | updatePrimaryUser (i : Ref) (primaryUser : Option String) (env : StopEnv × StartEnv)
  | updateType (i : Ref) (type : Option String) (env : StopEnv × StartEnv)
  | updateConfig (i : Ref) (config : Option String) (onUpdate : Hook)
  | updateEnabled (i : Ref) (enabled : Option Bool)
  | delete (i : Ref) (env : DeleteEnv)

namespace Op

/-- The object that the operation is called on. -/
def target : Op → Option Ref
  | .get ..                  => none
  | .load i                  => some i
  | .start i _               => some i
  | .stop i _                => some i
  | .updateId i _            => some i
  | .updatePrimaryUser i _ _ => some i
  | .updateType i _ _        => some i
  | .updateConfig i _ _      => some i
  | .updateEnabled i _       => some i
  | .delete i _              => some i

/-- The world after the operation, whether it returned or raised. -/
def exec (op : Op) (w : World L) : World L :=
  match op with
  | .get id t u                => ((PluginInstance.get id t u).exec w).2
  | .load i                    => ((PluginInstance.load S i).exec w).2
  | .start i env               => ((PluginInstance.start S i env).exec w).2
  | .stop i env                => ((PluginInstance.stop i env).exec w).2
  | .updateId i n              => ((PluginInstance.updateId S i n).exec w).2
  | .updatePrimaryUser i u env => ((PluginInstance.updatePrimaryUser S i u env).exec w).2
  | .updateType i t env        => ((PluginInstance.updateType S i t env).exec w).2
  | .updateConfig i c onUpdate => ((PluginInstance.updateConfig i c onUpdate).exec w).2
  | .updateEnabled i e         => ((PluginInstance.updateEnabled i e).exec w).2
  | .delete i env              => ((PluginInstance.delete S i env).exec w).2

/-- The caller holds the object. -/
def Held (w : World L) (op : Op) : Prop := ∀ i, op.target = some i → Live w i

/-- The operation renames its object: an `update_id` to a new id that is free. -/
def Renames (w : World L) : Op → Prop
  | .updateId i (some n) =>
    S.lower n ≠ (w.instances.get i).id ∧ w.instanceRows (S.lower n) = none
  | _ => False

end Op

/-! ### What `get` does -/

/-- An object that is made from a row is the next one. -/
theorem exec_fromRow (id : String) (row : InstanceRow) (w : World L) :
    (fromRow id row).exec w = (.ok w.instances.next, ((fromRow id row).exec w).2) := rfl

/-- An insertion is refused, or the row is there, and its client has one. -/
theorem exec_insertRow (id : String) (row : InstanceRow) (w : World L) :
    (∃ e, (insertRow id row).exec w = (.error e, w)) ∨
      (w.clientRows row.primaryUser).isSome = true ∧ (insertRow id row).exec w =
        (.ok (), { w with instanceRows := Function.update w.instanceRows id (some row) }) := by
  unfold insertRow
  rw [exec_get_bind]
  split
  · exact Or.inl ⟨_, rfl⟩
  · next h =>
    rw [Bool.or_eq_true, not_or, Option.isNone_iff_eq_none] at h
    exact Or.inr ⟨Option.isSome_iff_ne_none.mpr h.2, rfl⟩

/-- `get` changes nothing, or makes an object for a row that has none, which may be a new
    row. -/
theorem exec_get_cases (id : String) (t u : Option String) (w : World L) :
    ((get id t u).exec w).2 = w ∨
    (∃ row, w.instanceCache id = none ∧ w.instanceRows id = some row ∧
      ((get id t u).exec w).2 = ((fromRow id row).exec w).2) ∨
    (∃ row, w.instanceCache id = none ∧ w.instanceRows id = none ∧
      (w.clientRows row.primaryUser).isSome = true ∧
      ((get id t u).exec w).2 = ((fromRow id row).exec
        { w with instanceRows := Function.update w.instanceRows id (some row) }).2) := by
  cases hc : w.instanceCache id with
  | some i => exact Or.inl (by simp [get, hc])
  | none =>
    cases hrow : w.instanceRows id with
    | some row =>
      refine Or.inr (Or.inl ⟨row, rfl, rfl, ?_⟩)
      simp only [get, exec_get_bind, hc, hrow]
      rw [exec_bind_ok (exec_fromRow id row w), exec_pure]
    | none =>
      -- without a row one is made, if type and user are given
      by_cases hcreate : (truthy t && truthy u) = true
      · let row : InstanceRow :=
          { type := t.getD "", enabled := true, primaryUser := u.getD "" }
        have hget : (get id t u).exec w =
            (do insertRow id row; let i ← fromRow id row; pure (some i) : Action L _).exec w := by
          simp only [get, exec_get_bind, hc, hrow, if_pos hcreate]
          rfl
        rw [hget]
        -- the insertion is refused where the user has no row
        rcases exec_insertRow id row w with ⟨e, he⟩ | ⟨huser, hok⟩
        · rw [exec_bind_error he]
          exact Or.inl rfl
        · rw [exec_bind_ok hok]
          exact Or.inr (Or.inr ⟨row, rfl, rfl, huser, rfl⟩)
      · exact Or.inl (by simp [get, hc, hrow, hcreate])

/-- The program has just started: no objects, empty caches, any rows. -/
structure Startup (w : World L) : Prop where
  instances     : w.instances.next = 0
  instanceCache : w.instanceCache = fun _ => none
  clients       : w.clients.next = 0
  clientCache   : w.clientCache = fun _ => none
  references    : w.loaderReferences = fun _ => []

end PluginInstance

/-! ### A small installation -/

namespace InstanceTest

open PluginInstance

/-- One loader, for the type `plugin`, whose plugin uses no database and no web app. -/
def loaders : LoaderImpl Unit where
  find _ type := if type = "plugin" then some 0 else none
  metaOf _ _ :=
    { id := "plugin", version := ⟨"1.0.0"⟩, modules := ["plugin"], mainClass := "Bot",
      maubot := ⟨"0.1.0"⟩ }
  load _ := pure 0
  load_find _ _ := rfl
  load_meta _ _ := rfl

/-- The ids of the tests are lower case already. -/
def setup : Setup Unit where
  hash s := s.toList.foldl (fun h c => 31 * h + c.toNat) 7
  lower s := s
  pluginBasePath := "/_matrix/maubot/plugin/"
  publicUrl := "https://example.com"
  pluginPostgresDb := false
  cryptoDb := false
  loaders := loaders

def clientRow : ClientRow where
  homeserver := some "https://matrix.example.com"
  accessToken := some "token"
  deviceId := ""
  enabled := true

def instanceRow : InstanceRow where
  type := "plugin"
  enabled := true
  primaryUser := "@bot:example.com"

/-- The program has just started; the tables hold a client and the instance `a`. -/
def startup : World Unit where
  instances := ⟨fun _ => { id := "", type := "", enabled := false, primaryUser := "" }, 0⟩
  instanceCache := fun _ => none
  instanceRows := fun id => if id = "a" then some instanceRow else none
  clients := ⟨fun _ => { id := "", row := clientRow, client := 0 }, 0⟩
  clientCache := fun _ => none
  clientRows := fun id => if id = "@bot:example.com" then some clientRow else none
  matrixClients := ⟨fun _ =>
    { mxid := "", baseUrl := none, token := none, deviceId := "", eventHandlers := 0 }, 0⟩
  eventHandlers := ⟨fun _ => [], 0⟩
  plugins := ⟨fun _ =>
    { cls := 0, client := 0, instanceId := "", config := false, database := none, loader := 0,
      webapp := none, webappUrl := none }, 0⟩
  webapps := ⟨fun _ => {}, 0⟩
  pluginRoutes := fun _ => none
  loaderReferences := fun _ => []
  loaders := ()

/-- The program has just started. -/
theorem startup_startup : PluginInstance.Startup startup := by
  constructor <;> rfl

/-- The instance `a` has been looked up. -/
def found : World Unit := Op.exec setup (Op.get "a" none none) startup

/-- `on_external_config_update` of a plugin that saves another text and then raises -/
def reluctant : Hook where
  saves := ["old"]
  raises := some { cls := .valueError }

/-- It has been started. -/
def launched : World Unit := Op.exec setup (Op.start 0 {}) found

/-- It has been given a config that its plugin refuses. -/
def refused : World Unit := Op.exec setup (Op.updateConfig 0 (some "new") reluctant) launched

/-- It has been given the id that it has. -/
def unrenamed : World Unit := Op.exec setup (Op.updateId 0 (some "a")) refused

/-- It has been deleted. -/
def removed : World Unit := Op.exec setup (Op.delete 0 {}) unrenamed

/-- An id that the instance has renames nothing. -/
theorem not_renames_refused : ¬ Op.Renames setup refused (.updateId 0 (some "a")) :=
  fun h => h.1 (by decide +kernel)

end InstanceTest

end Maubot
