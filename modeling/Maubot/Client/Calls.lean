import Maubot.Runs

namespace Maubot

open Prog PluginInstance

/-!
# Clients — what the other calls do to them

A frame that looks only at clients (`AdmitsClients`) allows every call but those of the
methods of a client: the operations of instances (`AdmitsClients.op`), their creation by the
API, and changes of the plugin files (`AdmitsClients.exec`).
-/

namespace PluginInstance.AdmitsClients

variable {L : Type} {S : Setup L} {F : Frame (World L)}

/-! ### Operations of instances -/

/-- An instance may leave its loader, -/
theorem removeFromLoader (h : AdmitsClients S F) (i : Ref) : Keeps F (removeFromLoader S i) := by
  refine keeps_bind keeps_get fun w => ?_
  split
  · exact keeps_pure ()
  · split
    · exact h.keeps fun _ => ⟨rfl, rfl, rfl, rfl, rfl, .of_eq rfl⟩
    · exact keeps_bind (h.keeps fun _ => ⟨rfl, rfl, rfl, rfl, rfl, .of_eq rfl⟩) fun _ =>
        keeps_throw _

/-- and its client. -/
theorem removeFromClient (h : AdmitsClients S F) (i : Ref) : Keeps F (removeFromClient S i) := by
  refine keeps_bind keeps_get fun w => ?_
  split
  · exact keeps_pure ()
  · split
    · exact h.setReferences _ _
    · exact keeps_bind (h.keeps fun _ => ⟨rfl, rfl, rfl, rfl, rfl, .of_eq rfl⟩) fun _ =>
        keeps_throw _

/-- It may be added at a loader. -/
theorem addToLoader (h : AdmitsClients S F) (i l : Ref) : Keeps F (addToLoader S i l) :=
  keeps_bind keeps_get fun _ => h.keeps fun _ => ⟨rfl, rfl, rfl, rfl, rfl, .of_eq rfl⟩

/-- Its id may be updated, -/
theorem updateId (h : AdmitsClients S F) (i : Ref) (newId : Option String) :
    Keeps F (updateId S i newId) := by
  have hrename (n k : String) : Keeps F (renameRow n k) := by
    refine keeps_bind keeps_get fun w => ?_
    split
    · exact keeps_pure ()
    · exact keeps_ite (keeps_throw _) (h.keeps fun _ => ⟨rfl, rfl, rfl, rfl, rfl, .of_eq rfl⟩)
  refine keeps_bind keeps_get fun w => ?_
  cases newId with
  | none => exact keeps_pure ()
  | some n =>
    exact keeps_ite (keeps_pure ()) <|
      keeps_bind keeps_get fun _ => keeps_bind (hrename _ _) fun _ => h.assign i _

/-- its config, -/
theorem updateConfig (h : AdmitsClients S F) (i : Ref) (config : Option String) (onUpdate : Hook) :
    Keeps F (updateConfig i config onUpdate) := by
  have hnotify : Keeps F (notifyPlugin i onUpdate) := by
    refine keeps_bind keeps_get fun w => ?_
    split
    · exact (h.admits i).parts.runHook _ onUpdate
    · exact keeps_pure ()
  refine keeps_bind keeps_get fun w => ?_
  cases config with
  | none => exact keeps_pure ()
  | some c =>
    exact keeps_ite (keeps_pure ()) <| keeps_bind (h.assign i _) fun _ =>
      keeps_bind hnotify fun _ => h.update i

/-- its user, -/
theorem updatePrimaryUser (h : AdmitsClients S F) (i : Ref) (primaryUser : Option String)
    (env : StopEnv × StartEnv) : Keeps F (updatePrimaryUser S i primaryUser env) := by
  refine keeps_bind keeps_get fun w => ?_
  cases primaryUser with
  | none => exact keeps_pure _
  | some u =>
    refine keeps_ite (keeps_pure _) (keeps_bind (h.getClient u) fun r => ?_)
    cases r with
    | none => exact keeps_pure _
    | some c =>
      refine keeps_bind ?_ fun _ => keeps_pure _
      exact keeps_bind ((h.admits i).stop env.1) fun _ => keeps_bind keeps_get fun _ =>
        keeps_bind (h.assign i _) fun _ => keeps_bind (h.removeFromClient i) fun _ =>
        keeps_bind (h.assign i _) fun _ =>
        keeps_bind (keeps_bind keeps_get fun _ => h.setReferences c _) fun _ =>
        keeps_bind (h.update i) fun _ => (h.admits i).start env.2

/-- and its type. -/
theorem updateType (h : AdmitsClients S F) (i : Ref) (type : Option String)
    (env : StopEnv × StartEnv) : Keeps F (updateType S i type env) := by
  refine keeps_bind keeps_get fun w => ?_
  cases type with
  | none => exact keeps_pure _
  | some t =>
    refine keeps_ite (keeps_pure _) ?_
    split
    · exact keeps_pure _
    · next l _ =>
      refine keeps_bind ?_ fun _ => keeps_pure _
      exact keeps_bind ((h.admits i).stop env.1) fun _ => keeps_bind keeps_get fun _ =>
        keeps_bind (h.assign i _) fun _ => keeps_bind (h.removeFromLoader i) fun _ =>
        keeps_bind (h.assign i _) fun _ => keeps_bind (h.addToLoader i l) fun _ =>
        keeps_bind (h.update i) fun _ => (h.admits i).start env.2

/-- It may be deleted. -/
theorem delete (h : AdmitsClients S F) (i : Ref) (env : DeleteEnv) : Keeps F (delete S i env) :=
  keeps_bind (h.removeFromLoader i) fun _ => keeps_bind (h.removeFromClient i) fun _ =>
    keeps_bind (h.keeps fun _ => ⟨rfl, rfl, rfl, rfl, rfl, .of_eq rfl⟩) fun _ =>
    keeps_bind (keeps_bind (h.keeps fun _ => ⟨rfl, rfl, rfl, rfl, rfl, .of_eq rfl⟩)
      fun _ => h.assign i _)
      fun _ => (h.admits i).parts.deleteResources env

/-- It may be looked up, -/
theorem getInstance (h : AdmitsClients S F) (id : String) (type primaryUser : Option String) :
    Keeps F (PluginInstance.get id type primaryUser) := by
  have hfrom (row : InstanceRow) : Keeps F (fromRow id row) :=
    keeps_bind keeps_get fun _ =>
      keeps_bind (h.keeps fun _ => ⟨rfl, rfl, rfl, rfl, rfl, .of_eq rfl⟩) fun _ => keeps_pure _
  refine keeps_bind keeps_get fun w => ?_
  split
  · exact keeps_pure _
  · split
    · exact keeps_bind (hfrom _) fun _ => keeps_pure _
    · refine keeps_ite (keeps_bind ?_ fun _ => keeps_bind (hfrom _) fun _ => keeps_pure _)
        (keeps_pure _)
      exact keeps_bind keeps_get fun _ => keeps_ite (keeps_throw _) <|
        h.keeps fun _ => ⟨rfl, rfl, rfl, rfl, rfl, .of_eq rfl⟩

/-- **Operations of instances.** -/
theorem op (h : AdmitsClients S F) (op : PluginInstance.Op) (w : World L) :
    F.rel w (op.exec S w) := by
  cases op with
  | get id t u => exact h.getInstance id t u w
  | load i => exact (h.admits i).load w
  | start i env => exact (h.admits i).start env w
  | stop i env => exact (h.admits i).stop env w
  | updateId i n => exact h.updateId i n w
  | updatePrimaryUser i u env => exact h.updatePrimaryUser i u env w
  | updateType i t env => exact h.updateType i t env w
  | updateConfig i c onUpdate => exact h.updateConfig i c onUpdate w
  | updateEnabled i e => exact (h.admits i).updateEnabled e w
  | delete i env => exact h.delete i env w

/-! ### Calls -/

/-- and created. -/
theorem createInstance (h : AdmitsClients S F) (k : String) (data : NewInstance) (env : StartEnv) :
    Keeps F (createInstance S k data env) := by
  refine keeps_ite (keeps_pure _)
    (keeps_ite (keeps_pure _) (keeps_bind (h.getClient _) fun r => ?_))
  cases r with
  | none => exact keeps_pure _
  | some c =>
    refine keeps_bind keeps_get fun w => ?_
    split
    · exact keeps_pure _
    · refine keeps_bind (h.getInstance k _ _) fun r => ?_
      cases r with
      | none => exact keeps_throw _
      | some i =>
        refine keeps_bind ?_ fun _ => keeps_pure _
        exact keeps_bind (h.assign i _) fun _ => keeps_bind (h.update i) fun _ =>
          keeps_bind (h.admits i).load fun _ => (h.admits i).start env

/-- **Calls.**  What remains are the operations of clients. -/
theorem exec (h : AdmitsClients S F) (call : Call L) (w : World L)
    (hclient : ∀ op, call = .onClient op → F.rel w (op.exec S w)) : F.rel w (call.exec S w) := by
  cases call with
  | onInstance op => exact h.op op w
  | create k data env => exact h.createInstance k data env w
  | updateStarted i b env => exact (h.admits i).updateStarted b env w
  | updateDbEngine i e => exact (h.admits i).updateDbEngine e w
  | onClient op => exact hclient op rfl
  | loaders ls => exact h.kept ⟨rfl, rfl, rfl, rfl, rfl, .of_eq rfl⟩

end PluginInstance.AdmitsClients

end Maubot
