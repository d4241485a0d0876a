import Maubot.Client.Operations
import Maubot.Instance.Cache

namespace Maubot

open Prog

/-!
# Deletions that the database refuses

`Client.delete` and `PluginInstance.delete` take the object out of the cache and out of the
reference sets before they run the `DELETE` statement.

* `Intact w w'` — caches, reference sets, objects and rows are what they were;
* `intact_iff_detached` — after a refused statement they are so just for an object that no
  set and no cache had to forget.
-/

variable {L : Type} {S : Setup L}

/-- The caches, the reference sets, the objects and the tables are what they were. -/
structure Intact (w w' : World L) : Prop where
  instanceCache    : w'.instanceCache = w.instanceCache
  clientCache      : w'.clientCache = w.clientCache
  loaderReferences : w'.loaderReferences = w.loaderReferences
  clients          : w'.clients = w.clients
  instances        : w'.instances = w.instances
  instanceRows     : w'.instanceRows = w.instanceRows
  clientRows       : w'.clientRows = w.clientRows

/-- Nothing has happened. -/
theorem Intact.refl (w : World L) : Intact w w := ⟨rfl, rfl, rfl, rfl, rfl, rfl, rfl⟩

/-- What is taken out of a set was in it. -/
theorem PySet.ne_of_remove {α : Type} [DecidableEq α] {hash : α → Int} {eqv : α → α → Bool}
    {s t : PySet α} {x : α} (h : PySet.remove? hash eqv s x = some t) : t ≠ s := by
  rw [PySet.remove?] at h
  split at h
  · next hcontains =>
    obtain rfl := Option.some.inj h
    obtain ⟨e, he, hhit⟩ := List.any_eq_true.mp hcontains
    have hlen := List.length_eraseP_of_mem he hhit
    have hpos := List.length_pos_of_mem he
    intro heq
    rw [heq] at hlen
    omega
  · cases h

namespace Client

/-- **A refused deletion of a client.**  It stays as it was just if the cache did not have
    its id. -/
theorem intact_delete_iff (w : World L) (c : Ref) (refused : PyExc) :
    Intact w ((delete c (some refused)).exec w).2 ↔ w.clientCache (w.clients.get c).id = none := by
  show Intact w { w with
    clientCache := Function.update w.clientCache (w.clients.get c).id none } ↔ _
  constructor
  · intro h
    have hcache := congrFun h.clientCache (w.clients.get c).id
    rw [← hcache]
    exact Function.update_self _ _ _
  · intro h
    refine { Intact.refl w with clientCache := ?_ }
    show Function.update w.clientCache _ none = w.clientCache
    rw [← h, Function.update_eq_self]

end Client

namespace PluginInstance

/-- `delete` up to the `DELETE` statement. -/
def dismantle (S : Setup L) (i : Ref) : Action L Unit := do
  removeFromLoader S i
  removeFromClient S i
  modify fun w =>
    { w with instanceCache := Function.update w.instanceCache (w.instances.get i).id none }

/-- `delete`, where the database may refuse the statement. -/
def deleteUnless (S : Setup L) (i : Ref) (refused : Option PyExc) (env : DeleteEnv) :
    Action L Unit := do
  dismantle S i
  raiseIf refused
  deleteRow i
  deleteResources S i env

/-- A statement that is not refused makes it `delete`. -/
theorem deleteUnless_none (i : Ref) (env : DeleteEnv) :
    deleteUnless S i none env = delete S i env := by
  simp [deleteUnless, dismantle, delete, raiseIf]

/-- Nothing has to forget the instance. -/
structure Detached (w : World L) (i : Ref) : Prop where
  loader : (w.instances.get i).loader = none
  client : (w.instances.get i).client = none
  cache  : w.instanceCache (w.instances.get i).id = none

/-- Dismantling a detached instance does nothing. -/
theorem dismantle_of_detached {w : World L} {i : Ref} (h : Detached w i) :
    (dismantle S i).exec w = (.ok (), w) := by
  have hloader : (removeFromLoader S i).exec w = (.ok (), w) := by
    simp [removeFromLoader, h.loader]
  have hclient : (removeFromClient S i).exec w = (.ok (), w) := by
    simp [removeFromClient, h.client]
  rw [dismantle, exec_bind_ok hloader, exec_bind_ok hclient, exec_modify]
  have hcache : Function.update w.instanceCache (w.instances.get i).id none = w.instanceCache := by
    rw [← h.cache, Function.update_eq_self]
  rw [hcache]

/-- An instance that leaves its loader changes its references, -/
theorem exec_removeFromLoader {w w' : World L} {i : Ref}
    (h : (removeFromLoader S i).exec w = (.ok (), w')) :
    ((w.instances.get i).loader = none ∧ w' = w) ∨
      ∃ l s, s ≠ w.loaderReferences l ∧
        w' = { w with loaderReferences := Function.update w.loaderReferences l s } := by
  rw [removeFromLoader, exec_get_bind] at h
  split at h
  · next hnone => exact Or.inl ⟨hnone, (congrArg Prod.snd h).symm⟩
  · next l _ =>
    split at h
    · next s hs =>
      exact Or.inr ⟨l, s, PySet.ne_of_remove hs, (congrArg Prod.snd h).symm⟩
    · cases h

/-- and so at its client. -/
theorem exec_removeFromClient {w w' : World L} {i : Ref}
    (h : (removeFromClient S i).exec w = (.ok (), w')) :
    ((w.instances.get i).client = none ∧ w' = w) ∨
      ∃ c s, s ≠ (w.clients.get c).references ∧ w' = { w with
        clients := w.clients.modify c fun cl => { cl with references := s } } := by
  rw [removeFromClient, exec_get_bind] at h
  split at h
  · next hnone => exact Or.inl ⟨hnone, (congrArg Prod.snd h).symm⟩
  · next c _ =>
    split at h
    · next s hs =>
      exact Or.inr ⟨c, s, PySet.ne_of_remove hs, (congrArg Prod.snd h).symm⟩
    · cases h

/-- **A refused deletion of an instance.**  If the statement is reached, the instance stays as
    it was just if nothing had to forget it. -/
theorem intact_deleteUnless_iff {w w' : World L} {i : Ref}
    (h : (dismantle S i).exec w = (.ok (), w'))
    (refused : PyExc) (env : DeleteEnv) :
    Intact w ((deleteUnless S i (some refused) env).exec w).2 ↔ Detached w i := by
  have hrun : ((deleteUnless S i (some refused) env).exec w).2 = w' := by
    rw [deleteUnless, exec_bind_ok h]
    rfl
  rw [hrun]
  constructor
  · intro hintact
    obtain ⟨_, w₁, h₁, h⟩ := exec_bind_eq_ok h
    obtain ⟨_, w₂, h₂, h⟩ := exec_bind_eq_ok h
    obtain rfl : _ = w' := congrArg Prod.snd h
    -- the loader's set has lost the instance, unless there is no loader
    rcases exec_removeFromLoader h₁ with ⟨hloader, rfl⟩ | ⟨l, s, hs, rfl⟩
    · rcases exec_removeFromClient h₂ with ⟨hclient, rfl⟩ | ⟨c, s, hs, rfl⟩
      · refine ⟨hloader, hclient, ?_⟩
        rw [← congrFun hintact.instanceCache (w₂.instances.get i).id]
        exact Function.update_self _ _ _
      · have hclients := congrArg (fun s => (s.get c).references) hintact.clients
        refine absurd ?_ hs
        rw [← hclients]
        exact (congrArg Client.references (Store.get_modify_self w₁.clients c
          fun cl => { cl with references := s })).symm
    · have hreferences := congrFun hintact.loaderReferences l
      refine absurd ?_ hs
      rw [← hreferences]
      rcases exec_removeFromClient h₂ with ⟨-, rfl⟩ | ⟨c, t, -, rfl⟩ <;>
        exact (Function.update_self l s w.loaderReferences).symm
  · intro hdetached
    rw [dismantle_of_detached hdetached] at h
    obtain rfl : w = w' := congrArg Prod.snd h
    exact Intact.refl w

/-- **Refused deletions.**  In every state, a `DELETE` that fails leaves caches, sets and
    objects as they were just if the client's id is not in the cache, or nothing holds the
    instance; so never for an object that the cache has. -/
theorem intact_iff_detached {w w' : World L} {i : Ref} (h : (dismantle S i).exec w = (.ok (), w'))
    (c : Ref) (refused : PyExc) (env : DeleteEnv) :
    (Intact w ((Client.delete c (some refused)).exec w).2 ↔
      w.clientCache (w.clients.get c).id = none) ∧
    (Intact w ((deleteUnless S i (some refused) env).exec w).2 ↔ Detached w i) :=
  ⟨Client.intact_delete_iff w c refused, intact_deleteUnless_iff h refused env⟩

end PluginInstance

/-! ### The client that an instance still names -/

namespace InstanceTest

open PluginInstance

/-- The client of the instance `a` has been looked up too. -/
def bothFound : World Unit := ((Client.get setup "@bot:example.com" none none none).exec found).2

/-- The foreign key of the instance rows refuses it. -/
def stillReferenced : PyExc := { cls := .integrityError }

/-- Both deletions of objects in the cache forget them while their rows stay. -/
theorem refused_not_intact :
    ¬ (∀ (w : World Unit) (c : Ref) (e : PyExc),
        Intact w ((Client.delete c (some e)).exec w).2) ∧
    ¬ (∀ (w : World Unit) (i : Ref) (e : PyExc) (env : DeleteEnv),
        Intact w ((deleteUnless setup i (some e) env).exec w).2) := by
  constructor
  · intro h
    have hcache := congrFun (h bothFound 0 stillReferenced).clientCache "@bot:example.com"
    exact absurd hcache (by decide +kernel)
  · intro h
    have hcache := congrFun (h bothFound 0 stillReferenced {}).instanceCache "a"
    exact absurd hcache (by decide +kernel)

/-- The statement is reached for the instance `a`. -/
theorem bothFound_not_intact :
    ¬ Intact bothFound ((Client.delete 0 (some stillReferenced)).exec bothFound).2 ∧
    ¬ Intact bothFound
      ((deleteUnless setup 0 (some stillReferenced) {}).exec bothFound).2 := by
  have hreached : (dismantle setup 0).exec bothFound =
      (.ok (), ((dismantle setup 0).exec bothFound).2) := by rfl
  obtain ⟨hclient, hinstance⟩ := intact_iff_detached hreached 0 stillReferenced {}
  constructor
  · rw [hclient]
    decide +kernel
  · rw [hinstance]
    exact fun hd => absurd hd.cache (by decide +kernel)

end InstanceTest

end Maubot
