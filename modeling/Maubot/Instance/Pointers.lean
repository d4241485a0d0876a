import Maubot.Client.Lookup
import Maubot.Instance.Frames
import Maubot.Instance.Steps

namespace Maubot

open Prog

/-!
# Plugin instances — what a running plugin rests on

A plugin is handed the Matrix client of its instance's client when it is made, and keeps it.

* `Acting w` — every started instance has a plugin with the Matrix client that the instance's
  client has now;
* `PointersKept`, `Pointers L i` — the frame of a step that leaves alone what this rests on; it
  allows the steps that neither find a client nor make, start or drop a plugin
  (`parts_pointers`).
-/

variable {L : Type} {S : Setup L}

namespace PluginInstance

/-! ### The property -/

/-- What a running plugin rests on. -/
def pointers (inst : PluginInstance) : Bool × Option Ref × Option Ref :=
  (inst.started, inst.plugin, inst.client)

/-- The plugin of the instance acts through the Matrix client of the instance's client. -/
def ActsForClient (w : World L) (i : Ref) : Prop :=
  ∃ p c, (w.instances.get i).plugin = some p ∧ (w.instances.get i).client = some c ∧
    (w.plugins.get p).client = (w.clients.get c).client

/-- Started instances act for their clients, and references are to objects that exist. -/
structure Acting (w : World L) : Prop where
  client        : ∀ i c, i < w.instances.next → (w.instances.get i).client = some c →
    c < w.clients.next
  plugin        : ∀ i p, i < w.instances.next → (w.instances.get i).plugin = some p →
    p < w.plugins.next
  references    : ∀ c i, c < w.clients.next → i ∈ (w.clients.get c).references.elems →
    i < w.instances.next
  clientCache   : ∀ u c, w.clientCache u = some c → c < w.clients.next
  instanceCache : ∀ k i, w.instanceCache k = some i → i < w.instances.next
  acts          : ∀ i, i < w.instances.next → (w.instances.get i).started = true →
    ActsForClient w i

variable {w w' w'' : World L} {i : Ref}

/-! ### Steps that leave the pointers alone -/

/-- The objects that there were point to the same ones, and new instances to none. -/
structure PointersKept (w w' : World L) : Prop where
  instances     : w.instances.next ≤ w'.instances.next
  clients       : w.clients.next ≤ w'.clients.next
  plugins       : w.plugins.next ≤ w'.plugins.next
  pointers      : ∀ j, j < w.instances.next →
    (w'.instances.get j).pointers = (w.instances.get j).pointers
  fresh         : ∀ j, w.instances.next ≤ j → j < w'.instances.next →
    (w'.instances.get j).pointers = (false, none, none)
  client        : ∀ c, c < w.clients.next → (w'.clients.get c).client = (w.clients.get c).client
  plugin        : ∀ p, p < w.plugins.next → (w'.plugins.get p).client = (w.plugins.get p).client
  references    : ∀ c j, c < w'.clients.next → j ∈ (w'.clients.get c).references.elems →
    (c < w.clients.next ∧ j ∈ (w.clients.get c).references.elems) ∨ j < w'.instances.next
  clientCache   : ∀ u c, w'.clientCache u = some c → w.clientCache u = some c ∨ c < w'.clients.next
  instanceCache : ∀ k j, w'.instanceCache k = some j →
    w.instanceCache k = some j ∨ j < w'.instances.next

/-- All pointers are kept over no step. -/
theorem PointersKept.refl (w : World L) : PointersKept w w where
  instances := Nat.le_refl _
  clients := Nat.le_refl _
  plugins := Nat.le_refl _
  pointers _ _ := rfl
  fresh _ hj hj' := absurd (Nat.lt_of_lt_of_le hj' hj) (Nat.lt_irrefl _)
  client _ _ := rfl
  plugin _ _ := rfl
  references _ _ hc hj := .inl ⟨hc, hj⟩
  clientCache _ _ h := .inl h
  instanceCache _ _ h := .inl h

/-- They are kept over two. -/
theorem PointersKept.trans (h : PointersKept w w') (h' : PointersKept w' w'') :
    PointersKept w w'' where
  instances := Nat.le_trans h.instances h'.instances
  clients := Nat.le_trans h.clients h'.clients
  plugins := Nat.le_trans h.plugins h'.plugins
  pointers j hj := (h'.pointers j (Nat.lt_of_lt_of_le hj h.instances)).trans (h.pointers j hj)
  fresh j hj hj'' := by
    by_cases hj' : j < w'.instances.next
    · exact (h'.pointers j hj').trans (h.fresh j hj hj')
    · exact h'.fresh j (Nat.le_of_not_lt hj') hj''
  client c hc := (h'.client c (Nat.lt_of_lt_of_le hc h.clients)).trans (h.client c hc)
  plugin p hp := (h'.plugin p (Nat.lt_of_lt_of_le hp h.plugins)).trans (h.plugin p hp)
  references c j hc hj := by
    rcases h'.references c j hc hj with ⟨hc', hj'⟩ | hlt
    · exact (h.references c j hc' hj').imp_right fun hlt => Nat.lt_of_lt_of_le hlt h'.instances
    · exact .inr hlt
  clientCache u c hc := by
    rcases h'.clientCache u c hc with hc' | hlt
    · exact (h.clientCache u c hc').imp_right fun hlt => Nat.lt_of_lt_of_le hlt h'.clients
    · exact .inr hlt
  instanceCache k j hj := by
    rcases h'.instanceCache k j hj with hj' | hlt
    · exact (h.instanceCache k j hj').imp_right fun hlt => Nat.lt_of_lt_of_le hlt h'.instances
    · exact .inr hlt

namespace PointersKept

/-- A started instance stays started, -/
theorem started (h : PointersKept w w') (hi : i < w.instances.next) :
    (w'.instances.get i).started = (w.instances.get i).started :=
  congrArg Prod.fst (h.pointers i hi)

/-- with its plugin object -/
theorem pluginOf (h : PointersKept w w') (hi : i < w.instances.next) :
    (w'.instances.get i).plugin = (w.instances.get i).plugin :=
  congrArg (fun p => p.2.1) (h.pointers i hi)

/-- and its client. -/
theorem clientOf (h : PointersKept w w') (hi : i < w.instances.next) :
    (w'.instances.get i).client = (w.instances.get i).client :=
  congrArg (fun p => p.2.2) (h.pointers i hi)

/-- An instance that points somewhere is an old one. -/
theorem old (h : PointersKept w w') (hi : i < w'.instances.next)
    (hp : (w'.instances.get i).pointers ≠ (false, none, none)) : i < w.instances.next := by
  by_contra hlt
  exact hp (h.fresh i (Nat.le_of_not_lt hlt) hi)

/-- So the bots still act for the right clients. -/
theorem acting (h : PointersKept w w') (hw : Acting w) : Acting w' where
  client j c hj hc := by
    -- an instance that points to a client is an old one
    have hold := h.old hj fun hp => by
      have hnone : (w'.instances.get j).client = none := congrArg (fun p => p.2.2) hp
      rw [hnone] at hc
      cases hc
    rw [h.clientOf hold] at hc
    exact Nat.lt_of_lt_of_le (hw.client j c hold hc) h.clients
  plugin j p hj hp := by
    have hold := h.old hj fun hp' => by
      have hnone : (w'.instances.get j).plugin = none := congrArg (fun p => p.2.1) hp'
      rw [hnone] at hp
      cases hp
    rw [h.pluginOf hold] at hp
    exact Nat.lt_of_lt_of_le (hw.plugin j p hold hp) h.plugins
  references c j hc hj := by
    rcases h.references c j hc hj with ⟨hc', hj'⟩ | hlt
    · exact Nat.lt_of_lt_of_le (hw.references c j hc' hj') h.instances
    · exact hlt
  clientCache u c hc := by
    rcases h.clientCache u c hc with hc' | hlt
    · exact Nat.lt_of_lt_of_le (hw.clientCache u c hc') h.clients
    · exact hlt
  instanceCache k j hj := by
    rcases h.instanceCache k j hj with hj' | hlt
    · exact Nat.lt_of_lt_of_le (hw.instanceCache k j hj') h.instances
    · exact hlt
  -- so is one that runs, and its plugin still uses the Matrix client of its client
  acts j hj hstarted := by
    have hold := h.old hj fun hp => by
      have hfalse : (w'.instances.get j).started = false := congrArg Prod.fst hp
      rw [hfalse] at hstarted
      cases hstarted
    rw [h.started hold] at hstarted
    obtain ⟨p, c, hp, hc, hpc⟩ := hw.acts j hold hstarted
    refine ⟨p, c, (h.pluginOf hold).trans hp, (h.clientOf hold).trans hc, ?_⟩
    rw [h.plugin p (hw.plugin j p hold hp), h.client c (hw.client j c hold hc), hpc]

end PointersKept

/-- The frame of a step of the instance `i` that keeps the pointers. -/
def Pointers (L : Type) (i : Ref) : Frame (World L) where
  rel w w' := i < w.instances.next → PointersKept w w'
  refl w _ := .refl w
  trans h h' hi := (h hi).trans (h' (Nat.lt_of_lt_of_le hi (h hi).instances))

/-- A step that touches neither instances nor clients nor plugins. -/
theorem pointersKept_of_eq (hinstances : w'.instances = w.instances)
    (hclients : w'.clients = w.clients)
    (hplugins : w'.plugins = w.plugins) (hclientCache : w'.clientCache = w.clientCache)
    (hinstanceCache : w'.instanceCache = w.instanceCache) : PointersKept w w' where
  instances := Nat.le_of_eq (by rw [hinstances])
  clients := Nat.le_of_eq (by rw [hclients])
  plugins := Nat.le_of_eq (by rw [hplugins])
  pointers _ _ := by rw [hinstances]
  fresh j hj hj' := by
    rw [hinstances] at hj'
    exact absurd (Nat.lt_of_lt_of_le hj' hj) (Nat.lt_irrefl _)
  client _ _ := by rw [hclients]
  plugin _ _ := by rw [hplugins]
  references _ _ hc hj := by
    rw [hclients] at hc hj
    exact .inl ⟨hc, hj⟩
  clientCache _ _ h := .inl (hclientCache ▸ h)
  instanceCache _ _ h := .inl (hinstanceCache ▸ h)

/-- A change of the world keeps the pointers if it does so everywhere. -/
theorem pointers_modify {f : World L → World L} (h : ∀ w, PointersKept w (f w)) :
    Keeps (Pointers L i) (modify f : Action L Unit) := fun w _ => h w

/-- A field of an instance besides its pointers may be set, -/
theorem pointersKept_setInstance (w : World L) (j : Ref) {f : PluginInstance → PluginInstance}
    (hf : ∀ inst, (f inst).pointers = inst.pointers) :
    PointersKept w ((setInstance j f : Action L Unit).exec w).2 :=
  { PointersKept.refl w with
    pointers := fun _ _ => Store.view_modify w.instances j f pointers hf _
    fresh := fun _ hk hk' => absurd (Nat.lt_of_lt_of_le hk' hk) (Nat.lt_irrefl _) }

/-- a field of a client besides its Matrix client, -/
theorem pointersKept_setClient (w : World L) (q : Ref) {f : Client → Client}
    (hclient : ∀ cl, (f cl).client = cl.client)
    (href : ∀ j ∈ (f (w.clients.get q)).references.elems,
      j ∈ (w.clients.get q).references.elems ∨ j < w.instances.next) :
    PointersKept w ((setClient q f : Action L Unit).exec w).2 :=
  { PointersKept.refl w with
    client := fun _ _ => Store.view_modify w.clients q f Client.client hclient _
    references := fun c j hc hj => by
      by_cases hcq : c = q
      · subst hcq
        have hself : ((w.clients.modify c f).get c) = f (w.clients.get c) :=
          Store.get_modify_self w.clients c f
        replace hj : j ∈ ((w.clients.modify c f).get c).references.elems := hj
        rw [hself] at hj
        exact (href j hj).imp_left fun hj' => ⟨hc, hj'⟩
      · have hother : (w.clients.modify q f).get c = w.clients.get c :=
          Store.get_modify_ne w.clients f hcq
        replace hj : j ∈ ((w.clients.modify q f).get c).references.elems := hj
        rw [hother] at hj
        exact .inl ⟨hc, hj⟩ }

/-- and one of a plugin object besides its client. -/
theorem pointersKept_setPlugin (w : World L) (p : Ref) {f : Plugin → Plugin}
    (hf : ∀ pl, (f pl).client = pl.client) :
    PointersKept w ((setPlugin p f : Action L Unit).exec w).2 :=
  { PointersKept.refl w with
    plugin := fun _ _ => Store.view_modify w.plugins p f Plugin.client hf _ }

/-- What changes nothing keeps them, -/
theorem pointersKept_of_quiet (h : Unchanged S w w') : PointersKept w w' where
  instances := Nat.le_of_eq h.next.symm
  clients := Nat.le_of_eq (by rw [h.clients])
  plugins := Nat.le_of_eq (by rw [h.plugins])
  pointers j _ := (congrArg PluginInstance.pointers (h.core j) :)
  fresh j hj hj' := by
    rw [h.next] at hj'
    exact absurd (Nat.lt_of_lt_of_le hj' hj) (Nat.lt_irrefl _)
  client _ _ := by rw [h.clients]
  plugin _ _ := by rw [h.plugins]
  references _ _ hc hj := by
    rw [h.clients] at hc hj
    exact .inl ⟨hc, hj⟩
  clientCache _ _ hc := .inl (h.clientCache ▸ hc)
  instanceCache _ _ hj := .inl (h.instanceCache ▸ hj)

/-- and so does a quiet program. -/
theorem pointers_of_quiet {α : Type} {m : Action L α} (hm : Keeps (Quiet S) m) :
    Keeps (Pointers L i) m := hm.mono fun h _ => pointersKept_of_quiet h

/-- A client that is made points to its own Matrix client. -/
theorem pointersKept_made {u : String} {row : ClientRow} (h : Client.Made u row w w') :
    PointersKept w w' := by
  have hinstances : w'.instances = w.instances := by rw [h.others]
  have hplugins : w'.plugins = w.plugins := by rw [h.others]
  have hinstanceCache : w'.instanceCache = w.instanceCache := by rw [h.others]
  have hclientCache : w'.clientCache = Function.update w.clientCache u (some w.clients.next) := by
    rw [h.others]
  have hlt : w.clients.next < w'.clients.next := by
    rw [h.nextClient]
    exact Nat.lt_succ_self _
  -- apart from the clients nothing is touched
  have hold : PointersKept w { w' with clients := w.clients, clientCache := w.clientCache } :=
    pointersKept_of_eq hinstances rfl hplugins rfl hinstanceCache
  exact
    { hold with
      clients := Nat.le_of_lt hlt
      client := fun c hc => by rw [h.clients c hc]
      references := fun c j hc hj => by
        rw [h.nextClient] at hc
        rcases Nat.lt_succ_iff_lt_or_eq.mp hc with hc | rfl
        · rw [h.clients c hc] at hj
          exact .inl ⟨hc, hj⟩
        · rw [h.references] at hj
          cases hj
      clientCache := fun v c hc => by
        rw [hclientCache] at hc
        by_cases hv : v = u
        · rw [hv, Function.update_self, Option.some.injEq] at hc
          exact .inr (hc ▸ hlt)
        · rw [Function.update_of_ne hv] at hc
          exact .inl hc }

/-- Hence a client may be looked up or made. -/
theorem pointersKept_get (u : String) (homeserver token deviceId : Option String) (w : World L) :
    PointersKept w ((Client.get S u homeserver token deviceId).exec w).2 := by
  rcases Client.exec_get_cases (S := S) u homeserver token deviceId w with
    ⟨r, he, -⟩ | ⟨row, w', -, -, he, hm⟩ | ⟨row, w', -, -, he, hm⟩ <;> rw [he]
  · exact .refl w
  · exact pointersKept_made hm
  · let w₁ : World L := { w with clientRows := Function.update w.clientRows u (some row) }
    have hrows : PointersKept w w₁ := pointersKept_of_eq rfl rfl rfl rfl rfl
    exact hrows.trans (pointersKept_made hm)

/-- An element of a set to which one is added. -/
theorem mem_of_mem_add {hash : Ref → Int} {eqv : Ref → Ref → Bool} {s : PySet Ref} {x j : Ref}
    (h : j ∈ (PySet.add hash eqv s x).elems) : j ∈ s.elems ∨ j = x := by
  rw [PySet.add] at h
  split at h
  · exact .inl h
  · rw [PySet.elems, List.map_append, List.mem_append] at h
    exact h.imp_right fun h => by simpa using h

/-- What is left after a removal was there before. -/
theorem mem_of_mem_remove {hash : Ref → Int} {eqv : Ref → Ref → Bool} {s t : PySet Ref} {x j : Ref}
    (h : PySet.remove? hash eqv s x = some t) (hj : j ∈ t.elems) : j ∈ s.elems := by
  rw [PySet.remove?] at h
  split at h
  · obtain rfl := Option.some.inj h
    exact List.map_subset _ List.eraseP_subset hj
  · cases h

/-- An instance that is added at its client exists. -/
theorem pointers_addToClient (q : Ref) : Keeps (Pointers L i) (addToClient S i q) :=
  keeps_get_bind fun w hi => pointersKept_setClient w q (fun _ => rfl) fun j hj =>
    (mem_of_mem_add hj).imp_right fun hj => by rwa [hj]

/-- The steps of a start and a stop that neither find a client nor make, start or drop a
    plugin. -/
theorem parts_pointers : AdmitsParts S i (Pointers L i) where
  aside h _ := by
    rw [h]
    exact pointersKept_of_eq rfl rfl rfl rfl rfl
  assign f hf w _ := pointersKept_setInstance w i fun inst => by
    rw [pointers, pointers, hf.started, hf.plugin, hf.client]
  enableWebapp := keeps_enableWebapp (fun _ _ _ _ => pointersKept_of_eq rfl rfl rfl rfl rfl)
    fun _ _ w _ => pointersKept_setInstance w i fun _ => rfl
  disableWebapp := keeps_disableWebapp (fun _ _ _ _ => pointersKept_of_eq rfl rfl rfl rfl rfl)
    fun _ _ w _ => pointersKept_setInstance w i fun _ => rfl
  updateEnabled e := pointers_of_quiet (S := S) (quiet_updateEnabled i e)
  updateDbEngine e := pointers_of_quiet (S := S) (quiet_updateDbEngine i e)
  saveConfig val := pointers_of_quiet (S := S) (quiet_saveConfig i val)
  addToClient := pointers_addToClient
  register p val t := keeps_bind (fun w _ => pointersKept_setPlugin w p fun _ => rfl) fun _ =>
    keeps_bind keeps_get fun _ => pointers_modify fun _ => pointersKept_of_eq rfl rfl rfl rfl rfl
  removeHandlers p := keeps_bind keeps_get fun _ => keeps_forM fun _ _ =>
    pointers_modify fun _ => pointersKept_of_eq rfl rfl rfl rfl rfl

end PluginInstance

end Maubot
