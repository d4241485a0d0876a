import Maubot.Client.Runs
import Maubot.Instance.Sound

namespace Maubot

open Prog Management PluginInstance

/-!
# Runs of the whole program

Calls of instances and clients, and changes of the plugin files, each complete before the
next one begins.

* `createInstance` — the handler `_create_instance`;
* `Call` — a call of the program, with the world after it;
* `sound_of_reach` — cache, references and rows stay in order, as long as no `update_id`
  takes effect and no careless update of a config is among the calls, if the configs matter.
-/

variable {L : Type} (S : Setup L)

/-! ### Creating an instance by the API -/

/-- The body of the request. -/
structure NewInstance where
  type        : Option String := none
  primaryUser : Option String := none
  enabled     : Bool := true
  config      : Option String := none

/-- `_create_instance` once the object is there. -/
def setUpInstance (i : Ref) (data : NewInstance) (env : StartEnv) : Action L Unit := do
  setInstance i fun inst =>
    { inst with enabled := data.enabled, configStr := data.config.getD "" }
  update i
  let _ ← load S i
  start S i env

/-- The handler `_create_instance`. -/
def createInstance (instanceId : String) (data : NewInstance) (env : StartEnv) :
    Action L Response := do
  if !truthy data.type then pure Response.pluginTypeRequired
  else if !truthy data.primaryUser then pure Response.primaryUserRequired
  else
    match ← Client.get S (data.primaryUser.getD "") none none none with
    | none   => pure Response.primaryUserNotFound
    | some _ => do
      let w ← world
      match S.loaders.find w.loaders (data.type.getD "") with
      | none   => pure Response.pluginTypeNotFound
      | some _ => do
        match ← PluginInstance.get instanceId data.type data.primaryUser with
        | none   => throw { cls := .attributeError }
        | some i => do
          setUpInstance S i data env
          pure Response.created

/-! ### Calls -/

/-- A call of the program. -/
inductive Call (L : Type)
  | onInstance (op : PluginInstance.Op)
  | create (instanceId : String) (data : NewInstance) (env : StartEnv)
  | updateStarted (i : Ref) (started : Option Bool) (env : StopEnv × StartEnv)
  | updateDbEngine (i : Ref) (dbEngine : Option DatabaseEngine)
  | onClient (op : Client.Op)
  /-- Plugin files are uploaded, reloaded or deleted. -/
  | loaders (ls : L)

namespace Call

/-- The world after the call, whether it returned or raised. -/
def exec (call : Call L) (w : World L) : World L :=
  match call with
  | .onInstance op         => op.exec S w
  | .create k data env     => ((createInstance S k data env).exec w).2
  | .updateStarted i b env => ((PluginInstance.updateStarted S i b env).exec w).2
  | .updateDbEngine i e    => ((PluginInstance.updateDbEngine i e).exec w).2
  | .onClient op           => op.exec S w
  | .loaders ls            => { w with loaders := ls }

/-- The caller holds the object. -/
def Held (w : World L) : Call L → Prop
  | .onInstance op       => op.Held w
  | .updateStarted i _ _ => Live w i
  | .updateDbEngine i _  => Live w i
  | .onClient op         => op.Held w
  | _                    => True

/-- The call renames an instance. -/
def Renames (w : World L) : Call L → Prop
  | .onInstance op => op.Renames S w
  | _              => False

/-- The call is a careless update of a config. -/
def Careless (w : World L) : Call L → Prop
  | .onInstance (.updateConfig i c onUpdate) => PluginInstance.Careless w i c onUpdate
  | _                                        => False

/-- The foreign key: the database refuses to delete a client that an instance row names. -/
def Restricted (w : World L) : Call L → Prop
  | .onClient (.delete u _ refused) =>
    refused = none → ∀ k row, w.instanceRows k = some row → row.primaryUser ≠ u
  | _ => True

end Call

/-! ### What client methods leave alone -/

/-- Only what clients keep to themselves has changed. -/
structure Beside (w w' : World L) : Prop where
  instances        : w'.instances = w.instances
  instanceCache    : w'.instanceCache = w.instanceCache
  instanceRows     : w'.instanceRows = w.instanceRows
  nextClient       : w'.clients.next = w.clients.next
  id               : ∀ c, (w'.clients.get c).id = (w.clients.get c).id
  references       : ∀ c, (w'.clients.get c).references = (w.clients.get c).references
  clientCache      : w'.clientCache = w.clientCache
  clientRows       : ∀ k, (w'.clientRows k).isSome = (w.clientRows k).isSome
  loaderReferences : w'.loaderReferences = w.loaderReferences
  failures         : w'.failures = w.failures

/-- Nothing happens beside. -/
theorem Beside.refl (w : World L) : Beside w w :=
  ⟨rfl, rfl, rfl, rfl, fun _ => rfl, fun _ => rfl, rfl, fun _ => rfl, rfl, rfl⟩

/-- What happens beside twice happens beside. -/
theorem Beside.trans {w w' w'' : World L} (h : Beside w w') (h' : Beside w' w'') :
    Beside w w'' where
  instances := h'.instances.trans h.instances
  instanceCache := h'.instanceCache.trans h.instanceCache
  instanceRows := h'.instanceRows.trans h.instanceRows
  nextClient := h'.nextClient.trans h.nextClient
  id c := (h'.id c).trans (h.id c)
  references c := (h'.references c).trans (h.references c)
  clientCache := h'.clientCache.trans h.clientCache
  clientRows k := (h'.clientRows k).trans (h.clientRows k)
  loaderReferences := h'.loaderReferences.trans h.loaderReferences
  failures := h'.failures.trans h.failures

def Besides (L : Type) : Frame (World L) where
  rel := Beside
  refl := Beside.refl
  trans := Beside.trans

section Beside

variable {S} {ρ : Type} {g : InstanceRow → ρ} {w w' : World L}

/-- The live instances are the same ones. -/
theorem Beside.live (h : Beside w w') (i : Ref) : Live w' i ↔ Live w i := by
  rw [Live, Live, h.instances]

/-- The links are as right as before. -/
theorem Beside.linked (h : Beside w w') (hl : Linked S w) : Linked S w' := by
  have hhash : PluginInstance.hash S w' = PluginInstance.hash S w := by
    funext j
    rw [PluginInstance.hash, PluginInstance.hash, h.instances]
  constructor
  · rw [h.instances]
    exact fun i j hi hj => hl.ids i j ((h.live i).mp hi) ((h.live j).mp hj)
  · rw [h.instances, h.instanceRows]
    exact fun i hi => hl.rows i ((h.live i).mp hi)
  · intro i hi
    rw [h.instances, h.clientRows]
    exact hl.clientRows i ((h.live i).mp hi)
  · intro u c hc
    rw [h.clientCache] at hc
    rw [h.id, h.nextClient, h.clientRows]
    exact hl.clientCache u c hc
  · rw [h.instances, h.nextClient]
    exact fun j c hj => hl.allocated j c ((h.live j).mp hj)
  · intro l
    rw [hhash, h.loaderReferences, h.instances]
    exact (hl.loaders l).congr fun j => by rw [h.live]
  · intro c hc
    rw [h.nextClient] at hc
    rw [hhash, h.references, h.instances]
    exact (hl.clients c hc).congr fun j => by rw [h.live]
  · rw [h.failures]
    exact hl.removals

/-- And so is the world. -/
theorem Beside.sound (h : Beside w w') (hs : Sound S g w) : Sound S g w' where
  tracked :=
    { cached := fun k i hk => by
        rw [h.instanceCache] at hk
        rw [h.live, h.instances, h.instanceRows]
        exact hs.tracked.cached k i hk
      live := fun i hi => by
        rw [h.instances, h.instanceCache]
        exact hs.tracked.live i ((h.live i).mp hi) }
  linked := h.linked hs.linked
  saved :=
    { ids := fun i j hi hj => by
        rw [h.instances]
        exact hs.saved.ids i j ((h.live i).mp hi) ((h.live j).mp hj)
      users := fun i hi => by
        rw [h.instances, h.clientRows]
        exact hs.saved.users i ((h.live i).mp hi)
      rows := fun i hi => by
        rw [h.instances, h.instanceRows]
        exact hs.saved.rows i ((h.live i).mp hi)
      keys := fun k row hk => by
        rw [h.instanceRows] at hk
        rw [h.clientRows]
        exact hs.saved.keys k row hk
      saved := fun i row hi _ hk => by
        rw [h.instances, h.instanceRows] at hk
        rw [h.instances]
        exact hs.saved.saved i row ((h.live i).mp hi) trivial hk }

/-! ### Steps of the client methods -/

/-- A field of a client besides its id and its references may be set. -/
theorem beside_setClient (c : Ref) {f : Client → Client} (hid : ∀ cl, (f cl).id = cl.id)
    (href : ∀ cl, (f cl).references = cl.references) : Keeps (Besides L) (setClient c f) := fun w =>
  { Beside.refl w with
    id := Store.view_modify w.clients c f Client.id hid
    references := Store.view_modify w.clients c f Client.references href }

/-- Matrix clients are beside. -/
theorem beside_setMatrixClient (m : Ref) (f : MatrixClient → MatrixClient) :
    Keeps (Besides L) (setMatrixClient m f) := fun w => { Beside.refl w with }

/-- So are their handlers, -/
theorem beside_addEventHandler (m : Ref) (t : EventType) (h : Handler) :
    Keeps (Besides L) (addEventHandler m t h) := fun w => { Beside.refl w with }

/-- added or removed. -/
theorem beside_removeEventHandler (m : Ref) (t : EventType) (h : Handler) :
    Keeps (Besides L) (removeEventHandler m t h) := fun w => { Beside.refl w with }

/-- The row of a client may be written. -/
theorem beside_updateClient (c : Ref) : Keeps (Besides L) (Client.update c) := by
  refine keeps_get_bind fun w => ?_
  dsimp only
  split
  · exact Beside.refl w
  next hsome =>
  split
  · refine { Beside.refl w with clientRows := fun k => ?_ }
    show (Function.update w.clientRows (w.clients.get c).id _ k).isSome = _
    rcases eq_or_ne k (w.clients.get c).id with rfl | hk
    · rw [isSome_update_self]
      rw [Bool.not_eq_true, ← Option.not_isSome, Bool.not_eq_false'] at hsome
      exact hsome.symm
    · rw [Function.update_of_ne hk]
  · exact Beside.refl w

/-- A Matrix client may be made. -/
theorem beside_makeClient (c : Ref) (homeserver token deviceId : Option String) :
    Keeps (Besides L) (Client.makeClient c homeserver token deviceId) := fun w =>
  { Beside.refl w with }

/-- So may a crypto machine. -/
theorem beside_prepareCrypto (c : Ref) : Keeps (Besides L) (Client.prepareCrypto c) :=
  keeps_bind keeps_get fun _ =>
    keeps_bind (keeps_forM fun _ _ => beside_addEventHandler _ _ _) fun _ =>
    keeps_bind (beside_setClient c (fun _ => rfl) fun _ => rfl) fun _ =>
    beside_setMatrixClient _ _

/-- A sync may be started, -/
theorem beside_startSync (c : Ref) : Keeps (Besides L) (Client.startSync c) :=
  keeps_bind keeps_get fun _ => keeps_when (beside_setMatrixClient _ _)

/-- or stopped. -/
theorem beside_stopSync (c : Ref) : Keeps (Besides L) (Client.stopSync c) :=
  keeps_bind keeps_get fun _ => beside_setMatrixClient _ _

/-- Hence new access details are beside. -/
theorem beside_switchAccess (c m : Ref) (token homeserver : Option String) (deviceId : String)
    (crypto : CryptoEnv) :
    Keeps (Besides L) (Client.switchAccess S c m token homeserver deviceId crypto) := by
  have hremove : Keeps (Besides L) (Client.removeCryptoEventHandlers c) := by
    refine keeps_bind keeps_get fun w => ?_
    split
    · exact keeps_pure ()
    · exact keeps_forM fun _ _ => beside_removeEventHandler _ _ _
  have hstart : Keeps (Besides L) (Client.startCrypto c crypto) :=
    keeps_bind keeps_get fun _ => keeps_bind (keeps_outcome _) fun _ =>
      beside_setClient c (fun _ => rfl) fun _ => rfl
  refine keeps_bind (beside_stopSync c) fun _ => keeps_bind hremove fun _ =>
    keeps_bind keeps_get fun _ => keeps_bind (beside_setMatrixClient _ _) fun _ =>
    keeps_bind (beside_setMatrixClient _ _) fun _ =>
    keeps_bind (beside_setClient c (fun _ => rfl) fun _ => rfl) fun _ =>
    keeps_bind (beside_setClient c (fun _ => rfl) fun _ => rfl) fun _ =>
    keeps_bind keeps_get fun w => ?_
  dsimp only
  split
  · exact keeps_bind (beside_prepareCrypto c) fun _ =>
      keeps_bind hstart fun _ => beside_startSync c
  · exact keeps_bind (beside_setClient c (fun _ => rfl) fun _ => rfl) fun _ => beside_startSync c

end Beside

/-! ### Soundness under client methods -/

/-- Objects are only made. -/
structure Older (w w' : World L) : Prop where
  clients   : w.clients.next ≤ w'.clients.next
  instances : ∀ i, Live w i → Live w' i

section Client

variable {S} {ρ : Type} {g : InstanceRow → ρ} {w w' : World L}

/-- A world is as old as itself. -/
theorem Older.refl (w : World L) : Older w w := ⟨Nat.le_refl _, fun _ h => h⟩

/-- Its objects stay while new ones come. -/
theorem Older.trans {w w' w'' : World L} (h : Older w w') (h' : Older w' w'') : Older w w'' :=
  ⟨Nat.le_trans h.clients h'.clients, fun i hi => h'.instances i (h.instances i hi)⟩

/-- What happens beside takes no client away. -/
theorem Beside.older (h : Beside w w') : Older w w' :=
  ⟨Nat.le_of_eq h.nextClient.symm, fun i hi => (h.live i).mpr hi⟩

/-- The frame of a step that keeps a sound world sound in which the client `c` exists and the
    instances in `I` live. -/
def Keeping (S : Setup L) (g : InstanceRow → ρ) (c : Ref) (I : Ref → Prop) : Frame (World L) where
  rel w w' := Sound S g w → c < w.clients.next → (∀ i, I i → Live w i) →
    Sound S g w' ∧ Older w w'
  refl w h _ _ := ⟨h, Older.refl w⟩
  trans h h' hs hc hI := by
    obtain ⟨hs', ho⟩ := h hs hc hI
    obtain ⟨hs'', ho'⟩ :=
      h' hs' (Nat.lt_of_lt_of_le hc ho.clients) fun i hi => ho.instances i (hI i hi)
    exact ⟨hs'', ho.trans ho'⟩

variable {c : Ref} {I : Ref → Prop}

/-- It keeps a sound world. -/
theorem keeping_of_beside (h : Beside w w') : (Keeping S g c I).rel w w' :=
  fun hs _ _ => ⟨h.sound hs, h.older⟩

/-- The same for a program. -/
theorem keeps_of_besides {α : Type} {m : Action L α} (hm : Keeps (Besides L) m) :
    Keeps (Keeping S g c I) m := hm.mono keeping_of_beside

/-- The frame of a step that makes clients or none. -/
def MoreClients (L : Type) : Frame (World L) where
  rel w w' := w.clients.next ≤ w'.clients.next
  refl _ := Nat.le_refl _
  trans h h' := Nat.le_trans h h'

/-- A program that makes no client takes none away. -/
theorem moreClients_of_eq {α : Type} {m : Action L α}
    (hm : ∀ w : World L, (m.exec w).2.clients.next = w.clients.next) : Keeps (MoreClients L) m :=
  fun w => Nat.le_of_eq (hm w).symm

/-- Calls of instances make clients at most. -/
theorem moreClients_instances : AdmitsClients S (MoreClients L) where
  kept h := Nat.le_of_eq (congrArg Store.next h.clients.symm)
  getClient u w := by
    rcases Client.exec_get (S := S) u w with
      ⟨c, -, h⟩ | ⟨row, w', -, -, h, hmade⟩ | ⟨-, -, h⟩ <;> rw [h]
    · exact Nat.le_refl _
    · exact Nat.le_of_lt (by rw [hmade.nextClient]; exact Nat.lt_succ_self _)
    · exact Nat.le_refl _
  setReferences _ _ := moreClients_of_eq fun _ => rfl
  addHandler _ _ _ := moreClients_of_eq fun _ => rfl
  removeHandlers _ := keeps_bind keeps_get fun _ => keeps_forM fun _ _ =>
    moreClients_of_eq fun _ => rfl

/-- A start of a held instance keeps the world sound. -/
theorem keeping_start {i : Ref} (hi : I i) (env : StartEnv) :
    Keeps (Keeping S g c I) (PluginInstance.start S i env) := fun w hs _ hI =>
  ⟨hs.start (hI i hi) env, (moreClients_instances.admits i).start env w,
    fun j hj => ((identity_start i env w).live j).mpr hj⟩

/-- So does a stop. -/
theorem keeping_stop {i : Ref} (hi : I i) (env : StopEnv) :
    Keeps (Keeping S g c I) (PluginInstance.stop i env) := fun w hs _ hI =>
  ⟨hs.stop (hI i hi) env, ((moreClients_instances (S := S)).admits i).stop env w,
    fun j hj => ((identity_of_links (S := S) (links_stop i env) w).live j).mpr hj⟩

/-- The instances that a client refers to live. -/
theorem live_of_reference (h : Linked S w) (hc : c < w.clients.next) {i : Ref}
    (hi : i ∈ (w.clients.get c).references.elems) : Live w i :=
  (((h.clients c hc).mem_elems i).mp hi).1

/-- **Step.**  The methods of a client keep the installation sound. -/
theorem admits_keeping : Client.Admits S c (Keeping S g c fun _ => False) where
  assign f hid _ _ href := keeps_of_besides (beside_setClient c hid href)
  setRow _ _ _ := keeps_of_besides (beside_setClient c (fun _ => rfl) fun _ => rfl)
  setAutojoin w b _ := by
    have hrow : Keeps (Besides L) (setClientRow c fun row => { row with autojoin := b }) :=
      beside_setClient c (fun _ => rfl) fun _ => rfl
    refine keeping_of_beside ?_
    cases b with
    | true => exact keeps_bind (beside_addEventHandler _ _ _) (fun _ => hrow) w
    | false => exact keeps_bind (beside_removeEventHandler _ _ _) (fun _ => hrow) w
  setOnline w b := by
    have hrow : Keeps (Besides L) (setClientRow c fun row => { row with online := b }) :=
      beside_setClient c (fun _ => rfl) fun _ => rfl
    exact keeping_of_beside (keeps_bind (beside_setMatrixClient _ _) (fun _ => hrow) w)
  update := keeps_of_besides (beside_updateClient c)
  startSync := keeps_of_besides (beside_startSync c)
  stopSync := keeps_of_besides (beside_stopSync c)
  startPlugins env := by
    refine keeps_get_bind fun w hs hc _ => ?_
    -- the instances of the client are live, and a start keeps each of them so
    have hstart : Keeps (Keeping S g c (· ∈ (w.clients.get c).references.elems))
        (gather ((w.clients.get c).references.elems.map fun i =>
          PluginInstance.start S i (env i))) :=
      keeps_gather fun m hm => by
        obtain ⟨i, hi, rfl⟩ := List.mem_map.mp hm
        exact keeping_start hi (env i)
    exact hstart w hs hc fun i hi => live_of_reference hs.linked hc hi
  stopPlugins env := by
    refine keeps_get_bind fun w hs hc _ => ?_
    -- the same for those that run
    have hstop : Keeps (Keeping S g c (· ∈ (w.clients.get c).references.elems))
        (gather (((w.clients.get c).references.elems.filter fun i =>
          (w.instances.get i).started).map fun i => PluginInstance.stop i (env i))) :=
      keeps_gather fun m hm => by
        obtain ⟨i, hi, rfl⟩ := List.mem_map.mp hm
        exact keeping_stop (List.mem_filter.mp hi).1 (env i)
    exact hstop w hs hc fun i hi => live_of_reference hs.linked hc hi

/-! ### Lookup and deletion of clients -/

/-- A client that is made for a row has no references. -/
theorem sound_made (hs : Sound S g w) {u : String} {row : ClientRow}
    (hrow : w.clientRows u = some row) (hm : Client.Made u row w w') : Sound S g w' := by
  have hinst : w'.instances = w.instances := by rw [hm.others]
  have hcache : w'.instanceCache = w.instanceCache := by rw [hm.others]
  have hrows : w'.instanceRows = w.instanceRows := by rw [hm.others]
  have hclients : w'.clientRows = w.clientRows := by rw [hm.others]
  have hlive (j : Ref) : Live w' j ↔ Live w j := by rw [Live, Live, hinst]
  have hidentity : SameIdentity w w' :=
    ⟨by rw [hinst], fun _ => by rw [hinst], fun _ => by rw [hinst], hcache, fun _ => by rw [hrows]⟩
  refine
    { tracked := hidentity.tracked hs.tracked
      linked := ?_
      saved := hs.saved.congr hlive (fun _ => by rw [hinst])
        (fun _ => by rw [hinst]) hrows hclients }
  refine LinkedBy.congr (hs.linked.made hrow hm) (fun j _ => ?_) fun j _ => ?_ <;> rw [hinst]

/-- A row of a new client makes no instance unsound. -/
theorem sound_insertClientRow (hs : Sound S g w) (u : String) (row : ClientRow) :
    Sound S g { w with clientRows := Function.update w.clientRows u (some row) } where
  tracked := ⟨hs.tracked.cached, hs.tracked.live⟩
  linked :=
    { hs.linked with
      clientRows := fun i hi => isSome_update (hs.linked.clientRows i hi) u row
      clientCache := fun v c hc => by
        obtain ⟨hid, hlt, hr⟩ := hs.linked.clientCache v c hc
        exact ⟨hid, hlt, isSome_update hr u row⟩ }
  saved :=
    { hs.saved with
      users := fun i hi => isSome_update (hs.saved.users i hi) u row
      keys := fun k r hk => isSome_update (hs.saved.keys k r hk) u row }

/-- Getting or making a client leaves the world sound. -/
theorem sound_getClient (hs : Sound S g w) (u : String)
    (homeserver token deviceId : Option String) :
    Sound S g ((Client.get S u homeserver token deviceId).exec w).2 := by
  rcases Client.exec_get_cases (S := S) u homeserver token deviceId w with
    ⟨r, he, -⟩ | ⟨row, w', -, hrow, he, hm⟩ | ⟨row, w', -, -, he, hm⟩ <;> rw [he]
  · exact hs
  · exact sound_made hs hrow hm
  · exact sound_made (sound_insertClientRow hs u row) (Function.update_self _ _ _) hm

/-- A lookup does not fail, and knows the id of what it finds. -/
theorem exec_getClient (hs : Sound S g w) (u : String) :
    ∃ r w', (Client.get S u none none none).exec w = (.ok r, w') ∧ Sound S g w' ∧
      w'.instanceRows = w.instanceRows ∧ w'.instances = w.instances ∧
      ∀ c, r = some c → w'.clientCache u = some c := by
  have hsound := sound_getClient hs u none none none
  rcases Client.exec_get (S := S) u w with ⟨c, hc, he⟩ | ⟨row, w', -, hrow, he, hm⟩ | ⟨-, -, he⟩ <;>
    rw [he] at hsound
  · refine ⟨_, _, he, hsound, rfl, rfl, fun c' hc' => ?_⟩
    cases hc'
    exact hc
  · refine ⟨_, _, he, hsound, by rw [hm.others], by rw [hm.others], fun c' hc' => ?_⟩
    cases hc'
    rw [hm.others]
    exact Function.update_self _ _ _
  · refine ⟨_, _, he, hsound, rfl, rfl, fun c' hc' => ?_⟩
    cases hc'

/-- Stopping a client that no instance refers to. -/
theorem exec_stop_of_unreferenced (hrefs : (w.clients.get c).references = [])
    (env : Ref → StopEnv) :
    ∃ w', (when (w.clients.get c).started (Client.stop c env)).exec w = (.ok (), w') ∧
      Beside w w' := by
  rw [when]
  split
  · next hstarted =>
    have hstop : (Client.stop c env).exec w = (do
        setClient c fun cl => { cl with started := false }
        Client.stopPlugins c env
        Client.stopSync c : Action L Unit).exec w := by
      simp only [Client.stop, exec_get_bind, when, hstarted, if_true]
    have hset : Keeps (Besides L) (setClient c fun cl => { cl with started := false }) :=
      beside_setClient c (fun _ => rfl) fun _ => rfl
    have hplugins (v : World L) (hv : (v.clients.get c).references = []) :
        (Client.stopPlugins c env).exec v = (.ok (), v) := by
      simp [Client.stopPlugins, hv, PySet.elems, gather]
    have hrefs' : (((setClient c fun cl => { cl with started := false } :
        Action L Unit).exec w).2.clients.get c).references = [] :=
      ((hset w).references c).trans hrefs
    refine ⟨_, ?_, (hset w).trans (beside_stopSync c _)⟩
    rw [hstop]
    have hset' : (setClient c fun cl => { cl with started := false } : Action L Unit).exec w =
        (.ok (), ((setClient c fun cl => { cl with started := false } :
          Action L Unit).exec w).2) := rfl
    rw [exec_bind_ok hset', exec_bind_ok (hplugins _ hrefs')]
    rfl
  · exact ⟨w, rfl, Beside.refl w⟩

/-- **`delete_client` up to the deletion.**  It goes on just if the client has no references. -/
theorem exec_deletable (hs : Sound S g w) (u : String) (env : Ref → StopEnv) :
    ∃ r w', (Client.get S u none none none).exec w = (.ok r, w') ∧ Sound S g w' ∧
      w'.instanceRows = w.instanceRows ∧ w'.instances = w.instances ∧
      ((∃ e, (Client.deletable S u env).exec w = (.ok (.error e), w') ∧
          ∀ c, r = some c → (w'.clients.get c).references ≠ []) ∨
        ∃ c w₂, r = some c ∧ w'.clientCache u = some c ∧ (w'.clients.get c).references = [] ∧
          (Client.deletable S u env).exec w = (.ok (.ok c), w₂) ∧ Beside w' w₂) := by
  obtain ⟨r, w', he, hs', hrows, hinst, hr⟩ := exec_getClient hs u
  refine ⟨r, w', he, hs', hrows, hinst, ?_⟩
  cases r with
  | none =>
    refine Or.inl ⟨Response.clientNotFound, ?_, fun c hc => by cases hc⟩
    rw [Client.deletable, exec_bind_ok he]
    rfl
  | some c =>
    -- a client without instances can be stopped without a plugin
    by_cases hrefs : (w'.clients.get c).references = []
    · obtain ⟨w₂, hstop, hbeside⟩ := exec_stop_of_unreferenced hrefs env
      refine Or.inr ⟨c, w₂, rfl, hr c rfl, hrefs, ?_, hbeside⟩
      rw [Client.deletable, exec_bind_ok he]
      dsimp only
      rw [exec_get_bind, if_neg (by rw [hrefs]; decide), exec_bind_ok hstop]
      rfl
    · refine Or.inl ⟨Response.clientInUse, ?_, fun c' hc' => ?_⟩
      · rw [Client.deletable, exec_bind_ok he]
        dsimp only
        rw [exec_get_bind, if_pos (List.length_pos_iff.mpr hrefs)]
        rfl
      · cases hc'
        exact hrefs

/-- Taking a client without references out of the cache. -/
theorem sound_forgetClient (hs : Sound S g w) (k : String) :
    Sound S g { w with clientCache := Function.update w.clientCache k none } where
  tracked := ⟨hs.tracked.cached, hs.tracked.live⟩
  linked :=
    { hs.linked with
      clientCache := fun v c hc => by
        replace hc : Function.update w.clientCache k none v = some c := hc
        by_cases hv : v = k
        · rw [hv, Function.update_self] at hc
          cases hc
        · rw [Function.update_of_ne hv] at hc
          exact hs.linked.clientCache v c hc }
  saved := { hs.saved with }

/-- Deleting the row of a client that no instance row names. -/
theorem sound_deleteClientRow (hs : Sound S g w)
    (hg : ∀ r r', g r = g r' → r.primaryUser = r'.primaryUser) {k : String}
    (hcache : w.clientCache k = none)
    (hrows : ∀ id row, w.instanceRows id = some row → row.primaryUser ≠ k) :
    Sound S g { w with clientRows := Function.update w.clientRows k none } := by
  have hkeep {v : String} (hv : v ≠ k) (h : (w.clientRows v).isSome = true) :
      (Function.update w.clientRows k none v).isSome = true := by
    rwa [Function.update_of_ne hv]
  -- the fields of a live instance name the user of its row
  have huser (i : Ref) (hi : Live w i) : (w.instances.get i).primaryUser ≠ k := by
    obtain ⟨row, hrow⟩ := Option.isSome_iff_exists.mp (hs.saved.rows i hi)
    have hsame := hg _ _ (hs.saved.saved i row hi trivial hrow)
    intro hk
    exact hrows _ row hrow (hsame.trans hk)
  exact
    { tracked := ⟨hs.tracked.cached, hs.tracked.live⟩
      linked :=
        { hs.linked with
          clientRows := fun i hi => hkeep (huser i hi) (hs.linked.clientRows i hi)
          clientCache := fun v c hc => by
            obtain ⟨hid, hlt, hr⟩ := hs.linked.clientCache v c hc
            refine ⟨hid, hlt, hkeep ?_ hr⟩
            rintro rfl
            rw [hcache] at hc
            cases hc }
      saved :=
        { hs.saved with
          users := fun i hi => hkeep (huser i hi) (hs.saved.users i hi)
          keys := fun id row hk => hkeep (hrows id row hk) (hs.saved.keys id row hk) } }

/-- **Deletion.**  `delete_client` keeps the installation sound, refused or not. -/
theorem sound_deleteClient (hs : Sound S g w)
    (hg : ∀ r r', g r = g r' → r.primaryUser = r'.primaryUser) (u : String)
    (env : Ref → StopEnv) (refused : Option PyExc)
    (hrestricted : refused = none → ∀ k row, w.instanceRows k = some row → row.primaryUser ≠ u) :
    Sound S g ((Client.deleteClient S u env refused).exec w).2 := by
  obtain ⟨r, w', -, hs', hrows, -, ⟨e, he, -⟩ | ⟨c, w₂, -, hcache, -, he, hbeside⟩⟩ :=
    exec_deletable hs u env
  · rw [Client.deleteClient, exec_bind_ok he]
    exact hs'
  · have hs₂ := hbeside.sound hs'
    have hid : (w₂.clients.get c).id = u := by
      rw [hbeside.id]
      exact (hs'.linked.clientCache u c hcache).1
    rw [Client.deleteClient, exec_bind_ok he]
    cases refused with
    | some e => exact sound_forgetClient hs₂ _
    | none =>
      refine sound_deleteClientRow (sound_forgetClient hs₂ (w₂.clients.get c).id) hg
        (Function.update_self _ _ _) fun k row hk => ?_
      show row.primaryUser ≠ (w₂.clients.get c).id
      rw [hid]
      replace hk : w₂.instanceRows k = some row := hk
      rw [hbeside.instanceRows, hrows] at hk
      exact hrestricted rfl k row hk

/-! ### Operations and runs -/

/-- So do new access details, with the starts and stops that they bring. -/
theorem sound_updateAccessDetails (hs : Sound S g w) (hc : c < w.clients.next)
    (token homeserver deviceId : Option String) (env : AccessEnv) :
    Sound S g ((Client.updateAccessDetails S c token homeserver deviceId env).exec w).2 := by
  have hmake (w : World L) : Beside w ((Client.makeClient c homeserver token
      (some (deviceId.getD (w.clients.get c).row.deviceId)) : Action L Ref).exec w).2 :=
    beside_makeClient c _ _ _ w
  exact (Client.Admits.updateAccessDetails (S := S)
    (F := Keeping S g c fun _ => False) token homeserver deviceId env
    (fun w => keeping_of_beside (hmake w)) (fun w => keeping_of_beside
      (keeps_bind (beside_makeClient c _ _ _) (fun m => beside_switchAccess c m _ _ _ _) w))
    w hs hc fun _ h => h.elim).1

/-- So does every operation on a client that is held. -/
theorem sound_clientOp (hs : Sound S g w)
    (hg : ∀ r r', g r = g r' → r.primaryUser = r'.primaryUser) {op : Client.Op}
    (hheld : op.Held w) (hrestricted : (Call.onClient op).Restricted w) :
    Sound S g (op.exec S w) := by
  -- the methods of a client look after its instances; only the last two do more
  have hmethod {α : Type} {m : Action L α} {c : Ref} (hc : c < w.clients.next)
      (hm : Keeps (Keeping S g c fun _ => False) m) : Sound S g (m.exec w).2 :=
    (hm w hs hc fun _ h => h.elim).1
  cases op with
  | get u h t d => exact sound_getClient hs u h t d
  | start c n env => exact hmethod (hheld c rfl) (admits_keeping.start n env)
  | stop c env => exact hmethod (hheld c rfl) ((admits_keeping (S := S)).stop env)
  | updateStarted c b env env' =>
    exact hmethod (hheld c rfl) (admits_keeping.updateStarted b env env')
  | updateEnabled c b save =>
    exact hmethod (hheld c rfl) ((admits_keeping (S := S)).updateEnabled b save)
  | updateDisplayname c x e p save =>
    exact hmethod (hheld c rfl) ((admits_keeping (S := S)).updateProfile _ (fun _ _ => rfl)
      (fun _ _ => rfl) x e p save)
  | updateAvatarUrl c x e p save =>
    exact hmethod (hheld c rfl) ((admits_keeping (S := S)).updateProfile _ (fun _ _ => rfl)
      (fun _ _ => rfl) x e p save)
  | updateSync c b save =>
    exact hmethod (hheld c rfl) ((admits_keeping (S := S)).updateSync b save)
  | updateAutojoin c b save =>
    exact hmethod (hheld c rfl) ((admits_keeping (S := S)).updateAutojoin b save)
  | updateOnline c b save =>
    exact hmethod (hheld c rfl) ((admits_keeping (S := S)).updateOnline b save)
  | updateAccessDetails c t h d env => exact sound_updateAccessDetails hs (hheld c rfl) t h d env
  | clearCache c => exact hmethod (hheld c rfl) (admits_keeping (S := S)).clearCache
  | delete u env refused => exact sound_deleteClient hs hg u env refused hrestricted

end Client

/-! ### Creation of instances -/

section Runs

variable {S} {ρ : Type} {g : InstanceRow → ρ} {w w' : World L}

/-- The frame of a step of a live instance that keeps a sound world sound. -/
def KeepingInstance (S : Setup L) (g : InstanceRow → ρ) (i : Ref) : Frame (World L) where
  rel w w' := Sound S g w → Live w i → Sound S g w' ∧ Live w' i
  refl _ h hi := ⟨h, hi⟩
  trans h h' hs hi := h' (h hs hi).1 (h hs hi).2

/-- A step that leaves the instances' identities may be taken while one is held. -/
theorem keepingInstance_of_identity {α : Type} {i : Ref} {m : Action L α}
    (hm : Keeps (Identity L) m) (hs : ∀ w, Sound S g w → Live w i → Sound S g (m.exec w).2) :
    Keeps (KeepingInstance S g i) m := fun w h hi =>
  ⟨hs w h hi, ((hm w).live i).mpr hi⟩

/-- A new instance is loaded, configured and started in a sound world. -/
theorem keepingInstance_setUpInstance (i : Ref) (data : NewInstance) (env : StartEnv) :
    Keeps (KeepingInstance S g i) (setUpInstance S i data env) := by
  have hassign : Keeps (Quiet S) (do
      setInstance i fun inst =>
        { inst with enabled := data.enabled, configStr := data.config.getD "" }
      PluginInstance.update i : Action L Unit) :=
    keeps_bind (quiet_setInstance i fun _ => rfl) fun _ => quiet_update i
  have hwrite : Keeps (KeepingInstance S g i) (do
      setInstance i fun inst =>
        { inst with enabled := data.enabled, configStr := data.config.getD "" }
      PluginInstance.update i : Action L Unit) :=
    keepingInstance_of_identity (identity_of_links (links_of_quiet hassign)) fun w h hi =>
      h.of_links hi (links_of_quiet hassign)
        (saves_write _ (fun _ => rfl) (fun _ => rfl) fun _ => rfl)
  have hstart : Keeps (KeepingInstance S g i) (do
      let _ ← PluginInstance.load S i
      PluginInstance.start S i env : Action L Unit) :=
    keeps_bind (keepingInstance_of_identity (identity_load i) fun _ h hi => h.load hi) fun _ =>
      keepingInstance_of_identity (identity_start i env) fun _ h hi => h.start hi env
  intro w
  have h : Keeps (KeepingInstance S g i) ((do
      setInstance i fun inst =>
        { inst with enabled := data.enabled, configStr := data.config.getD "" }
      PluginInstance.update i : Action L Unit) >>= fun _ => do
      let _ ← PluginInstance.load S i
      PluginInstance.start S i env) := keeps_bind hwrite fun _ => hstart
  rw [bind_assoc] at h
  exact h w

/-- What `get` returns is in the cache. -/
theorem cached_of_get {k : String} {t u : Option String} {i : Ref}
    (h : (PluginInstance.get k t u).exec w = (.ok (some i), w')) : w'.instanceCache k = some i := by
  rw [PluginInstance.get, exec_get_bind] at h
  have hfrom {v : World L} {row : InstanceRow}
      (h : (do
        let i ← PluginInstance.fromRow k row
        pure (some i) : Action L (Option Ref)).exec v = (.ok (some i), w')) :
      w'.instanceCache k = some i := by
    obtain ⟨j, v', hj, hp⟩ := exec_bind_eq_ok h
    cases hp
    rw [PluginInstance.exec_fromRow] at hj
    cases hj
    exact Function.update_self _ _ _
  split at h
  · next j hj =>
    cases h
    exact hj
  · split at h
    · exact hfrom h
    · split at h
      · obtain ⟨_, v, -, hv⟩ := exec_bind_eq_ok h
        exact hfrom hv
      · cases h

/-- So it may be created. -/
theorem sound_createInstance (hs : Sound S g w) (k : String) (data : NewInstance)
    (env : StartEnv) : Sound S g ((createInstance S k data env).exec w).2 := by
  rw [createInstance]
  split
  · exact hs
  split
  · exact hs
  obtain ⟨r, w₁, he, hs₁, -⟩ := exec_getClient hs (data.primaryUser.getD "")
  rw [exec_bind_ok he]
  cases r with
  | none => exact hs₁
  | some c =>
    dsimp only
    rw [exec_get_bind]
    split
    · exact hs₁
    · have hget := hs₁.get k data.type data.primaryUser
      rw [exec_bind]
      rcases hr : (PluginInstance.get k data.type data.primaryUser).exec w₁ with ⟨e | r, w₂⟩ <;>
        rw [hr] at hget
      · exact hget
      · cases r with
        | none => exact hget
        | some i =>
          -- the instance is live when it is set up
          have hlive := (hget.tracked.cached k i (cached_of_get hr)).1
          have hset := (keepingInstance_setUpInstance (g := g) (S := S) i data env w₂ hget hlive).1
          dsimp only
          rw [exec_bind]
          rcases hr' : (setUpInstance S i data env).exec w₂ with ⟨e | _, w₃⟩ <;>
            rw [hr'] at hset <;>
            exact hset

/-! ### Runs -/

/-- The call keeps the installation sound: the caller holds the object, no instance is renamed,
    and the config does not matter or is updated with care. -/
structure Call.Kept (S : Setup L) (g : InstanceRow → ρ) (w : World L) (call : Call L) : Prop where
  held       : call.Held w
  restricted : call.Restricted w
  renames    : ¬ call.Renames S w
  careful    : ¬ call.Careless w ∨ ∀ r c, g { r with config := c } = g r

/-- **Step.**  Such a call keeps a sound installation sound. -/
theorem sound_exec (hs : Sound S g w) (hg : ∀ r r', g r = g r' → r.primaryUser = r'.primaryUser)
    {call : Call L} (hcall : call.Kept S g w) : Sound S g (call.exec S w) := by
  cases call with
  | onInstance op =>
    refine hs.exec hcall.held hcall.renames (hcall.careful.imp_left fun hc i c onUpdate hop => ?_)
    subst hop
    exact hc
  | create k data env => exact sound_createInstance hs k data env
  | updateStarted i b env => exact hs.updateStarted hcall.held b env
  | updateDbEngine i e => exact hs.updateDbEngine hcall.held e
  | onClient op => exact sound_clientOp hs hg hcall.held hcall.restricted
  | loaders ls =>
    exact
      { tracked := ⟨hs.tracked.cached, hs.tracked.live⟩
        linked := { hs.linked with }
        saved := { hs.saved with } }

/-- The program has just started, and the rows obey the foreign key. -/
structure Launch (w : World L) : Prop extends Startup w where
  users    : ∀ k row, w.instanceRows k = some row → (w.clientRows row.primaryUser).isSome = true
  failures : w.failures = []

/-- At launch there is no instance that could be unsound. -/
theorem Launch.sound (h : Launch w) : Sound S g w := by
  have hnone (i : Ref) : ¬ Live w i := fun hi => by
    have hlt := hi.1
    rw [h.instances] at hlt
    exact Nat.not_lt_zero i hlt
  exact
    { tracked := h.toStartup.tracked
      linked := Unloaded.linked
        { ids := fun i _ hi => absurd hi (hnone i)
          rows := fun i hi => absurd hi (hnone i)
          clientRows := fun i hi => absurd hi (hnone i)
          clientCache := fun u c hc => by
            rw [h.clientCache] at hc
            cases hc
          fields := fun i hi => absurd hi (hnone i)
          loaderReferences := fun l => by rw [h.references]
          references := fun c hc => by
            rw [h.clients] at hc
            exact absurd hc (Nat.not_lt_zero c)
          failures := h.failures }
      saved :=
        { ids := fun i _ hi => absurd hi (hnone i)
          users := fun i hi => absurd hi (hnone i)
          rows := fun i hi => absurd hi (hnone i)
          keys := h.users
          saved := fun i _ hi => absurd hi (hnone i) } }

/-- **Runs.**  In every state reached, cache, references and rows are in order. -/
theorem sound_of_reach (hg : ∀ r r', g r = g r' → r.primaryUser = r'.primaryUser) {w₀ : World L}
    (h₀ : Launch w₀) (h : Reach (Call.exec S) (Call.Kept S g) w₀ w) : Sound S g w :=
  h.invariant h₀.sound fun _ _ hs hcall => sound_exec hs hg hcall

/-! ### Fields and rows -/

/-- The row of every cached instance shows its fields. -/
def RowsAgree (w : World L) : Prop :=
  ∀ k i, w.instanceCache k = some i →
    w.instanceRows (w.instances.get i).id = some (w.instances.get i).row

/-- A sound world agrees with its rows. -/
theorem Sound.rowsAgree (hs : Sound S (fun r : InstanceRow => r) w) : RowsAgree w := by
  intro k i hk
  have hi := (hs.tracked.cached k i hk).1
  obtain ⟨row, hrow⟩ := Option.isSome_iff_exists.mp (hs.saved.rows i hi)
  rw [hrow, hs.saved.saved i row hi trivial hrow]

/-- The call does not rename and is no careless update. -/
structure Call.Careful (S : Setup L) (w : World L) (call : Call L) : Prop where
  held       : call.Held w
  restricted : call.Restricted w
  renames    : ¬ call.Renames S w
  careful    : ¬ call.Careless w

/-- **Fields and rows over whole runs.**  As long as no plugin raises in
    `on_external_config_update` with nothing saved, and no `update_id` takes effect, the rows
    show the fields after every call, whether it returned or raised. -/
theorem rowsAgree_of_careful {w₀ : World L} (h₀ : Launch w₀)
    (h : Reach (Call.exec S) (Call.Careful S) w₀ w) : RowsAgree w := by
  have hs : Sound S (fun r : InstanceRow => r) w :=
    h.invariant h₀.sound fun _ _ hs hcall => sound_exec hs (fun _ _ hr => by rw [hr])
      ⟨hcall.held, hcall.restricted, hcall.renames, Or.inl hcall.careful⟩
  exact Sound.rowsAgree hs

end Runs

namespace InstanceTest

/-- The world of the witness is one at launch. -/
theorem startup_launch : Launch startup where
  toStartup := startup_startup
  users k row hk := by
    by_cases ha : k = "a"
    · subst ha
      obtain rfl : instanceRow = row := Option.some.inj hk
      rfl
    · have hnone : startup.instanceRows k = none := if_neg ha
      rw [hnone] at hk
      cases hk
  failures := rfl

/-- The plugin of the instance `a` does not like its new config. -/
def dislikes : Hook where
  raises := some { cls := .valueError }

/-- A plugin that has saved another text before it raises is not careless. -/
theorem not_careless_reluctant :
    ¬ PluginInstance.Careless launched 0 (some "new") reluctant := by
  rintro ⟨c, p, hc, -, -, -, ⟨-, obj, hobj, -⟩ | ⟨-, hsaves⟩⟩
  · cases hobj
  · cases hc
    exact absurd (hsaves "old" (List.mem_singleton_self _)) (by decide)

/-- The instance `a` is looked up, started, given a config that its plugin refuses and the id
    that it has, and deleted. -/
theorem found_rowsAgree : RowsAgree unrenamed ∧ RowsAgree removed := by
  have hfound : Reach (Call.exec setup) (Call.Careful setup) startup found :=
    Reach.step (Call.onInstance (Op.get "a" none none)) .start
      ⟨by rintro i ⟨⟩, trivial, fun h => h, fun h => h⟩
  have hlaunched : Reach (Call.exec setup) (Call.Careful setup) startup launched :=
    hfound.step (Call.onInstance (Op.start 0 {}))
      ⟨by rintro i ⟨⟩; decide, trivial, fun h => h, fun h => h⟩
  have hrefused : Reach (Call.exec setup) (Call.Careful setup) startup refused :=
    hlaunched.step (Call.onInstance (Op.updateConfig 0 (some "new") reluctant))
      ⟨by rintro i ⟨⟩; decide +kernel, trivial, fun h => h, not_careless_reluctant⟩
  have hunrenamed : Reach (Call.exec setup) (Call.Careful setup) startup unrenamed :=
    hrefused.step (Call.onInstance (Op.updateId 0 (some "a")))
      ⟨by rintro i ⟨⟩; decide +kernel, trivial, not_renames_refused, fun h => h⟩
  have hremoved : Reach (Call.exec setup) (Call.Careful setup) startup removed :=
    hunrenamed.step (Call.onInstance (Op.delete 0 {}))
      ⟨by rintro i ⟨⟩; decide +kernel, trivial, fun h => h, fun h => h⟩
  exact ⟨rowsAgree_of_careful startup_launch hunrenamed,
    rowsAgree_of_careful startup_launch hremoved⟩

/-- Start the instance `a` and give it a config that its plugin refuses: the field has it, the
    row does not. -/
theorem disliked_not_rowsAgree :
    ¬ ∀ w₀ : World Unit, Launch w₀ → ∀ w,
      Reach (Call.exec setup) (fun w call => call.Held w ∧ call.Restricted w) w₀ w →
        RowsAgree w := by
  intro h
  have hget : Reach (Call.exec setup) (fun w call => call.Held w ∧ call.Restricted w) startup
      (Call.exec setup (.onInstance (.get "a" none none)) startup) :=
    Reach.step (Call.onInstance (Op.get "a" none none)) .start ⟨by rintro i ⟨⟩, trivial⟩
  have hstart := Reach.step (Call.onInstance (Op.start 0 {})) hget
    ⟨by rintro i ⟨⟩; decide, trivial⟩
  have hupdate := Reach.step (Call.onInstance (Op.updateConfig 0 (some "new") dislikes)) hstart
    ⟨by rintro i ⟨⟩; decide +kernel, trivial⟩
  have hrow := h startup startup_launch _ hupdate "a" 0 (by decide +kernel)
  exact absurd hrow (by decide +kernel)

end InstanceTest

end Maubot
