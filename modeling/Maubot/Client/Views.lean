import Maubot.Client.Operations
import Maubot.Instance.Exceptions
import Maubot.Instance.Frames

namespace Maubot

open Prog

/-!
# Clients — what the methods do to one client

A request about a client is specified by what can be seen of it (`ClientView`): its
persistent fields, its Matrix client with the sync task, and its row.

* `Sees c v w` — in the world `w`, the client `c` looks like `v`;
* `Unseen c` — the frame of a step that one does not see in `c`; starting and stopping
  plugins is one (`unseen_startPlugin`, `unseen_stopPlugin`);
* the triples of the update methods, each from one view to the next;
* `AccessOutcome` — how `update_access_details` ends, and what one sees then.
-/

variable {L : Type} {S : Setup L}

/-- What can be seen of a client. -/
structure ClientView where
  id      : String
  row     : ClientRow
  started : Bool
  /-- the Matrix client, and the filter of its sync task -/
  client  : Ref
  syncing : Option String
  /-- the row in the table -/
  stored  : Option ClientRow
  /-- whether the cache has the client -/
  cached  : Bool
  deriving DecidableEq, Repr

namespace ClientView

/-- After `update`, the row shows the fields. -/
def saved (v : ClientView) : ClientView :=
  if v.stored.isSome then { v with stored := some v.row } else v

/-- Saving leaves the row of the object. -/
@[simp] theorem saved_row (v : ClientView) : v.saved.row = v.row := by
  rw [saved]
  split <;> rfl

/-- There is a row after `update` if there was one. -/
@[simp] theorem saved_stored (v : ClientView) :
    v.saved.stored = v.stored.map fun _ => v.row := by
  rw [saved]
  cases hstored : v.stored with
  | none => exact hstored
  | some r => rfl

/-- It leaves the sync. -/
@[simp] theorem saved_syncing (v : ClientView) : v.saved.syncing = v.syncing := by
  rw [saved]
  split <;> rfl

end ClientView

namespace Client

def view (c : Ref) (w : World L) : ClientView where
  id := (w.clients.get c).id
  row := (w.clients.get c).row
  started := (w.clients.get c).started
  client := (w.clients.get c).client
  syncing := (w.matrixClients.get (w.clients.get c).client).syncing
  stored := w.clientRows (w.clients.get c).id
  cached := w.clientCache (w.clients.get c).id == some c

/-- The client `c` exists and looks like `v`. -/
structure Sees (c : Ref) (v : ClientView) (w : World L) : Prop where
  lt       : c < w.clients.next
  clientLt : v.client < w.matrixClients.next
  view     : view c w = v

variable {c : Ref} {v v' : ClientView} {w w' : World L} {E : World L → Prop}

namespace Sees

/-- The id of a client that is seen. -/
theorem id (h : Sees c v w) : (w.clients.get c).id = v.id := congrArg ClientView.id h.view

/-- Its row. -/
theorem row (h : Sees c v w) : (w.clients.get c).row = v.row := congrArg ClientView.row h.view

/-- Whether it is started. -/
theorem started (h : Sees c v w) : (w.clients.get c).started = v.started :=
  congrArg ClientView.started h.view

/-- Its Matrix client. -/
theorem client (h : Sees c v w) : (w.clients.get c).client = v.client :=
  congrArg ClientView.client h.view

/-- The filter it syncs with. -/
theorem syncing (h : Sees c v w) : (w.matrixClients.get v.client).syncing = v.syncing := by
  rw [← h.client]
  exact congrArg ClientView.syncing h.view

/-- Its row in the table. -/
theorem stored (h : Sees c v w) : w.clientRows v.id = v.stored := by
  rw [← h.id]
  exact congrArg ClientView.stored h.view

/-- Whether the cache has it under its id. -/
theorem cached (h : Sees c v w) : (w.clientCache v.id == some c) = v.cached := by
  rw [← h.id]
  exact congrArg ClientView.cached h.view

/-- A client is seen if each part of the view is right. -/
theorem intro (hlt : c < w.clients.next) (hclientLt : v.client < w.matrixClients.next)
    (hid : (w.clients.get c).id = v.id) (hrow : (w.clients.get c).row = v.row)
    (hstarted : (w.clients.get c).started = v.started)
    (hclient : (w.clients.get c).client = v.client)
    (hsyncing : (w.matrixClients.get v.client).syncing = v.syncing)
    (hstored : w.clientRows v.id = v.stored)
    (hcached : (w.clientCache v.id == some c) = v.cached) : Sees c v w := by
  refine ⟨hlt, hclientLt, ?_⟩
  unfold Client.view
  rw [hid, hrow, hstarted, hclient, hsyncing, hstored, hcached]

end Sees

/-! ### Steps that one does not see -/

/-- The frame of a step that one does not see in the client `c`. -/
def Unseen (L : Type) (c : Ref) : Frame (World L) where
  rel w w' := ∀ v, Sees c v w → Sees c v w'
  refl _ _ h := h
  trans h h' v hv := h' v (h v hv)

/-- Fields of clients that the view does not show may be set. -/
theorem unseen_setClient (q : Ref) {f : Client → Client} (hid : ∀ cl, (f cl).id = cl.id)
    (hrow : ∀ cl, (f cl).row = cl.row) (hstarted : ∀ cl, (f cl).started = cl.started)
    (hclient : ∀ cl, (f cl).client = cl.client) : Keeps (Unseen L c) (setClient q f) := by
  intro w v h
  exact .intro h.lt h.clientLt ((Store.view_modify _ _ _ Client.id hid c).trans h.id)
    ((Store.view_modify _ _ _ Client.row hrow c).trans h.row)
    ((Store.view_modify _ _ _ Client.started hstarted c).trans h.started)
    ((Store.view_modify _ _ _ Client.client hclient c).trans h.client) h.syncing h.stored h.cached

/-- So may fields of Matrix clients besides the sync. -/
theorem unseen_setMatrixClient (m : Ref) {f : MatrixClient → MatrixClient}
    (hf : ∀ mc, (f mc).syncing = mc.syncing) : Keeps (Unseen L c) (setMatrixClient m f) := by
  intro w v h
  exact .intro h.lt h.clientLt h.id h.row h.started h.client
    ((Store.view_modify _ _ _ MatrixClient.syncing hf v.client).trans h.syncing) h.stored h.cached

/-- A step that keeps clients, Matrix clients and rows. -/
theorem unseen_modify {f : World L → World L} (hclients : ∀ w, (f w).clients = w.clients)
    (hmatrix : ∀ w, (f w).matrixClients = w.matrixClients)
    (hrows : ∀ w, (f w).clientRows = w.clientRows)
    (hcache : ∀ w, (f w).clientCache = w.clientCache) :
    Keeps (Unseen L c) (modify f : Action L Unit) := by
  intro w v h
  show Sees c v (f w)
  exact .intro (by rw [hclients]; exact h.lt) (by rw [hmatrix]; exact h.clientLt)
    (by rw [hclients]; exact h.id) (by rw [hclients]; exact h.row)
    (by rw [hclients]; exact h.started) (by rw [hclients]; exact h.client)
    (by rw [hmatrix]; exact h.syncing) (by rw [hrows]; exact h.stored)
    (by rw [hcache]; exact h.cached)

/-- What concerns only instances is not seen at the clients. -/
theorem unseen_of_links {α : Type} {m : Action L α} (hm : Keeps (PluginInstance.Links S) m) :
    Keeps (Unseen L c) m := by
  refine hm.mono fun {w w'} h v hv => ?_
  exact .intro (by rw [h.clients]; exact hv.lt) (by rw [h.matrixClients]; exact hv.clientLt)
    (by rw [h.clients]; exact hv.id) (by rw [h.clients]; exact hv.row)
    (by rw [h.clients]; exact hv.started) (by rw [h.clients]; exact hv.client)
    (by rw [h.matrixClients]; exact hv.syncing) (by rw [h.clientRows]; exact hv.stored)
    (by rw [h.clientCache]; exact hv.cached)

/-- A client is only made for an id that the cache does not have. -/
theorem Sees.of_made {id : String} {row : ClientRow} (h : Sees c v w) (hmade : Made id row w w')
    (hcache : w.clientCache id = none) : Sees c v w' := by
  have hclient : w'.clients.get c = w.clients.get c := hmade.clients c h.lt
  have hmatrix : w'.matrixClients.get v.client = w.matrixClients.get v.client :=
    hmade.matrixClients v.client h.clientLt
  exact .intro (by rw [hmade.nextClient]; exact Nat.lt_succ_of_lt h.lt)
    (by rw [hmade.nextMatrix]; exact Nat.lt_succ_of_lt h.clientLt) (by rw [hclient]; exact h.id)
    (by rw [hclient]; exact h.row) (by rw [hclient]; exact h.started)
    (by rw [hclient]; exact h.client) (by rw [hmatrix]; exact h.syncing)
    (by rw [hmade.others]; exact h.stored) (by
      rw [hmade.others, ← h.cached]
      show (Function.update w.clientCache id (some w.clients.next) v.id == some c) = _
      rcases eq_or_ne v.id id with hid | hid
      · rw [hid, Function.update_self, hcache, Bool.eq_iff_iff]
        simp [(Nat.ne_of_lt h.lt).symm]
      · rw [Function.update_of_ne hid])

/-- Getting a client may make another one, but shows nothing new at this one. -/
theorem unseen_get (u : String) : Keeps (Unseen L c) (get S u none none none) := by
  intro w v h
  rcases exec_get (S := S) u w with ⟨q, -, hq⟩ | ⟨row, w', hcache, -, hq, hmade⟩ | ⟨-, -, hq⟩ <;>
    rw [hq]
  · exact h
  · exact h.of_made hmade hcache
  · exact h

/-! ### Plugins of the client -/

/-- An instance may be loaded. -/
theorem unseen_load (i : Ref) : Keeps (Unseen L c) (PluginInstance.load S i) := by
  have hlinks {α : Type} {m : Action L α} (hm : Keeps (PluginInstance.Links S) m) :
      Keeps (Unseen L c) m := unseen_of_links hm
  -- the parts of a load: what they change is not seen at the client
  have hdisable {x : Failure} (hx : ∀ i, x ≠ .removeReference i) : Keeps (Unseen L c) (do
      report x
      PluginInstance.updateEnabled i (some false)
      pure false : Action L Bool) :=
    hlinks <| PluginInstance.links_of_quiet <|
      keeps_bind (PluginInstance.quiet_report hx) fun _ =>
      keeps_bind (PluginInstance.quiet_updateEnabled i _) fun _ => keeps_pure _
  have hset (f : PluginInstance → PluginInstance) : Keeps (Unseen L c) (setInstance i f) :=
    unseen_modify (fun _ => rfl) (fun _ => rfl) (fun _ => rfl) fun _ => rfl
  have hloader : Keeps (Unseen L c) (PluginInstance.loadLoader S i) := by
    refine keeps_bind keeps_get fun w => keeps_ite (keeps_pure _) ?_
    split
    · exact keeps_bind (hset _) fun _ => keeps_pure _
    · exact hdisable (by simp)
  have hclient : Keeps (Unseen L c) (PluginInstance.loadClient S i) :=
    keeps_bind keeps_get fun w => keeps_ite (keeps_pure _) <|
      keeps_bind (unseen_get _) fun q => keeps_bind (hset _) fun _ =>
      keeps_ite (keeps_pure _) (hdisable (by simp))
  -- a client is only entered as used
  have hreferences : Keeps (Unseen L c) (PluginInstance.loadReferences S i) :=
    keeps_bind (hlinks (PluginInstance.links_of_quiet (PluginInstance.quiet_theLoader i))) fun l =>
      keeps_bind keeps_get fun w =>
      keeps_bind (keeps_when (hlinks (PluginInstance.links_enableWebapp i))) fun _ =>
      keeps_bind (keeps_bind keeps_get fun _ =>
        unseen_modify (fun _ => rfl) (fun _ => rfl) (fun _ => rfl) fun _ => rfl) fun _ =>
      keeps_bind
        (hlinks (PluginInstance.links_of_quiet (PluginInstance.quiet_theClient i))) fun q =>
      keeps_bind keeps_get fun _ =>
        unseen_setClient q (fun _ => rfl) (fun _ => rfl) (fun _ => rfl) fun _ => rfl
  exact keeps_bind hloader fun b => keeps_ite
    (keeps_bind hclient fun b => keeps_ite
      (keeps_bind hreferences fun _ => keeps_pure _) (keeps_pure _)) (keeps_pure _)

/-- Starting a plugin is not seen in a client. -/
theorem unseen_startPlugin (i : Ref) (env : StartEnv) :
    Keeps (Unseen L c) (PluginInstance.start S i env) := by
  refine keeps_bind keeps_get fun w => keeps_ite (keeps_pure ()) <|
    keeps_ite (keeps_pure ()) <| keeps_bind ?_ fun b => keeps_ite ?_ (keeps_pure ())
  · exact keeps_bind keeps_get fun w => keeps_ite (unseen_load i) (keeps_pure _)
  · exact unseen_of_links (PluginInstance.links_startLoaded i env)

/-- An instance may be stopped. -/
theorem unseen_stopPlugin (S : Setup L) (i : Ref) (env : StopEnv) :
    Keeps (Unseen L c) (PluginInstance.stop i env) :=
  unseen_of_links (PluginInstance.links_stop (S := S) i env)

/-- The instances of a client may all be started. -/
theorem unseen_startPlugins (env : Ref → StartEnv) : Keeps (Unseen L c) (startPlugins S c env) :=
  keeps_bind keeps_get fun _ => keeps_gather fun m hm => by
    obtain ⟨i, -, rfl⟩ := List.mem_map.mp hm
    exact unseen_startPlugin i (env i)

/-- They may all be stopped. -/
theorem unseen_stopPlugins (S : Setup L) (env : Ref → StopEnv) :
    Keeps (Unseen L c) (stopPlugins c env) :=
  keeps_bind keeps_get fun _ => keeps_gather fun m hm => by
    obtain ⟨i, -, rfl⟩ := List.mem_map.mp hm
    exact unseen_stopPlugin S i (env i)

/-- The profile at the homeserver is not in the view. -/
theorem unseen_updateRemoteProfile (profile : ProfileAnswer) :
    Keeps (Unseen L c) (updateRemoteProfile c profile) := by
  refine keeps_bind (keeps_attempt (keeps_outcome _) _) fun r => ?_
  cases r with
  | ok p => exact unseen_setClient c (fun _ => rfl) (fun _ => rfl) (fun _ => rfl) fun _ => rfl
  | error e => exact keeps_pure ()

/-- Neither is the trust state of the device. -/
theorem unseen_startCrypto (env : CryptoEnv) : Keeps (Unseen L c) (startCrypto c env) :=
  keeps_bind keeps_get fun _ => keeps_bind (keeps_outcome _) fun _ =>
    unseen_setClient c (fun _ => rfl) (fun _ => rfl) (fun _ => rfl) fun _ => rfl

/-! ### Assignments and the row -/

/-- A change of the row is seen as that. -/
theorem triple_setRow (f : ClientRow → ClientRow) :
    Triple (Sees c v) (setClientRow c f) (fun _ => Sees c { v with row := f v.row }) E := by
  intro w h
  exact .intro h.lt h.clientLt (by rw [Store.get_modify_self]; exact h.id)
    (by rw [Store.get_modify_self]; exact congrArg f h.row)
    (by rw [Store.get_modify_self]; exact h.started)
    (by rw [Store.get_modify_self]; exact h.client) h.syncing h.stored h.cached

/-- The flag that is set is seen. -/
theorem triple_setStarted (started : Bool) :
    Triple (Sees c v) (setClient c fun cl => { cl with started := started } : Action L Unit)
      (fun _ => Sees c { v with started := started }) E := by
  intro w h
  exact .intro h.lt h.clientLt (by rw [Store.get_modify_self]; exact h.id)
    (by rw [Store.get_modify_self]; exact h.row) (by rw [Store.get_modify_self])
    (by rw [Store.get_modify_self]; exact h.client) h.syncing h.stored h.cached

/-- So is a sync that is started or stopped. -/
theorem triple_setSyncing (f : Option String) :
    Triple (Sees c v) (setMatrixClient v.client fun mc => { mc with syncing := f } : Action L Unit)
      (fun _ => Sees c { v with syncing := f }) E := by
  intro w h
  exact .intro h.lt h.clientLt h.id h.row h.started h.client
    (by rw [Store.get_modify_self]) h.stored h.cached

/-- `update` writes the fields to the row, if there is one. -/
theorem triple_update (h : v.stored.isSome = true → v.row.notNull = true) :
    Triple (Sees c v) (update c : Action L Unit) (fun _ => Sees c v.saved) E := by
  intro w hw
  have hrow : w.clientRows (w.clients.get c).id = v.stored := by rw [hw.id, hw.stored]
  simp only [update, exec_get_bind, hrow]
  cases hs : v.stored with
  | none =>
    rw [ClientView.saved, hs]
    exact hw
  | some r =>
    have hnotNull : (w.clients.get c).row.notNull = true := by
      rw [hw.row]
      exact h (by rw [hs]; rfl)
    rw [hnotNull, ClientView.saved, hs]
    exact .intro hw.lt hw.clientLt hw.id hw.row hw.started hw.client hw.syncing
      (by rw [← hw.id, ← hw.row]; exact Function.update_self _ _ _) hw.cached

/-- … and raises if a credential is missing. -/
theorem triple_update_null (hs : v.stored.isSome = true) (h : v.row.notNull = false) :
    Triple (Sees c v) (update c : Action L Unit) (fun _ _ => False) (Sees c v) := by
  intro w hw
  have hrow : w.clientRows (w.clients.get c).id = v.stored := by rw [hw.id, hw.stored]
  have hnone : v.stored.isNone = false := by
    cases hv : v.stored with
    | none =>
      rw [hv] at hs
      cases hs
    | some r => rfl
  simp only [update, exec_get_bind, hrow, hnone, hw.row, h, Bool.false_eq_true, if_false]
  exact hw

/-- `start_sync` syncs with the filter of the row, if the client is to sync. -/
theorem triple_startSync :
    Triple (Sees c v) (startSync c : Action L Unit)
      (fun _ => Sees c { v with
        syncing := if v.row.sync then some v.row.filterId else v.syncing }) E := by
  refine triple_read fun w hw => ?_
  dsimp only
  rw [hw.row, hw.client, when]
  split
  · exact triple_setSyncing _
  · exact triple_pure fun _ h => h

/-- `stop_sync` ends the sync. -/
theorem triple_stopSync :
    Triple (Sees c v) (stopSync c : Action L Unit)
      (fun _ => Sees c { v with syncing := none }) E := by
  refine triple_read fun w hw => ?_
  rw [hw.client]
  exact triple_setSyncing _

/-! ### A new Matrix client -/

/-- The clients, their rows and cache entries and the sync tasks are the same. -/
structure SyncUnchanged (w w' : World L) : Prop where
  clients     : w'.clients = w.clients
  clientRows  : w'.clientRows = w.clientRows
  clientCache : w'.clientCache = w.clientCache
  nextMatrix  : w'.matrixClients.next = w.matrixClients.next
  syncing     : ∀ q, (w'.matrixClients.get q).syncing = (w.matrixClients.get q).syncing

/-- The frame of a step that keeps them. -/
def SameSync (L : Type) : Frame (World L) where
  rel := SyncUnchanged
  refl _ := ⟨rfl, rfl, rfl, rfl, fun _ => rfl⟩
  trans h h' :=
    ⟨h'.clients.trans h.clients, h'.clientRows.trans h.clientRows,
      h'.clientCache.trans h.clientCache, h'.nextMatrix.trans h.nextMatrix,
      fun q => (h'.syncing q).trans (h.syncing q)⟩

/-- A field besides the sync leaves all clients as they are. -/
theorem sameSync_setMatrixClient (m : Ref) {f : MatrixClient → MatrixClient}
    (hf : ∀ mc, (f mc).syncing = mc.syncing) : Keeps (SameSync L) (setMatrixClient m f) :=
  fun _ => ⟨rfl, rfl, rfl, rfl, Store.view_modify _ _ _ MatrixClient.syncing hf⟩

/-- A handler at a Matrix client does. -/
theorem sameSync_addEventHandler (m : Ref) (t : EventType) (h : Handler) :
    Keeps (SameSync L) (addEventHandler m t h) := fun _ => ⟨rfl, rfl, rfl, rfl, fun _ => rfl⟩

/-- So do the handlers of the crypto machine that are taken away. -/
theorem sameSync_removeCryptoEventHandlers (c : Ref) :
    Keeps (SameSync L) (removeCryptoEventHandlers c) := by
  refine keeps_bind keeps_get fun w => ?_
  split
  · exact keeps_pure ()
  · exact keeps_forM fun h _ _ => ⟨rfl, rfl, rfl, rfl, fun _ => rfl⟩

/-- What leaves all clients leaves what is seen. -/
theorem Sees.of_sameSync (h : Sees c v w) (hs : SyncUnchanged w w') : Sees c v w' :=
  .intro (by rw [hs.clients]; exact h.lt) (by rw [hs.nextMatrix]; exact h.clientLt)
    (by rw [hs.clients]; exact h.id) (by rw [hs.clients]; exact h.row)
    (by rw [hs.clients]; exact h.started) (by rw [hs.clients]; exact h.client)
    (by rw [hs.syncing]; exact h.syncing) (by rw [hs.clientRows]; exact h.stored)
    (by rw [hs.clientCache]; exact h.cached)

/-- The same for a program. -/
theorem unseen_of_sameSync {α : Type} {m : Action L α} (hm : Keeps (SameSync L) m) :
    Keeps (Unseen L c) m := hm.mono fun h _ hv => hv.of_sameSync h

/-- The crypto machine is prepared without an exception. -/
theorem returns_prepareCrypto (c : Ref) : Returns (prepareCrypto c : Action L Unit) :=
  raises_bind raises_get fun _ => raises_bind (raises_forM fun _ _ => raises_modify _) fun _ =>
    raises_bind (raises_modify _) fun _ => raises_modify _

/-- It is not in the view. -/
theorem unseen_prepareCrypto (q : Ref) : Keeps (Unseen L c) (prepareCrypto q) :=
  keeps_bind keeps_get fun _ =>
    keeps_bind (keeps_forM fun _ _ => unseen_of_sameSync (sameSync_addEventHandler _ _ _)) fun _ =>
    keeps_bind (unseen_setClient q (fun _ => rfl) (fun _ => rfl) (fun _ => rfl) fun _ => rfl)
      fun _ => unseen_of_sameSync (sameSync_setMatrixClient _ fun _ => rfl)

/-- Besides the client, there is a Matrix client `m` that is not its own and does not sync. -/
structure Spare (c : Ref) (v : ClientView) (m : Ref) (w : World L) : Prop extends Sees c v w where
  spareLt   : m < w.matrixClients.next
  spareNe   : m ≠ v.client
  spareSync : (w.matrixClients.get m).syncing = none

/-- A new Matrix client stays spare while no client changes. -/
theorem Spare.of_sameSync {m : Ref} (h : Spare c v m w) (hs : SyncUnchanged w w') :
    Spare c v m w' :=
  { h.toSees.of_sameSync hs with
    spareLt := by rw [hs.nextMatrix]; exact h.spareLt
    spareNe := h.spareNe
    spareSync := (hs.syncing m).trans h.spareSync }

/-- `_make_client` makes a Matrix client that is spare. -/
theorem triple_makeClient (homeserver token deviceId : Option String) :
    Triple (Sees c v) (makeClient c homeserver token deviceId : Action L Ref)
      (fun m => Spare c v m) E := by
  intro w h
  have hold {q : Ref} (a : MatrixClient) (hq : q < w.matrixClients.next) :
      (w.matrixClients.alloc a).get q = w.matrixClients.get q := Store.get_alloc_of_lt _ _ hq
  exact
    { lt := h.lt
      clientLt := Nat.lt_succ_of_lt h.clientLt
      view := by
        rw [← h.view, view, view]
        have hc : (w.clients.get c).client < w.matrixClients.next := by
          rw [h.client]
          exact h.clientLt
        simp only [ClientView.mk.injEq, true_and, and_true]
        exact congrArg MatrixClient.syncing (hold _ hc)
      spareLt := Nat.lt_succ_self _
      spareNe := fun heq => by
        have hlt := h.clientLt
        rw [← heq] at hlt
        exact Nat.lt_irrefl _ hlt
      spareSync := congrArg MatrixClient.syncing (Store.get_alloc_self _ _) }

end Client

namespace ClientView

/-- After the switch to the Matrix client `m`, which does not sync yet. -/
def switched (v : ClientView) (m : Ref) (accessToken homeserver : Option String)
    (deviceId : String) : ClientView :=
  { v with client := m, syncing := none, row := { v.row with homeserver, accessToken, deviceId } }

/-- `start_sync` -/
def synced (v : ClientView) : ClientView :=
  { v with syncing := if v.row.sync then some v.row.filterId else v.syncing }

end ClientView

namespace Client

variable {c : Ref} {v v' : ClientView} {w w' : World L} {E : World L → Prop}

/-- What `_start_crypto` raises for a device, if encryption is enabled for it. -/
def cryptoFailure (S : Setup L) (crypto : CryptoEnv) (deviceId : String) : Option PyExc :=
  if deviceId != "" && S.cryptoDb then
    match crypto.run deviceId with
    | .ok _    => none
    | .error e => some e
  else none

/-- The crypto machine starts or raises, and the state of trust is all that is set. -/
theorem exec_startCrypto (crypto : CryptoEnv) (w : World L) :
    (startCrypto c crypto).exec w = match crypto.run (w.clients.get c).row.deviceId with
      | .ok t    => (.ok (), { w with
          clients := w.clients.modify c fun cl => { cl with trustState := some t } })
      | .error e => (.error e, w) := by
  rw [startCrypto, exec_get_bind, exec_bind, exec_outcome]
  cases crypto.run (w.clients.get c).row.deviceId <;> rfl

/-- Preparing it leaves the view. -/
theorem triple_prepareCrypto :
    Triple (Sees c v) (prepareCrypto c : Action L Unit) (fun _ => Sees c v) E := by
  intro w hw
  obtain ⟨_, hok⟩ := (returns_prepareCrypto c).exists_ok w
  rw [show (prepareCrypto c).exec w = (.ok (), ((prepareCrypto c).exec w).2) from
    Prod.ext hok rfl]
  exact unseen_prepareCrypto c w v hw

/-- Starting it leaves the view, and tells whether the device is the right one. -/
theorem triple_startCrypto (crypto : CryptoEnv) :
    Triple (Sees c v) (startCrypto c crypto : Action L Unit)
      (fun _ w => (∃ t, crypto.run v.row.deviceId = .ok t) ∧ Sees c v w)
      (fun w => (∃ e, crypto.run v.row.deviceId = .error e) ∧ Sees c v w) := by
  intro w hw
  have hunseen := unseen_startCrypto (c := c) crypto w v hw
  rw [exec_startCrypto, hw.row] at hunseen ⊢
  cases hr : crypto.run v.row.deviceId with
  | ok t =>
    rw [hr] at hunseen
    exact ⟨⟨t, rfl⟩, hunseen⟩
  | error e => exact ⟨⟨e, rfl⟩, hw⟩

/-! ### Switching the Matrix client -/

/-- Handlers are taken away without an exception. -/
theorem returns_removeCryptoEventHandlers :
    Returns (removeCryptoEventHandlers c : Action L Unit) := by
  refine raises_bind raises_get fun w => ?_
  split
  · exact raises_pure ()
  · exact raises_forM fun _ _ => raises_modify _

variable {m : Ref}

/-- A program that raises nothing and leaves the clients keeps a Matrix client spare. -/
theorem spare_of_returns {α : Type} {n : Action L α} (hn : Keeps (SameSync L) n) (hr : Returns n) :
    Triple (Spare c v m) n (fun _ => Spare c v m) E := by
  intro w hw
  obtain ⟨a, hok⟩ := hr.exists_ok w
  rw [show n.exec w = (.ok a, (n.exec w).2) from Prod.ext hok rfl]
  exact hw.of_sameSync (hn w)

/-- The sync is stopped on the old Matrix client. -/
theorem spare_stopSync : Triple (Spare c v m) (stopSync c : Action L Unit)
    (fun _ => Spare c { v with syncing := none } m) E := by
  intro w hw
  have hsees := triple_stopSync (v := v) (E := E) w hw.toSees
  have hclient : (w.clients.get c).client = v.client := hw.client
  exact
    { hsees with
      spareLt := hw.spareLt
      spareNe := hw.spareNe
      spareSync := by
        have hne : m ≠ (w.clients.get c).client := by
          rw [hclient]
          exact hw.spareNe
        exact (congrArg MatrixClient.syncing (Store.get_modify_ne w.matrixClients
          (fun mc => { mc with syncing := none }) hne)).trans hw.spareSync }

/-- The spare client does not sync, so neither does one that it is assigned to. -/
theorem sees_assign : Triple (Spare c { v with syncing := none } m)
    (setClient c fun cl => { cl with client := m } : Action L Unit)
    (fun _ => Sees c { v with syncing := none, client := m }) E := by
  intro w hw
  exact .intro hw.lt hw.spareLt (by rw [Store.get_modify_self]; exact hw.id)
    (by rw [Store.get_modify_self]; exact hw.row)
    (by rw [Store.get_modify_self]; exact hw.started) (by rw [Store.get_modify_self])
    hw.spareSync hw.stored hw.cached

/-- With encryption, the client syncs unless `_start_crypto` raises. -/
theorem triple_startCrypto_sync (crypto : CryptoEnv)
    (hon : (v.row.deviceId != "" && S.cryptoDb) = true) :
    Triple (Sees c v) (startCrypto c crypto >>= fun _ => startSync c : Action L Unit)
      (fun _ w => cryptoFailure S crypto v.row.deviceId = none ∧ Sees c v.synced w)
      (fun w => (∃ e, cryptoFailure S crypto v.row.deviceId = some e) ∧ Sees c v w) := by
  intro w hw
  have hstart := triple_startCrypto (L := L) crypto w hw
  rw [exec_bind]
  rcases hr : (startCrypto c crypto).exec w with ⟨e | _, w'⟩ <;> rw [hr] at hstart
  · obtain ⟨⟨e, he⟩, hw'⟩ := hstart
    exact ⟨⟨e, by rw [cryptoFailure, hon, if_pos rfl, he]⟩, hw'⟩
  · obtain ⟨⟨t, ht⟩, hw'⟩ := hstart
    have hnone : cryptoFailure S crypto v.row.deviceId = none := by
      rw [cryptoFailure, hon, if_pos rfl, ht]
    exact (triple_startSync (E := fun w => (∃ e, cryptoFailure S crypto v.row.deviceId = some e) ∧
      Sees c v w)).post (fun _ _ hw => ⟨hnone, hw⟩) (fun _ hw => hw) w' hw'

/-- **Switching the Matrix client.**  The client has the new one and the new credentials, and
    syncs unless encryption fails. -/
theorem triple_switchAccess (token homeserver : Option String) (deviceId : String)
    (crypto : CryptoEnv) :
    Triple (Spare c v m) (switchAccess S c m token homeserver deviceId crypto)
      (fun _ w => cryptoFailure S crypto deviceId = none ∧
        Sees c (v.switched m token homeserver deviceId).synced w)
      (fun w => (∃ e, cryptoFailure S crypto deviceId = some e) ∧
        Sees c (v.switched m token homeserver deviceId) w) := by
  -- up to the assignment the new client is spare
  refine spare_stopSync.bind fun _ =>
    (spare_of_returns (sameSync_removeCryptoEventHandlers c) returns_removeCryptoEventHandlers).bind
      fun _ => triple_read fun w _ => ?_
  refine (spare_of_returns (sameSync_setMatrixClient _ ?_) (raises_modify _)).bind fun _ =>
    (spare_of_returns (sameSync_setMatrixClient _ ?_) (raises_modify _)).bind fun _ =>
    sees_assign.bind fun _ => (triple_setRow _).bind fun _ => ?_
  · exact fun _ => rfl
  · exact fun _ => rfl
  have hswitched : ClientView.switched v m token homeserver deviceId =
      { v with
        syncing := none, client := m
        row := { v.row with homeserver, accessToken := token, deviceId } } := rfl
  rw [← hswitched]
  refine triple_read fun w hw => ?_
  have henable : enableCrypto S (w.clients.get c) = (deviceId != "" && S.cryptoDb) := by
    rw [enableCrypto, hw.row]
    rfl
  rw [henable]
  cases hon : (deviceId != "" && S.cryptoDb) with
  | true =>
    rw [if_pos rfl]
    have hdevice : (v.switched m token homeserver deviceId).row.deviceId = deviceId := rfl
    have hsync := triple_startCrypto_sync (S := S) (c := c)
      (v := v.switched m token homeserver deviceId) crypto (by rw [hdevice]; exact hon)
    exact triple_prepareCrypto.bind fun _ => hsync
  | false =>
    rw [if_neg Bool.false_ne_true]
    have hnone : cryptoFailure S crypto deviceId = none := by
      rw [cryptoFailure, hon, if_neg Bool.false_ne_true]
    have hunset {E : World L → Prop} {x : ClientView} : Triple (Sees c x)
        (setClient c fun cl => { cl with crypto := none } : Action L Unit)
        (fun _ => Sees c x) E := fun w hw =>
      unseen_setClient (f := fun cl => { cl with crypto := none }) c (fun _ => rfl) (fun _ => rfl)
        (fun _ => rfl) (fun _ => rfl) w x hw
    exact hunset.bind fun _ => triple_startSync.post (fun _ _ hw => ⟨hnone, hw⟩) fun _ hw => hw

/-! ### Access details -/

/-- The details are given and not the ones that the client has. -/
structure Asks (token homeserver deviceId : Option String) (v : ClientView) : Prop where
  given : truthy token = true ∨ truthy homeserver = true
  other : ¬ (token = v.row.accessToken ∧ homeserver = v.row.homeserver ∧
    deviceId.getD v.row.deviceId = v.row.deviceId)

/-- What `whoami` or the check of its answer raises. -/
def refusal (whoami : Except PyExc Whoami) (deviceId : String) (v : ClientView) : Option PyExc :=
  match whoami with
  | .error e => some e
  | .ok me   =>
    if me.userId ≠ v.id then some { cls := .valueError, msg := "MXID mismatch: " ++ me.userId }
    else if otherDevice me deviceId then
      some { cls := .valueError, msg := "Device ID mismatch: " ++ me.deviceId.getD "" }
    else none

/-- How `update_access_details` ended, and how the client looks then. -/
inductive AccessOutcome (S : Setup L) (token homeserver deviceId : Option String)
    (env : AccessEnv) (v : ClientView) : Except PyExc Unit → ClientView → Prop
  | same (h : ¬ Asks token homeserver deviceId v) :
      AccessOutcome S token homeserver deviceId env v (.ok ()) v
  | refused (h : Asks token homeserver deviceId v) {e : PyExc}
      (he : refusal env.whoami (deviceId.getD v.row.deviceId) v = some e) :
      AccessOutcome S token homeserver deviceId env v (.error e) v
  | unencrypted (h : Asks token homeserver deviceId v)
      (hnone : refusal env.whoami (deviceId.getD v.row.deviceId) v = none) {e e' : PyExc}
      (he : cryptoFailure S env.crypto (deviceId.getD v.row.deviceId) = some e') {m : Ref}
      (hm : m ≠ v.client) :
      AccessOutcome S token homeserver deviceId env v (.error e)
        (v.switched m token homeserver (deviceId.getD v.row.deviceId))
  | switched (h : Asks token homeserver deviceId v)
      (hnone : refusal env.whoami (deviceId.getD v.row.deviceId) v = none)
      (hcrypto : cryptoFailure S env.crypto (deviceId.getD v.row.deviceId) = none) {m : Ref}
      (hm : m ≠ v.client) :
      AccessOutcome S token homeserver deviceId env v (.ok ())
        (v.switched m token homeserver (deviceId.getD v.row.deviceId)).synced

/-- **Access details.** -/
theorem exec_updateAccessDetails (hv : Sees c v w) (token homeserver deviceId : Option String)
    (env : AccessEnv) :
    ∃ r w' v', (updateAccessDetails S c token homeserver deviceId env).exec w = (r, w') ∧
      Sees c v' w' ∧ AccessOutcome S token homeserver deviceId env v r v' := by
  rw [updateAccessDetails, exec_get_bind]
  dsimp only
  rw [hv.row, hv.id]
  -- nothing is given, or nothing new
  by_cases hgiven : truthy token = true ∨ truthy homeserver = true
  swap
  · rw [if_pos (by simpa using hgiven)]
    exact ⟨_, _, v, rfl, hv, .same fun h => hgiven h.given⟩
  rw [if_neg (by simpa [Classical.or_iff_not_imp_left] using hgiven)]
  by_cases hsame : token = v.row.accessToken ∧ homeserver = v.row.homeserver ∧
      deviceId.getD v.row.deviceId = v.row.deviceId
  · rw [if_pos hsame]
    exact ⟨_, _, v, rfl, hv, .same fun h => h.other hsame⟩
  rw [if_neg hsame]
  have hasks : Asks token homeserver deviceId v := ⟨hgiven, hsame⟩
  obtain ⟨m, w₁, hmake, hspare⟩ := (triple_makeClient (E := fun _ => False) homeserver token
    (some (deviceId.getD v.row.deviceId))).returns hv
  rw [exec_bind_ok hmake, exec_bind, exec_outcome]
  -- the homeserver is asked whose token it is, with a client on the side
  cases hwhoami : env.whoami with
  | error e => exact ⟨_, _, v, rfl, hspare.toSees, .refused hasks (by rw [hwhoami]; rfl)⟩
  | ok me =>
    dsimp only
    split
    · next hid =>
      refine ⟨_, _, v, rfl, hspare.toSees, .refused hasks ?_⟩
      rw [hwhoami, refusal, if_pos hid]
    split
    · next hid hdevice =>
      refine ⟨_, _, v, rfl, hspare.toSees, .refused hasks ?_⟩
      rw [hwhoami, refusal, if_neg hid, if_pos hdevice]
    next hid hdevice =>
    -- it is the right user and device: the client switches over
    have hnone : refusal env.whoami (deviceId.getD v.row.deviceId) v = none := by
      rw [hwhoami, refusal, if_neg hid, if_neg hdevice]
    have hswitch := triple_switchAccess (S := S) token homeserver (deviceId.getD v.row.deviceId)
      env.crypto w₁ hspare
    rcases hr : (switchAccess S c m token homeserver (deviceId.getD v.row.deviceId)
      env.crypto).exec w₁ with ⟨e | _, w₂⟩ <;> rw [hr] at hswitch
    · obtain ⟨⟨e', he⟩, hsees⟩ := hswitch
      exact ⟨_, _, _, rfl, hsees, .unencrypted hasks hnone he hspare.spareNe⟩
    · exact ⟨_, _, _, rfl, hswitch.2, .switched hasks hnone hswitch.1 hspare.spareNe⟩

/-- The call makes the client act through a new Matrix client. -/
structure Swaps (token homeserver deviceId : Option String) (env : AccessEnv) (v : ClientView) :
    Prop where
  asks   : Asks token homeserver deviceId v
  whoami : refusal env.whoami (deviceId.getD v.row.deviceId) v = none

/-- Without a swap, a Matrix client is made at most. -/
theorem updateAccessDetails_cases (c : Ref) (token homeserver deviceId : Option String)
    (env : AccessEnv) (w : World L) :
    let device := deviceId.getD (w.clients.get c).row.deviceId
    ((updateAccessDetails S c token homeserver deviceId env).exec w).2 = w ∨
    ((updateAccessDetails S c token homeserver deviceId env).exec w).2 =
      ((makeClient c homeserver token (some device) : Action L Ref).exec w).2 ∨
    Swaps token homeserver deviceId env (view c w) ∧
      ((updateAccessDetails S c token homeserver deviceId env).exec w).2 = ((do
        let m ← makeClient c homeserver token (some device)
        switchAccess S c m token homeserver device env.crypto : Action L Unit).exec w).2 := by
  intro device
  rw [updateAccessDetails, exec_get_bind]
  dsimp only
  by_cases hgiven : truthy token = true ∨ truthy homeserver = true
  swap
  · rw [if_pos (by simpa using hgiven)]
    exact .inl rfl
  rw [if_neg (by simpa [Classical.or_iff_not_imp_left] using hgiven)]
  split
  · exact .inl rfl
  next hsame =>
  -- from here on there is a new Matrix client, used or not
  obtain ⟨m, w₁, hmake⟩ : ∃ m w₁, (makeClient c homeserver token (some device) :
      Action L Ref).exec w = (.ok m, w₁) := ⟨_, _, rfl⟩
  rw [exec_bind_ok hmake, exec_bind_ok hmake, hmake, exec_bind, exec_outcome]
  cases hwhoami : env.whoami with
  | error e => exact .inr (.inl rfl)
  | ok me =>
    dsimp only
    split
    · exact .inr (.inl rfl)
    split
    · exact .inr (.inl rfl)
    -- and now it is used
    next hid hdevice =>
    refine .inr (.inr ⟨⟨⟨hgiven, hsame⟩, ?_⟩, rfl⟩)
    rw [hwhoami, refusal]
    exact (if_neg hid).trans (if_neg hdevice)

/-- With a swap, the client gets the new Matrix client. -/
theorem exec_updateAccessDetails_of_swaps {token homeserver deviceId : Option String}
    {env : AccessEnv}
    (h : Swaps token homeserver deviceId env (view c w)) :
    let device := deviceId.getD (w.clients.get c).row.deviceId
    (updateAccessDetails S c token homeserver deviceId env).exec w = (do
      let m ← makeClient c homeserver token (some device)
      switchAccess S c m token homeserver device env.crypto : Action L Unit).exec w := by
  intro device
  have hgiven := h.asks.given
  -- a call that asks for nothing new would have ended before
  have hother : ¬ (token = (w.clients.get c).row.accessToken ∧
      homeserver = (w.clients.get c).row.homeserver ∧ device = (w.clients.get c).row.deviceId) :=
    h.asks.other
  rw [updateAccessDetails, exec_get_bind]
  dsimp only
  rw [if_neg (by simpa [Classical.or_iff_not_imp_left] using hgiven), if_neg hother]
  obtain ⟨m, w₁, hmake⟩ : ∃ m w₁, (makeClient c homeserver token (some device) :
      Action L Ref).exec w = (.ok m, w₁) := ⟨_, _, rfl⟩
  rw [exec_bind_ok hmake, exec_bind_ok hmake, exec_bind, exec_outcome]
  have hwhoami := h.whoami
  cases hme : env.whoami with
  | error e =>
    rw [hme] at hwhoami
    cases hwhoami
  | ok me =>
    rw [hme, refusal] at hwhoami
    by_cases hid : me.userId ≠ (w.clients.get c).id
    · rw [if_pos (show me.userId ≠ (view c w).id from hid)] at hwhoami
      cases hwhoami
    by_cases hdevice : otherDevice me device = true
    · rw [if_neg (show ¬ me.userId ≠ (view c w).id from hid),
        if_pos (show otherDevice me (deviceId.getD (view c w).row.deviceId) = true from hdevice)]
        at hwhoami
      cases hwhoami
    dsimp only
    rw [if_neg hid, if_neg hdevice]

/-! ### Frames over views -/

/-- What the step changes in the client, `F` allows. -/
def Seen (L : Type) (c : Ref) (F : Frame ClientView) : Frame (World L) where
  rel w w' := ∀ v, Sees c v w → ∃ v', Sees c v' w' ∧ F.rel v v'
  refl _ v h := ⟨v, h, F.refl v⟩
  trans h h' v hv := by
    obtain ⟨v₁, hv₁, h₁⟩ := h v hv
    obtain ⟨v₂, hv₂, h₂⟩ := h' v₁ hv₁
    exact ⟨v₂, hv₂, F.trans h₁ h₂⟩

variable {F : Frame ClientView}

/-- A step that is not seen is in any relation of views. -/
theorem seen_of_unseen {α : Type} {m : Action L α} (hm : Keeps (Unseen L c) m) :
    Keeps (Seen L c F) m := hm.mono fun h v hv => ⟨v, h v hv, F.refl v⟩

/-- From the triples of a step. -/
theorem seen_of_triple {α : Type} {m : Action L α} {g : ClientView → ClientView}
    (hm : ∀ v, Triple (Sees c v) m (fun _ => Sees c (g v)) (Sees c (g v)))
    (hg : ∀ v, F.rel v (g v)) : Keeps (Seen L c F) m := fun _ v hv =>
  ⟨g v, (hm v).final hv, hg v⟩

/-- A change of the row is in a relation that allows it. -/
theorem seen_setRow {f : ClientRow → ClientRow}
    (h : ∀ v : ClientView, F.rel v { v with row := f v.row }) :
    Keeps (Seen L c F) (setClientRow c f) := seen_of_triple (fun _ => triple_setRow f) h

/-- So is saving. -/
theorem seen_update (h : ∀ v : ClientView, F.rel v v.saved) :
    Keeps (Seen L c F) (update c) := by
  intro w v hv
  by_cases hnull : v.stored.isSome = true → v.row.notNull = true
  · exact ⟨v.saved, (triple_update hnull).final hv, h v⟩
  · rw [Classical.not_imp, Bool.not_eq_true] at hnull
    refine ⟨v, ?_, F.refl v⟩
    exact ((triple_update_null hnull.1 hnull.2).post (fun _ _ h => h.elim) fun _ h => h).final
      (R := Sees c v) hv

/-! ### The updates of single fields -/

variable (hsaved : ∀ v : ClientView, F.rel v v.saved)

include hsaved

/-- `update_enabled` sets one field of the row. -/
theorem seen_updateEnabled (e : Option Bool) (save : Bool)
    (h : ∀ (v : ClientView) b, F.rel v { v with row := { v.row with enabled := b } }) :
    Keeps (Seen L c F) (updateEnabled c e save) := by
  refine keeps_bind keeps_get fun w => ?_
  cases e with
  | none => exact keeps_pure ()
  | some b =>
    exact keeps_ite (keeps_pure ()) <| keeps_bind (seen_setRow fun v => h v b) fun _ =>
      keeps_when (seen_update hsaved)

/-- The name and the avatar are one field each. -/
theorem seen_updateProfile (field : ProfileField) (value : Option String)
    (refused : Option PyExc) (profile : ProfileAnswer) (save : Bool)
    (h : ∀ (v : ClientView) x, F.rel v { v with row := field.set x v.row }) :
    Keeps (Seen L c F) (updateProfile field c value refused profile save) := by
  refine keeps_bind keeps_get fun w => ?_
  cases value with
  | none => exact keeps_pure ()
  | some x =>
    have hsave : Keeps (Seen L c F) (when save (update c)) := keeps_when (seen_update hsaved)
    refine keeps_ite (keeps_pure ()) (keeps_bind (seen_setRow fun v => h v x) fun _ => ?_)
    dsimp only
    split
    · exact keeps_bind (keeps_raiseIf _) fun _ => hsave
    · exact keeps_bind (seen_of_unseen (unseen_updateRemoteProfile _)) fun _ => hsave

/-- `update_autojoin` sets one field. -/
theorem seen_updateAutojoin (autojoin : Option Bool) (save : Bool)
    (h : ∀ (v : ClientView) b, F.rel v { v with row := { v.row with autojoin := b } }) :
    Keeps (Seen L c F) (updateAutojoin c autojoin save) := by
  have hhandlers {f : World L → World L} (hf : ∀ w, SyncUnchanged w (f w)) :
      Keeps (Seen L c F) (modify f : Action L Unit) :=
    seen_of_unseen (unseen_of_sameSync (keeps_modify hf))
  refine keeps_bind keeps_get fun w => ?_
  cases autojoin with
  | none => exact keeps_pure ()
  | some b =>
    have hassign : Keeps (Seen L c F) (do
        setClientRow c fun row => { row with autojoin := b }
        when save (update c) : Action L Unit) :=
      keeps_bind (seen_setRow fun v => h v b) fun _ => keeps_when (seen_update hsaved)
    refine keeps_ite (keeps_pure ()) ?_
    dsimp only
    split
    · exact keeps_bind (hhandlers fun _ => ⟨rfl, rfl, rfl, rfl, fun _ => rfl⟩) fun _ => hassign
    · exact keeps_bind (hhandlers fun _ => ⟨rfl, rfl, rfl, rfl, fun _ => rfl⟩) fun _ => hassign

/-- `update_online` sets one field. -/
theorem seen_updateOnline (online : Option Bool) (save : Bool)
    (h : ∀ (v : ClientView) b, F.rel v { v with row := { v.row with online := b } }) :
    Keeps (Seen L c F) (updateOnline c online save) := by
  refine keeps_bind keeps_get fun w => ?_
  cases online with
  | none => exact keeps_pure ()
  | some b =>
    exact keeps_ite (keeps_pure ()) <|
      keeps_bind (seen_of_unseen (unseen_of_sameSync (sameSync_setMatrixClient _ fun _ => rfl)))
        fun _ => keeps_bind (seen_setRow fun v => h v b) fun _ => keeps_when (seen_update hsaved)

end Client

end Maubot
