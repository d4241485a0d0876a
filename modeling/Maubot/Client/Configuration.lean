import Maubot.Client.Calls
import Maubot.Client.Views

namespace Maubot

open Prog

/-!
# Clients — what the Matrix client is set up with

`postinit` sets the Matrix client of a client up; `update_autojoin` and `update_online` keep
it in step with the fields.

* `Configured c w` — the Matrix client of `c` is set up as `postinit` would set it up for the
  fields that `c` has now;
* `Settled c` — the frame of a step that leaves the settings of `c` alone;
* `Wired c w` — `c` is configured, clients do not share Matrix clients, and plugins have
  registered nothing but handlers of their own;
* `Call.KeepsMatrixClient c` — the calls that do not give `c` another Matrix client, which is
  not set up (`not_configured_of_swap`);
* `configured_of_reach` — the resulting property over whole runs.
-/

variable {L : Type} {S : Setup L}

/-- The handler is a method of the client `c`. -/
def Handler.isOf (c : Ref) : Handler → Bool
  | .handleInvite d => d == c
  | .setSyncOk d _  => d == c
  | _               => false

/-- A handler of a plugin is none of the client. -/
theorem Handler.isOf_of_isPlugin {c : Ref} {h : Handler} (hp : h.isPlugin = true) :
    h.isOf c = false := by
  cases h with
  | plugin _ => rfl
  | handleInvite _ => cases hp
  | setSyncOk _ _ => cases hp
  | crypto _ _ => rfl

namespace Client

/-! ### The property -/

/-- How the Matrix client of a client is set up, and the fields that it is set up from. -/
structure Settings where
  autojoin          : Bool
  online            : Bool
  ignoreInitialSync : Bool
  ignoreFirstSync   : Bool
  presence          : Bool
  middleware        : List (EventType × Ref)
  /-- the methods of the client among the event handlers -/
  handlers          : List (EventType × Handler)

def settings (c : Ref) (w : World L) : Settings :=
  let cl := w.clients.get c
  let m := w.matrixClients.get cl.client
  { autojoin := cl.row.autojoin
    online := cl.row.online
    ignoreInitialSync := m.ignoreInitialSync
    ignoreFirstSync := m.ignoreFirstSync
    presence := m.presence
    middleware := m.eventMiddleware
    handlers := (w.eventHandlers.get m.eventHandlers).filter (·.2.isOf c) }

/-- As `postinit` sets the Matrix client of `c` up. -/
structure Settings.InOrder (c : Ref) (s : Settings) : Prop where
  ignoreInitialSync : s.ignoreInitialSync = true
  ignoreFirstSync   : s.ignoreFirstSync = true
  presence          : s.presence = s.online
  tombstone         : s.middleware.count ("ROOM_TOMBSTONE", c) = 1
  invite            : s.handlers.count ("ROOM_MEMBER", .handleInvite c) =
    if s.autojoin then 1 else 0
  errored           : ("SYNC_ERRORED", .setSyncOk c false) ∈ s.handlers
  successful        : ("SYNC_SUCCESSFUL", .setSyncOk c true) ∈ s.handlers

/-- The Matrix client of `c` is set up for the fields of `c`. -/
def Configured (c : Ref) (w : World L) : Prop := (settings c w).InOrder c

variable {c q : Ref} {w w' w'' : World L}

/-! ### Steps that leave the settings alone -/

/-- The dict of the event handlers that the Matrix client of `d` has. -/
abbrev handlersOf (w : World L) (d : Ref) : Ref :=
  (w.matrixClients.get (w.clients.get d).client).eventHandlers

/-- The clients have the same Matrix clients with the same dicts, and `c` the same settings. -/
structure SettingsKept (c : Ref) (w w' : World L) : Prop where
  next         : w'.clients.next = w.clients.next
  client       : ∀ d, (w'.clients.get d).client = (w.clients.get d).client
  cache        : w'.clientCache = w.clientCache
  nextMatrix   : w'.matrixClients.next = w.matrixClients.next
  dict         : ∀ m, (w'.matrixClients.get m).eventHandlers = (w.matrixClients.get m).eventHandlers
  nextHandlers : w'.eventHandlers.next = w.eventHandlers.next
  registered   : PluginInstance.PluginHandlers w w'
  settings     : settings c w' = settings c w

/-- The settings are what they are. -/
theorem SettingsKept.refl (w : World L) : SettingsKept c w w :=
  ⟨rfl, fun _ => rfl, rfl, rfl, fun _ => rfl, rfl, .of_eq rfl, rfl⟩

/-- Kept twice they are kept. -/
theorem SettingsKept.trans (h : SettingsKept c w w') (h' : SettingsKept c w' w'') :
    SettingsKept c w w'' where
  next := h'.next.trans h.next
  client d := (h'.client d).trans (h.client d)
  cache := h'.cache.trans h.cache
  nextMatrix := h'.nextMatrix.trans h.nextMatrix
  dict m := (h'.dict m).trans (h.dict m)
  nextHandlers := h'.nextHandlers.trans h.nextHandlers
  registered p x hx := by
    rcases h'.registered p x hx with hx | hplugin
    · exact h.registered p x hx
    · exact .inr hplugin
  settings := h'.settings.trans h.settings

/-- The frame of a step that leaves the settings of `c` alone. -/
def Settled (L : Type) (c : Ref) : Frame (World L) where
  rel := SettingsKept c
  refl := SettingsKept.refl
  trans := SettingsKept.trans

/-- A step that changes nothing that belongs to clients. -/
theorem settled_modify {f : World L → World L} (hclients : ∀ w, (f w).clients = w.clients)
    (hcache : ∀ w, (f w).clientCache = w.clientCache)
    (hmatrix : ∀ w, (f w).matrixClients = w.matrixClients)
    (hhandlers : ∀ w, (f w).eventHandlers = w.eventHandlers)
    (hplugins : ∀ w, PluginInstance.PluginHandlers w (f w)) :
    Keeps (Settled L c) (modify f : Action L Unit) := fun w =>
  { next := congrArg Store.next (hclients w)
    client := fun d => congrArg (fun s => (s.get d).client) (hclients w)
    cache := hcache w
    nextMatrix := congrArg Store.next (hmatrix w)
    dict := fun m => congrArg (fun s => (s.get m).eventHandlers) (hmatrix w)
    nextHandlers := congrArg Store.next (hhandlers w)
    registered := hplugins w
    settings := by
      show settings c (f w) = settings c w
      unfold settings
      rw [hclients, hmatrix, hhandlers] }

/-- What is assigned to another client, or neither row nor Matrix client. -/
theorem settled_setClient {f : Client → Client} (hclient : ∀ cl, (f cl).client = cl.client)
    (hrow : q = c → ∀ cl, (f cl).row.autojoin = cl.row.autojoin ∧
      (f cl).row.online = cl.row.online) : Keeps (Settled L c) (setClient q f) := by
  intro w
  have hclients (d : Ref) : ((w.clients.modify q f).get d).client = (w.clients.get d).client :=
    Store.view_modify w.clients q f Client.client hclient d
  refine { SettingsKept.refl (c := c) w with client := hclients, settings := ?_ }
  have hfields : ((w.clients.modify q f).get c).row.autojoin = (w.clients.get c).row.autojoin ∧
      ((w.clients.modify q f).get c).row.online = (w.clients.get c).row.online := by
    by_cases hq : q = c
    · subst hq
      have hself : (w.clients.modify q f).get q = f (w.clients.get q) := Store.get_modify_self _ _ _
      rw [hself]
      exact hrow rfl _
    · have hother : (w.clients.modify q f).get c = w.clients.get c :=
        Store.get_modify_ne _ _ (Ne.symm hq)
      rw [hother]
      exact ⟨rfl, rfl⟩
  show settings c { w with clients := w.clients.modify q f } = settings c w
  simp only [settings, hclients, hfields.1, hfields.2]

/-- What is assigned to another Matrix client, or concerns no settings. -/
theorem settingsKept_setMatrixClient {m : Ref} {f : MatrixClient → MatrixClient}
    (hdict : ∀ mc, (f mc).eventHandlers = mc.eventHandlers)
    (hf : m = (w.clients.get c).client → ∀ mc, (f mc).ignoreInitialSync = mc.ignoreInitialSync ∧
      (f mc).ignoreFirstSync = mc.ignoreFirstSync ∧ (f mc).presence = mc.presence ∧
      (f mc).eventMiddleware = mc.eventMiddleware) :
    SettingsKept c w ((setMatrixClient m f : Action L Unit).exec w).2 := by
  have hdicts (d : Ref) : ((w.matrixClients.modify m f).get d).eventHandlers =
      (w.matrixClients.get d).eventHandlers :=
    Store.view_modify w.matrixClients m f MatrixClient.eventHandlers hdict d
  refine { SettingsKept.refl (c := c) w with dict := hdicts, settings := ?_ }
  show settings c { w with matrixClients := w.matrixClients.modify m f } = settings c w
  simp only [settings, hdicts]
  by_cases hm : m = (w.clients.get c).client
  · obtain ⟨hinitial, hfirst, hpresence, hmiddleware⟩ :=
      hf hm (w.matrixClients.get (w.clients.get c).client)
    rw [hm, Store.get_modify_self, hinitial, hfirst, hpresence, hmiddleware]
  · rw [Store.get_modify_ne _ _ (Ne.symm hm)]

/-- Other fields of a Matrix client may be set. -/
theorem settled_setMatrixClient (m : Ref) {f : MatrixClient → MatrixClient}
    (hdict : ∀ mc, (f mc).eventHandlers = mc.eventHandlers)
    (hf : ∀ mc, (f mc).ignoreInitialSync = mc.ignoreInitialSync ∧
      (f mc).ignoreFirstSync = mc.ignoreFirstSync ∧ (f mc).presence = mc.presence ∧
      (f mc).eventMiddleware = mc.eventMiddleware) :
    Keeps (Settled L c) (setMatrixClient m f) := fun _ =>
  settingsKept_setMatrixClient hdict fun _ => hf

/-- Handlers that are not methods of `c` come and go. -/
theorem settled_modifyHandlers (m : Ref)
    {f : List (EventType × Handler) → List (EventType × Handler)}
    (hf : ∀ l, (f l).filter (·.2.isOf c) = l.filter (·.2.isOf c)) :
    Keeps (Settled L c) (modify fun w =>
      { w with eventHandlers := w.eventHandlers.modify (w.matrixClients.get m).eventHandlers f } :
        Action L Unit) := fun w =>
  { SettingsKept.refl (c := c) w with
    settings := congrArg (fun l => { settings c w with handlers := l })
      (Store.view_modify w.eventHandlers _ f (·.filter (·.2.isOf c)) hf _) }

/-- Handlers of others may be added, -/
theorem settled_addEventHandler (m : Ref) (t : EventType) {h : Handler} (hh : h.isOf c = false) :
    Keeps (Settled L c) (addEventHandler m t h) :=
  settled_modifyHandlers m fun l => by
    rw [List.filter_append, List.filter_cons_of_neg (by simp [hh]), List.filter_nil,
      List.append_nil]

/-- and removed. -/
theorem settled_removeEventHandler (m : Ref) (t : EventType) {h : Handler}
    (hh : h.isOf c = false) : Keeps (Settled L c) (removeEventHandler m t h) :=
  settled_modifyHandlers m fun l => by
    rw [← List.erase_filter, List.erase_of_not_mem]
    intro hmem
    rw [List.mem_filter] at hmem
    simp [hh] at hmem

/-- The handlers of the crypto machine are not the client's own. -/
theorem cryptoHandlers_not_isOf {machine : Ref} {h : EventType × Handler}
    (hh : h ∈ cryptoHandlers machine) : h.2.isOf c = false := by
  simp only [cryptoHandlers, List.mem_cons, List.not_mem_nil, or_false] at hh
  rcases hh with rfl | rfl | rfl | rfl | rfl <;> rfl

/-- So it may be prepared, -/
theorem settled_prepareCrypto (q : Ref) : Keeps (Settled L c) (prepareCrypto q) :=
  keeps_bind keeps_get fun _ =>
    keeps_bind (keeps_forM fun h hh =>
      settled_addEventHandler _ h.1 (cryptoHandlers_not_isOf hh)) fun _ =>
    keeps_bind (settled_setClient (fun _ => rfl) fun _ _ => ⟨rfl, rfl⟩) fun _ =>
    settled_setMatrixClient _ (fun _ => rfl) fun _ => ⟨rfl, rfl, rfl, rfl⟩

/-- and its handlers taken away. -/
theorem settled_removeCryptoEventHandlers (q : Ref) :
    Keeps (Settled L c) (removeCryptoEventHandlers q) := by
  refine keeps_bind keeps_get fun w => ?_
  split
  · exact keeps_pure ()
  · exact keeps_forM fun h hh => settled_removeEventHandler _ h.1 (cryptoHandlers_not_isOf hh)

/-! ### The invariant -/

/-- `c` is configured, no other client has its Matrix client, and what plugins have registered
    are handlers of their own. -/
structure Wired (c : Ref) (w : World L) : Prop where
  lt         : ∀ d, d < w.clients.next → (w.clients.get d).client < w.matrixClients.next
  dictLt     : ∀ d, d < w.clients.next → handlersOf w d < w.eventHandlers.next
  apart      : ∀ d, d < w.clients.next → c < w.clients.next →
    (w.clients.get d).client = (w.clients.get c).client → d = c
  cache      : ∀ u d, w.clientCache u = some d → d < w.clients.next
  registered : ∀ p, ∀ h ∈ (w.plugins.get p).handlersAtStartup, h.1.isPlugin = true
  configured : c < w.clients.next → Configured c w

/-- Whatever happens to the settings, the rest is as it was. -/
theorem Wired.with_settings (hw : Wired c w) (hnext : w'.clients.next = w.clients.next)
    (hclient : ∀ d, (w'.clients.get d).client = (w.clients.get d).client)
    (hcache : w'.clientCache = w.clientCache)
    (hmatrix : w'.matrixClients.next = w.matrixClients.next)
    (hdict : ∀ m, (w'.matrixClients.get m).eventHandlers = (w.matrixClients.get m).eventHandlers)
    (hhandlers : w'.eventHandlers.next = w.eventHandlers.next)
    (hregistered : PluginInstance.PluginHandlers w w')
    (hconfigured : c < w.clients.next → Configured c w') : Wired c w' where
  lt d hd := by
    rw [hclient, hmatrix]
    exact hw.lt d (hnext ▸ hd)
  dictLt d hd := by
    rw [handlersOf, hclient, hdict, hhandlers]
    exact hw.dictLt d (hnext ▸ hd)
  apart d hd hc heq := by
    rw [hclient, hclient] at heq
    exact hw.apart d (hnext ▸ hd) (hnext ▸ hc) heq
  cache u d hu := by
    rw [hnext]
    exact hw.cache u d (hcache ▸ hu)
  registered p x hx := by
    rcases hregistered p x hx with hx | hplugin
    · exact hw.registered p x hx
    · exact hplugin
  configured hc := hconfigured (hnext ▸ hc)

/-- Where the settings are kept a client stays wired. -/
theorem SettingsKept.wired (h : SettingsKept c w w') (hw : Wired c w) : Wired c w' :=
  hw.with_settings h.next h.client h.cache h.nextMatrix h.dict h.nextHandlers h.registered
    fun hc => by
      rw [Configured, h.settings]
      exact hw.configured hc

/-- The frame of the methods of `q`, which exists. -/
def Wires (L : Type) (c q : Ref) : Frame (World L) :=
  .ofInv fun w => Wired c w ∧ q < w.clients.next

/-- The same as a frame. -/
theorem SettingsKept.wires (h : SettingsKept c w w') : (Wires L c q).rel w w' := fun hw =>
  ⟨h.wired hw.1, by rw [h.next]; exact hw.2⟩

/-- The same for a program. -/
theorem wired_of_settled {α : Type} {m : Action L α} (hm : Keeps (Settled L c) m) :
    Keeps (.ofInv (Wired c)) m := fun w => (hm w).wired

/-- And for one that works on another client. -/
theorem wires_of_settled {α : Type} {m : Action L α} (hm : Keeps (Settled L c) m) :
    Keeps (Wires L c q) m := hm.mono SettingsKept.wires

/-! ### Steps of the settings -/

/-- What a field of the Matrix client does to the settings. -/
theorem settings_setMatrixClient {m : Ref} (hclient : (w.clients.get c).client = m)
    {f : MatrixClient → MatrixClient} (hdict : ∀ mc, (f mc).eventHandlers = mc.eventHandlers) :
    settings c ((setMatrixClient m f : Action L Unit).exec w).2 =
      { settings c w with
        ignoreInitialSync := (f (w.matrixClients.get m)).ignoreInitialSync
        ignoreFirstSync := (f (w.matrixClients.get m)).ignoreFirstSync
        presence := (f (w.matrixClients.get m)).presence
        middleware := (f (w.matrixClients.get m)).eventMiddleware } := by
  show settings c { w with matrixClients := w.matrixClients.modify m f } = _
  simp only [settings, hclient, Store.get_modify_self, hdict]

/-- What the row does. -/
theorem settings_setClientRow (f : ClientRow → ClientRow) :
    settings c ((setClientRow c f : Action L Unit).exec w).2 =
      { settings c w with
        autojoin := (f (w.clients.get c).row).autojoin
        online := (f (w.clients.get c).row).online } := by
  let assign (cl : Client) : Client := { cl with row := f cl.row }
  have hself : (w.clients.modify c assign).get c = assign (w.clients.get c) :=
    Store.get_modify_self _ _ _
  show settings c { w with clients := w.clients.modify c assign } = _
  simp only [settings, hself, assign]

/-- What a handler of the client's own does. -/
theorem settings_addEventHandler {m : Ref} (hclient : (w.clients.get c).client = m)
    (t : EventType) {h : Handler} (hh : h.isOf c = true) :
    settings c ((addEventHandler m t h : Action L Unit).exec w).2 =
      { settings c w with handlers := (settings c w).handlers ++ [(t, h)] } := by
  subst hclient
  let add (l : List (EventType × Handler)) := l ++ [(t, h)]
  have hself : (w.eventHandlers.modify (handlersOf w c) add).get (handlersOf w c) =
      add (w.eventHandlers.get (handlersOf w c)) := Store.get_modify_self _ _ _
  show settings c { w with eventHandlers := w.eventHandlers.modify (handlersOf w c) add } = _
  simp only [settings, hself, add, List.filter_append, List.filter_cons, hh, List.filter_nil,
    if_true]

/-- What one less does. -/
theorem settings_removeEventHandler {m : Ref} (hclient : (w.clients.get c).client = m)
    (t : EventType) (h : Handler) :
    settings c ((removeEventHandler m t h : Action L Unit).exec w).2 =
      { settings c w with handlers := (settings c w).handlers.erase (t, h) } := by
  subst hclient
  let remove (l : List (EventType × Handler)) := l.erase (t, h)
  have hself : (w.eventHandlers.modify (handlersOf w c) remove).get (handlersOf w c) =
      remove (w.eventHandlers.get (handlersOf w c)) := Store.get_modify_self _ _ _
  show settings c { w with eventHandlers := w.eventHandlers.modify (handlersOf w c) remove } = _
  simp only [settings, hself, remove, List.erase_filter]

/-- What a middleware does. -/
theorem settings_addEventMiddleware {m : Ref} (hclient : (w.clients.get c).client = m)
    (t : EventType) (d : Ref) :
    settings c ((addEventMiddleware m t d : Action L Unit).exec w).2 =
      { settings c w with middleware := (settings c w).middleware ++ [(t, d)] } := by
  subst hclient
  exact settings_setMatrixClient rfl fun _ => rfl

/-! ### A new client -/

/-- What `set_up` does to the settings of a Matrix client that has none. -/
theorem configured_setUp {m : Ref} (hclient : (w.clients.get c).client = m)
    (hnone : (settings c w).middleware = [] ∧ (settings c w).handlers = []) :
    Configured c ((setUp S c m).exec w).2 := by
  obtain ⟨w₁, hprepared, hkept⟩ : ∃ w₁, (when (enableCrypto S (w.clients.get c)) (prepareCrypto c) :
      Action L Unit).exec w = (.ok (), w₁) ∧ SettingsKept c w w₁ := by
    have hkeeps : Keeps (Settled L c) (when (enableCrypto S (w.clients.get c)) (prepareCrypto c)) :=
      keeps_when (settled_prepareCrypto c)
    have hreturns : Returns (when (enableCrypto S (w.clients.get c)) (prepareCrypto c) :
        Action L Unit) := raises_when (returns_prepareCrypto c)
    obtain ⟨_, hok⟩ := hreturns.exists_ok w
    have h := hkeeps w
    rcases hr : (when (enableCrypto S (w.clients.get c)) (prepareCrypto c) :
      Action L Unit).exec w with ⟨r, w₁⟩
    rw [hr] at hok h
    exact ⟨w₁, by rw [← hok], h⟩
  rw [setUp, exec_get_bind]
  dsimp only
  rw [exec_bind_ok hprepared]
  -- the rest only sets up, and each step reads the client and its Matrix client
  let flags (mc : MatrixClient) : MatrixClient :=
    { mc with
      ignoreInitialSync := true, ignoreFirstSync := true
      presence := (w.clients.get c).row.online }
  have hclient₁ : (w₁.clients.get c).client = m := (hkept.client c).trans hclient
  let w₂ := ((setMatrixClient m flags : Action L Unit).exec w₁).2
  have hflags : settings c w₂ = { settings c w₁ with
      ignoreInitialSync := true, ignoreFirstSync := true
      presence := (w.clients.get c).row.online } := by
    subst hclient₁
    exact settings_setMatrixClient (f := flags) rfl fun _ => rfl
  obtain ⟨w₃, hjoined, hclient₃, hinvite⟩ : ∃ w₃,
      (when (w.clients.get c).row.autojoin (addEventHandler m "ROOM_MEMBER" (.handleInvite c)) :
        Action L Unit).exec w₂ = (.ok (), w₃) ∧ (w₃.clients.get c).client = m ∧
      settings c w₃ = { settings c w₂ with
        handlers := (settings c w₂).handlers ++
          if (w.clients.get c).row.autojoin then [("ROOM_MEMBER", .handleInvite c)] else [] } := by
    by_cases hautojoin : (w.clients.get c).row.autojoin = true
    · rw [when, if_pos hautojoin, if_pos hautojoin]
      exact ⟨_, rfl, hclient₁,
        settings_addEventHandler (w := w₂) hclient₁ _ (h := .handleInvite c) (beq_self_eq_true c)⟩
    · rw [when, if_neg hautojoin, if_neg hautojoin]
      exact ⟨_, rfl, hclient₁, by rw [List.append_nil]⟩
  rw [exec_bind_ok (show (setMatrixClient m flags : Action L Unit).exec w₁ = (.ok (), w₂) from rfl),
    exec_bind_ok hjoined]
  let w₄ := ((addEventMiddleware m "ROOM_TOMBSTONE" c : Action L Unit).exec w₃).2
  let w₅ := ((addEventHandler m "SYNC_ERRORED" (.setSyncOk c false) : Action L Unit).exec w₄).2
  let w₆ := ((addEventHandler m "SYNC_SUCCESSFUL" (.setSyncOk c true) : Action L Unit).exec w₅).2
  show Configured c w₆
  have htombstone := settings_addEventMiddleware hclient₃ "ROOM_TOMBSTONE" c
  have herrored := settings_addEventHandler (w := w₄) hclient₃ "SYNC_ERRORED"
    (h := .setSyncOk c false) (beq_self_eq_true c)
  have hsuccessful := settings_addEventHandler (w := w₅) hclient₃ "SYNC_SUCCESSFUL"
    (h := .setSyncOk c true) (beq_self_eq_true c)
  have hsettings : settings c w₆ = { settings c w with
      ignoreInitialSync := true, ignoreFirstSync := true
      presence := (w.clients.get c).row.online
      middleware := [("ROOM_TOMBSTONE", c)]
      handlers := (if (w.clients.get c).row.autojoin then [("ROOM_MEMBER", .handleInvite c)]
        else []) ++ [("SYNC_ERRORED", .setSyncOk c false)] ++
        [("SYNC_SUCCESSFUL", .setSyncOk c true)] } := by
    rw [hsuccessful, herrored, htombstone, hinvite, hflags, hkept.settings, hnone.1, hnone.2]
    rfl
  rw [Configured, hsettings]
  exact
    { ignoreInitialSync := rfl
      ignoreFirstSync := rfl
      presence := rfl
      tombstone := List.count_singleton_self
      invite := by
        show List.count _ (_ ++ _ ++ _) = if (w.clients.get c).row.autojoin then 1 else 0
        split <;> simp
      errored := by simp
      successful := by simp }

/-- A client that is made from its row is configured. -/
theorem configured_fromRow (u : String) (row : ClientRow) (w : World L) :
    Configured w.clients.next ((fromRow S u row).exec w).2 := by
  have hfinal : ((fromRow S u row).exec w).2 =
      ((setUp S w.clients.next w.matrixClients.next).exec (allocated u row w)).2 := by
    rw [exec_fromRow_eq, exec_bind]
    rcases (setUp S w.clients.next w.matrixClients.next).exec (allocated u row w) with
      ⟨_ | _, _⟩ <;>
      rfl
  rw [hfinal]
  have hholds := allocated_holds u row w
  refine configured_setUp hholds.1 ?_
  simp only [settings, hholds.1, hholds.2]
  exact ⟨congrArg MatrixClient.eventMiddleware (Store.get_alloc_self _ _),
    congrArg (List.filter _) (Store.get_alloc_self _ _)⟩

/-- A client made from its row is configured, and leaves the others as they are. -/
theorem wired_fromRow (hw : Wired c w) (u : String) (row : ClientRow) :
    Wired c ((fromRow S u row).exec w).2 := by
  have hnew := configured_fromRow (S := S) u row w
  obtain ⟨w', he, hm⟩ := exec_fromRow (S := S) u row w
  rw [he] at hnew ⊢
  have hcaches : w'.clientCache = Function.update w.clientCache u (some w.clients.next) := by
    rw [hm.others]
  have hplugins : w'.plugins = w.plugins := by rw [hm.others]
  have hclients {d : Ref} (hd : d < w.clients.next) : w'.clients.get d = w.clients.get d :=
    hm.clients d hd
  have hdicts {d : Ref} (hd : d < w.clients.next) : handlersOf w' d = handlersOf w d := by
    rw [handlersOf, hclients hd, hm.matrixClients _ (hw.lt d hd)]
  -- the old clients keep what they had, and the new one has all that is new
  constructor
  · intro d hd
    rw [hm.nextClient] at hd
    rw [hm.nextMatrix]
    rcases Nat.lt_succ_iff_lt_or_eq.mp hd with hd | rfl
    · rw [hclients hd]
      exact Nat.lt_succ_of_lt (hw.lt d hd)
    · rw [hm.holds.1]
      exact Nat.lt_succ_self _
  · intro d hd
    rw [hm.nextClient] at hd
    rw [hm.nextHandlers]
    rcases Nat.lt_succ_iff_lt_or_eq.mp hd with hd | rfl
    · rw [hdicts hd]
      exact Nat.lt_succ_of_lt (hw.dictLt d hd)
    · rw [handlersOf, hm.holds.1, hm.holds.2]
      exact Nat.lt_succ_self _
  · intro d hd hc
    rw [hm.nextClient] at hd hc
    rcases Nat.lt_succ_iff_lt_or_eq.mp hd with hd | rfl <;>
      rcases Nat.lt_succ_iff_lt_or_eq.mp hc with hc | rfl
    · rw [hclients hd, hclients hc]
      exact hw.apart d hd hc
    · rw [hclients hd, hm.holds.1]
      exact fun heq => absurd heq (Nat.ne_of_lt (hw.lt d hd))
    · rw [hclients hc, hm.holds.1]
      exact fun heq => absurd heq.symm (Nat.ne_of_lt (hw.lt c hc))
    · exact fun _ => rfl
  · intro v d hd
    rw [hcaches] at hd
    rw [hm.nextClient]
    by_cases hv : v = u
    · rw [hv, Function.update_self, Option.some.injEq] at hd
      rw [← hd]
      exact Nat.lt_succ_self _
    · rw [Function.update_of_ne hv] at hd
      exact Nat.lt_succ_of_lt (hw.cache v d hd)
  · rw [hplugins]
    exact hw.registered
  · intro hc
    rw [hm.nextClient] at hc
    rcases Nat.lt_succ_iff_lt_or_eq.mp hc with hc | rfl
    · have hkept : settings c w' = settings c w := by
        simp only [settings, hclients hc, hm.matrixClients _ (hw.lt c hc),
          hm.eventHandlers _ (hw.dictLt c hc)]
      rw [Configured, hkept]
      exact hw.configured hc
    · exact hnew

/-- The table is no setting. -/
theorem wired_rows (hw : Wired c w) (rows : String → Option ClientRow) :
    Wired c { w with clientRows := rows } :=
  ⟨hw.lt, hw.dictLt, hw.apart, hw.cache, hw.registered, hw.configured⟩

/-- Getting a client wires it, if it is new. -/
theorem wired_get (u : String) (homeserver token deviceId : Option String) :
    Keeps (.ofInv (Wired c)) (get S u homeserver token deviceId) := by
  intro w hw
  rcases exec_get_made (S := S) u homeserver token deviceId w with he | ⟨row, rows, -, he⟩ <;>
    rw [he]
  · exact hw
  · exact wired_fromRow (wired_rows hw rows) u row

/-! ### The methods -/

/-- Calls of instances touch no handlers but those of plugins. -/
theorem wired_instances : PluginInstance.AdmitsClients S (.ofInv (Wired (L := L) c)) where
  kept {w w'} h hw := by
    refine hw.with_settings (by rw [h.clients]) (fun _ => by rw [h.clients]) h.clientCache
      (by rw [h.matrixClients]) (fun _ => by rw [h.matrixClients]) (by rw [h.eventHandlers])
      h.registered fun hc => ?_
    have hkept : settings c w' = settings c w := by
      simp only [settings, h.clients, h.matrixClients, h.eventHandlers]
    rw [Configured, hkept]
    exact hw.configured hc
  getClient u := wired_get u none none none
  setReferences q _ := wired_of_settled <|
    settled_setClient (q := q) (fun _ => rfl) fun _ _ => ⟨rfl, rfl⟩
  addHandler m t _ := wired_of_settled (settled_addEventHandler m t rfl)
  removeHandlers p := by
    refine keeps_get_bind fun w hw => ?_
    -- what it removes it has registered itself
    have hremove : Keeps (Settled L c) ((w.plugins.get p).handlersAtStartup.forM fun h =>
        removeEventHandler (w.plugins.get p).client h.2 h.1) := keeps_forM fun h hh =>
      settled_removeEventHandler _ _ (Handler.isOf_of_isPlugin (hw.registered p h hh))
    exact (hremove w).wired hw

/-- A step that only the settings of the client's own Matrix client show. -/
theorem wires_own (hnext : w'.clients.next = w.clients.next)
    (hclient : ∀ d, (w'.clients.get d).client = (w.clients.get d).client)
    (hcache : w'.clientCache = w.clientCache)
    (hmatrix : w'.matrixClients.next = w.matrixClients.next)
    (hdict : ∀ m, (w'.matrixClients.get m).eventHandlers = (w.matrixClients.get m).eventHandlers)
    (hhandlers : w'.eventHandlers.next = w.eventHandlers.next)
    (hplugins : w'.plugins = w.plugins)
    (hconfigured : Configured c w → Configured c w') : (Wires L c c).rel w w' := fun hw =>
  ⟨hw.1.with_settings hnext hclient hcache hmatrix hdict hhandlers (.of_eq hplugins) fun hc =>
    hconfigured (hw.1.configured hc), by rw [hnext]; exact hw.2⟩

/-- `update_autojoin` counts the handler up or down with the field. -/
theorem configured_setAutojoin {b : Bool} (hb : b ≠ (w.clients.get c).row.autojoin)
    (hw : Configured c w) : Configured c ((do
      if b then addEventHandler (w.clients.get c).client "ROOM_MEMBER" (.handleInvite c)
      else removeEventHandler (w.clients.get c).client "ROOM_MEMBER" (.handleInvite c)
      setClientRow c fun row => { row with autojoin := b } : Action L Unit).exec w).2 := by
  -- the handler is there just in case the flag is set, and both are turned over
  have hautojoin : (settings c w).autojoin = !b := by
    show (w.clients.get c).row.autojoin = !b
    revert hb
    cases b <;> cases (w.clients.get c).row.autojoin <;> simp
  have hinvite := hw.invite
  rw [hautojoin] at hinvite
  cases b with
  | true =>
    let w₁ := ((addEventHandler (w.clients.get c).client "ROOM_MEMBER" (.handleInvite c) :
      Action L Unit).exec w).2
    have hadd : settings c w₁ = _ := settings_addEventHandler rfl "ROOM_MEMBER"
      (h := .handleInvite c) (beq_self_eq_true c)
    have hrow := settings_setClientRow (c := c) (w := w₁) fun row => { row with autojoin := true }
    show Configured c ((setClientRow c fun row => { row with autojoin := true } :
      Action L Unit).exec w₁).2
    rw [Configured, hrow, hadd]
    exact
      { ignoreInitialSync := hw.ignoreInitialSync
        ignoreFirstSync := hw.ignoreFirstSync
        presence := hw.presence
        tombstone := hw.tombstone
        invite := by
          show List.count _ (_ ++ _) = 1
          rw [List.count_append, hinvite, List.count_singleton_self]
          rfl
        errored := List.mem_append_left _ hw.errored
        successful := List.mem_append_left _ hw.successful }
  | false =>
    let w₁ := ((removeEventHandler (w.clients.get c).client "ROOM_MEMBER" (.handleInvite c) :
      Action L Unit).exec w).2
    have hremove : settings c w₁ = _ :=
      settings_removeEventHandler rfl "ROOM_MEMBER" (.handleInvite c)
    have hrow := settings_setClientRow (c := c) (w := w₁) fun row => { row with autojoin := false }
    show Configured c ((setClientRow c fun row => { row with autojoin := false } :
      Action L Unit).exec w₁).2
    rw [Configured, hrow, hremove]
    exact
      { ignoreInitialSync := hw.ignoreInitialSync
        ignoreFirstSync := hw.ignoreFirstSync
        presence := hw.presence
        tombstone := hw.tombstone
        invite := by
          show List.count _ (List.erase _ _) = 0
          rw [List.count_erase_self, hinvite]
          rfl
        errored := (List.mem_erase_of_ne (by simp)).mpr hw.errored
        successful := (List.mem_erase_of_ne (by simp)).mpr hw.successful }

/-- The presence and the row are set together. -/
theorem configured_setOnline (b : Bool) (hw : Configured c w) : Configured c ((do
    setMatrixClient (w.clients.get c).client fun mc => { mc with presence := b }
    setClientRow c fun row => { row with online := b } : Action L Unit).exec w).2 := by
  let w₁ := ((setMatrixClient (w.clients.get c).client fun mc => { mc with presence := b } :
    Action L Unit).exec w).2
  have hpresence : settings c w₁ = { settings c w with presence := b } :=
    settings_setMatrixClient (f := fun mc => { mc with presence := b }) rfl fun _ => rfl
  have hrow := settings_setClientRow (c := c) (w := w₁) fun row => { row with online := b }
  show Configured c ((setClientRow c fun row => { row with online := b } :
    Action L Unit).exec w₁).2
  rw [Configured, hrow, hpresence]
  exact
    { ignoreInitialSync := hw.ignoreInitialSync
      ignoreFirstSync := hw.ignoreFirstSync
      presence := rfl
      tombstone := hw.tombstone
      invite := hw.invite
      errored := hw.errored
      successful := hw.successful }

/-- `update_online` of another client is not seen. -/
theorem wires_setOnline (b : Bool) (hq : q ≠ c) : (Wires L c q).rel w ((do
    setMatrixClient (w.clients.get q).client fun mc => { mc with presence := b }
    setClientRow q fun row => { row with online := b } : Action L Unit).exec w).2 := by
  rintro ⟨hw, hlt⟩
  let present (mc : MatrixClient) : MatrixClient := { mc with presence := b }
  let w₁ := ((setMatrixClient (w.clients.get q).client present : Action L Unit).exec w).2
  have hmatrix : Wired c w₁ := by
    refine hw.with_settings rfl (fun _ => rfl) rfl rfl
      (fun m => Store.view_modify w.matrixClients _ present MatrixClient.eventHandlers
        (fun _ => rfl) m) rfl (.of_eq rfl) fun hc => ?_
    have hkept : SettingsKept c w w₁ := settingsKept_setMatrixClient (fun _ => rfl) fun heq =>
      absurd (hw.apart q hlt hc heq) hq
    rw [Configured, hkept.settings]
    exact hw.configured hc
  have hrow : Keeps (Wires L c q) (setClientRow q fun row => { row with online := b }) :=
    wires_of_settled (settled_setClient (fun _ => rfl) fun heq => absurd heq hq)
  exact hrow w₁ ⟨hmatrix, hlt⟩

/-- What keeps every client wired keeps this one. -/
theorem wires_of_wired {α : Type} {m : Action L α} (hm : Keeps (.ofInv (Wired c)) m)
    (hmore : Keeps (MoreClients L) m) : Keeps (Wires L c q) m := fun w hw =>
  ⟨hm w hw.1, Nat.lt_of_lt_of_le hw.2 (hmore w)⟩

/-- The methods of any client leave `c` configured. -/
theorem admits_wires : Admits S q (Wires L c q) where
  assign f _ hrow hclient _ := wires_of_settled <|
    settled_setClient hclient fun _ cl => by rw [hrow]; exact ⟨rfl, rfl⟩
  setRow f hautojoin honline := wires_of_settled <|
    settled_setClient (fun _ => rfl) fun _ _ => ⟨hautojoin _, honline _⟩
  setAutojoin w b hb := by
    -- the client's own handler is put in or taken out with the setting
    by_cases hq : q = c
    · subst hq
      have hclients (w : World L) (d : Ref) := Store.view_modify w.clients q
        (fun cl : Client => { cl with row := { cl.row with autojoin := b } }) Client.client
        (fun _ => rfl) d
      refine wires_own ?_ ?_ ?_ ?_ ?_ ?_ ?_ (configured_setAutojoin hb) <;> cases b
      exacts [rfl, rfl, hclients w, hclients w, rfl, rfl, rfl, rfl, fun _ => rfl, fun _ => rfl, rfl,
        rfl, rfl, rfl]
    · -- a handler of another client is none of its own
      have hrow : Keeps (Wires L c q) (setClientRow q fun row => { row with autojoin := b }) :=
        wires_of_settled (settled_setClient (fun _ => rfl) fun heq => absurd heq hq)
      have hother : (Handler.handleInvite q).isOf c = false := beq_eq_false_iff_ne.mpr hq
      cases b with
      | true =>
        exact keeps_bind (wires_of_settled (settled_addEventHandler _ _ hother)) (fun _ => hrow) w
      | false =>
        exact keeps_bind (wires_of_settled (settled_removeEventHandler _ _ hother))
          (fun _ => hrow) w
  setOnline w b := by
    -- the presence of the client's Matrix client follows its row
    by_cases hq : q = c
    · subst hq
      refine wires_own rfl (fun d => ?_) rfl rfl (fun m => ?_) rfl rfl (configured_setOnline b)
      · exact Store.view_modify w.clients q
          (fun cl : Client => { cl with row := { cl.row with online := b } }) Client.client
          (fun _ => rfl) d
      · exact Store.view_modify w.matrixClients _
          (fun mc : MatrixClient => { mc with presence := b })
          MatrixClient.eventHandlers (fun _ => rfl) m
    · exact wires_setOnline b hq
  update := wires_of_settled <| keeps_bind keeps_get fun _ => keeps_ite (keeps_pure ()) <|
    keeps_ite (settled_modify (fun _ => rfl) (fun _ => rfl) (fun _ => rfl) (fun _ => rfl)
      fun _ => .of_eq rfl) (keeps_throw _)
  startSync := wires_of_settled <| keeps_bind keeps_get fun _ => keeps_when <|
    settled_setMatrixClient _ (fun _ => rfl) fun _ => ⟨rfl, rfl, rfl, rfl⟩
  stopSync := wires_of_settled <| keeps_bind keeps_get fun _ =>
    settled_setMatrixClient _ (fun _ => rfl) fun _ => ⟨rfl, rfl, rfl, rfl⟩
  -- instances touch neither
  startPlugins env := keeps_bind keeps_get fun w => keeps_gather fun m hm => by
    obtain ⟨i, -, rfl⟩ := List.mem_map.mp hm
    exact wires_of_wired ((wired_instances.admits i).start (env i))
      ((moreClients_instances.admits i).start (env i))
  stopPlugins env := keeps_bind keeps_get fun w => keeps_gather fun m hm => by
    obtain ⟨i, -, rfl⟩ := List.mem_map.mp hm
    exact wires_of_wired (((wired_instances (S := S)).admits i).stop (env i))
      (((moreClients_instances (S := S)).admits i).stop (env i))

/-! ### Another Matrix client for another client -/

/-- Besides, there is a Matrix client `m` that no client but `q` has. -/
structure WiredBeside (c q m : Ref) (w : World L) : Prop where
  wired  : Wired c w
  lt     : q < w.clients.next
  spare  : m < w.matrixClients.next
  dictLt : (w.matrixClients.get m).eventHandlers < w.eventHandlers.next
  others : ∀ d, d < w.clients.next → d ≠ q → (w.clients.get d).client ≠ m

variable {m : Ref}

/-- A client and the Matrix client beside it stay wired. -/
theorem SettingsKept.beside (h : SettingsKept c w w') (hw : WiredBeside c q m w) :
    WiredBeside c q m w' where
  wired := h.wired hw.wired
  lt := by
    rw [h.next]
    exact hw.lt
  spare := by
    rw [h.nextMatrix]
    exact hw.spare
  dictLt := by
    rw [h.dict, h.nextHandlers]
    exact hw.dictLt
  others d hd hdq := by
    rw [h.client]
    exact hw.others d (h.next ▸ hd) hdq

/-- `new_client.event_handlers = self.client.event_handlers` -/
theorem WiredBeside.shareHandlers (hw : WiredBeside c q m w) (hq : q ≠ c) {d : Ref}
    (hd : d < w.eventHandlers.next) :
    WiredBeside c q m ((setMatrixClient m fun mc => { mc with eventHandlers := d } :
      Action L Unit).exec w).2 := by
  let share (mc : MatrixClient) : MatrixClient := { mc with eventHandlers := d }
  have hself : (w.matrixClients.modify m share).get m = share (w.matrixClients.get m) :=
    Store.get_modify_self _ _ _
  have hother {r : Ref} (hr : r ≠ m) : (w.matrixClients.modify m share).get r =
      w.matrixClients.get r := Store.get_modify_ne _ _ hr
  suffices hbeside : WiredBeside c q m
      { w with matrixClients := w.matrixClients.modify m share } from
    hbeside
  refine
    { wired := ⟨hw.wired.lt, fun e he => ?_, hw.wired.apart, hw.wired.cache, hw.wired.registered,
        fun hc => ?_⟩
      lt := hw.lt
      spare := hw.spare
      dictLt := ?_
      others := hw.others }
  · show ((w.matrixClients.modify m share).get (w.clients.get e).client).eventHandlers < _
    by_cases hem : (w.clients.get e).client = m
    · rw [hem, hself]
      exact hd
    · rw [hother hem]
      exact hw.wired.dictLt e he
  · -- the client that is watched has another Matrix client
    have hne : (w.clients.get c).client ≠ m := hw.others c hc (Ne.symm hq)
    have hkept : settings c { w with matrixClients := w.matrixClients.modify m share } =
        settings c w := by
      simp only [settings, hother hne]
    rw [Configured, hkept]
    exact hw.wired.configured hc
  · show ((w.matrixClients.modify m share).get m).eventHandlers < _
    rw [hself]
    exact hd

/-- `self.client = new_client` -/
theorem WiredBeside.setClient (hw : WiredBeside c q m w) (hq : q ≠ c) :
    WiredBeside c q m ((Maubot.setClient q fun cl => { cl with client := m } :
      Action L Unit).exec w).2 := by
  let assign (cl : Client) : Client := { cl with client := m }
  have hself : (w.clients.modify q assign).get q = assign (w.clients.get q) :=
    Store.get_modify_self _ _ _
  -- only the client `q` is assigned; its new Matrix client is spare
  have hother {d : Ref} (hd : d ≠ q) : (w.clients.modify q assign).get d = w.clients.get d :=
    Store.get_modify_ne _ _ hd
  suffices hbeside : WiredBeside c q m { w with clients := w.clients.modify q assign } from hbeside
  refine
    { wired := ⟨fun d hd => ?_, fun d hd => ?_, fun d hd hc heq => ?_, hw.wired.cache,
        hw.wired.registered, fun hc => ?_⟩
      lt := hw.lt
      spare := hw.spare
      dictLt := hw.dictLt
      others := fun d hd hdq => ?_ }
  · show ((w.clients.modify q assign).get d).client < _
    by_cases hdq : d = q
    · rw [hdq, hself]
      exact hw.spare
    · rw [hother hdq]
      exact hw.wired.lt d hd
  · show (w.matrixClients.get ((w.clients.modify q assign).get d).client).eventHandlers < _
    by_cases hdq : d = q
    · rw [hdq, hself]
      exact hw.dictLt
    · rw [hother hdq]
      exact hw.wired.dictLt d hd
  · replace heq : ((w.clients.modify q assign).get d).client =
      ((w.clients.modify q assign).get c).client := heq
    rw [hother (Ne.symm hq)] at heq
    by_cases hdq : d = q
    · rw [hdq, hself] at heq
      exact absurd heq.symm (hw.others c hc (Ne.symm hq))
    · rw [hother hdq] at heq
      exact hw.wired.apart d hd hc heq
  · have hkept : settings c { w with clients := w.clients.modify q assign } = settings c w := by
      simp only [settings, hother (Ne.symm hq)]
    rw [Configured, hkept]
    exact hw.wired.configured hc
  · show ((w.clients.modify q assign).get d).client ≠ m
    rw [hother hdq]
    exact hw.others d hd hdq

/-- A Matrix client that is made beside is wired like the old one. -/
theorem beside_makeClient (hw : Wired c w) (hq : q < w.clients.next)
    (homeserver token deviceId : Option String) :
    ∃ m w', (makeClient q homeserver token deviceId : Action L Ref).exec w = (.ok m, w') ∧
      WiredBeside c q m w' := by
  refine ⟨w.matrixClients.next, _, rfl, ?_⟩
  have hold {r : Ref} (a : MatrixClient) (hr : r < w.matrixClients.next) :
      (w.matrixClients.alloc a).get r = w.matrixClients.get r := Store.get_alloc_of_lt _ _ hr
  refine
    { wired :=
        { lt := fun d hd => Nat.lt_succ_of_lt (hw.lt d hd)
          dictLt := fun d hd => ?_
          apart := hw.apart
          cache := hw.cache
          registered := hw.registered
          configured := fun hc => ?_ }
      lt := hq
      spare := Nat.lt_succ_self _
      dictLt := ?_
      others := fun d hd _ => Nat.ne_of_lt (hw.lt d hd) }
  · rw [handlersOf, hold _ (hw.lt d hd)]
    exact Nat.lt_succ_of_lt (hw.dictLt d hd)
  · simp only [Configured, settings, hold _ (hw.lt c hc)]
    rw [Store.get_alloc_of_lt _ _ (hw.dictLt c hc)]
    exact hw.configured hc
  · rw [Store.get_alloc_self]
    exact Nat.lt_succ_self _

/-- A switch of another client leaves `c` configured. -/
theorem beside_switchAccess (hw : WiredBeside c q m w) (hq : q ≠ c)
    (token homeserver : Option String) (deviceId : String) (crypto : CryptoEnv) :
    WiredBeside c q m ((switchAccess S q m token homeserver deviceId crypto).exec w).2 := by
  let F : Frame (World L) := .ofInv (WiredBeside c q m)
  have hsettled {α : Type} {n : Action L α} (hn : Keeps (Settled L c) n) : Keeps F n :=
    fun w => (hn w).beside
  have hmatrix (r : Ref) {f : MatrixClient → MatrixClient}
      (hdict : ∀ mc, (f mc).eventHandlers = mc.eventHandlers)
      (hf : ∀ mc, (f mc).ignoreInitialSync = mc.ignoreInitialSync ∧
        (f mc).ignoreFirstSync = mc.ignoreFirstSync ∧ (f mc).presence = mc.presence ∧
        (f mc).eventMiddleware = mc.eventMiddleware) : Keeps F (setMatrixClient r f) :=
    hsettled (settled_setMatrixClient r hdict hf)
  have hassign {f : Client → Client} (hclient : ∀ cl, (f cl).client = cl.client) :
      Keeps F (Maubot.setClient q f) :=
    hsettled (settled_setClient hclient fun heq => absurd heq hq)
  have hstop : Keeps F (stopSync q) := keeps_bind keeps_get fun _ =>
    hmatrix _ (fun _ => rfl) fun _ => ⟨rfl, rfl, rfl, rfl⟩
  have hstart : Keeps F (startSync q) := keeps_bind keeps_get fun _ => keeps_when <|
    hmatrix _ (fun _ => rfl) fun _ => ⟨rfl, rfl, rfl, rfl⟩
  have hcrypto : Keeps F (startCrypto q crypto) :=
    keeps_bind keeps_get fun _ => keeps_bind (keeps_outcome _) fun _ => hassign fun _ => rfl
  have hrest : Keeps F (do
      setClientRow q fun row => { row with homeserver, accessToken := token, deviceId }
      let w ← world
      if enableCrypto S (w.clients.get q) then do
        prepareCrypto q
        startCrypto q crypto
      else
        Maubot.setClient q fun cl => { cl with crypto := none }
      startSync q) := by
    refine keeps_bind (hassign fun _ => rfl) fun _ => keeps_bind keeps_get fun w => ?_
    dsimp only
    split
    · exact keeps_bind (hsettled (settled_prepareCrypto q)) fun _ => keeps_bind hcrypto fun _ =>
        hstart
    · exact keeps_bind (hassign fun _ => rfl) fun _ => hstart
  have hswitch : Keeps F (switchAccess S q m token homeserver deviceId crypto) := by
    refine keeps_bind hstop fun _ => keeps_bind (hsettled (settled_removeCryptoEventHandlers q))
      fun _ => keeps_get_bind fun w hw => ?_
    -- the old Matrix client gives up its machine, and the new one takes over the handlers
    let old := (w.clients.get q).client
    have hforget : Keeps F (setMatrixClient old fun mc => { mc with crypto := none }) :=
      hmatrix old (fun _ => rfl) fun _ => ⟨rfl, rfl, rfl, rfl⟩
    have hforgotten := hforget w hw
    have hshared := hforgotten.shareHandlers hq (hw.wired.dictLt q hw.lt)
    exact hrest _ (hshared.setClient hq)
  exact hswitch w hw

/-- Without a switch of the Matrix client of `c`. -/
theorem wires_updateAccessDetails (token homeserver deviceId : Option String) (env : AccessEnv)
    (hw : Wired c w) (hlt : q < w.clients.next)
    (hkeeps : q = c → ¬ Swaps token homeserver deviceId env (view c w)) :
    Wired c ((updateAccessDetails S q token homeserver deviceId env).exec w).2 := by
  obtain ⟨m, w₁, hmake, hbeside⟩ := beside_makeClient hw hlt homeserver token
    (some (deviceId.getD (w.clients.get q).row.deviceId))
  rcases updateAccessDetails_cases (S := S) q token homeserver deviceId env w with
    he | he | ⟨hswaps, he⟩ <;> rw [he]
  · exact hw
  · rw [hmake]
    exact hbeside.wired
  · have hq : q ≠ c := by
      rintro rfl
      exact hkeeps rfl hswaps
    rw [exec_bind_ok hmake]
    exact (beside_switchAccess hbeside hq _ _ _ _).wired

/-- No step of the switch sets the flag that has the first sync ignored. -/
theorem flag_switchAccess (m c r : Ref) (token homeserver : Option String) (deviceId : String)
    (crypto : CryptoEnv) :
    Keeps (.ofView fun w : World L => (w.matrixClients.get m).ignoreInitialSync)
      (switchAccess S c r token homeserver deviceId crypto) := by
  let F : Frame (World L) := .ofView fun w => (w.matrixClients.get m).ignoreInitialSync
  have hassign (f : Client → Client) : Keeps F (setClient c f) := fun _ => rfl
  -- the flag is set when a Matrix client is made, and never again
  have hmatrix (q : Ref) {f : MatrixClient → MatrixClient}
      (hf : ∀ mc, (f mc).ignoreInitialSync = mc.ignoreInitialSync) :
      Keeps F (setMatrixClient q f) := fun w =>
    Store.view_modify w.matrixClients q f MatrixClient.ignoreInitialSync hf m
  have hremove : Keeps F (removeCryptoEventHandlers c) := by
    refine keeps_bind keeps_get fun w => ?_
    split
    · exact keeps_pure ()
    · exact keeps_forM fun _ _ _ => rfl
  have hprepare : Keeps F (prepareCrypto c) :=
    keeps_bind keeps_get fun _ => keeps_bind (keeps_forM fun _ _ _ => rfl) fun _ =>
      keeps_bind (hassign _) fun _ => hmatrix _ fun _ => rfl
  have hcrypto : Keeps F (startCrypto c crypto) :=
    keeps_bind keeps_get fun _ => keeps_bind (keeps_outcome _) fun _ => hassign _
  have hstart : Keeps F (startSync c) :=
    keeps_bind keeps_get fun _ => keeps_when (hmatrix _ fun _ => rfl)
  refine keeps_bind (keeps_bind keeps_get fun _ => hmatrix _ fun _ => rfl) fun _ =>
    keeps_bind hremove fun _ => keeps_bind keeps_get fun _ =>
    keeps_bind (hmatrix _ fun _ => rfl) fun _ => keeps_bind (hmatrix _ fun _ => rfl) fun _ =>
    keeps_bind (hassign _) fun _ => keeps_bind (hassign _) fun _ =>
    keeps_bind keeps_get fun w => ?_
  dsimp only
  split
  · exact keeps_bind hprepare fun _ => keeps_bind hcrypto fun _ => hstart
  · exact keeps_bind (hassign _) fun _ => hstart

/-- **A swap loses the setup.**  The new Matrix client is as mautrix makes it, and the switch
    passes on the handlers only. -/
theorem not_configured_of_swap {token homeserver deviceId : Option String} {env : AccessEnv}
    (hlt : c < w.clients.next) (hclient : (w.clients.get c).client < w.matrixClients.next)
    (hswaps : Swaps token homeserver deviceId env (view c w)) :
    ¬ Configured c ((updateAccessDetails S c token homeserver deviceId env).exec w).2 := by
  let device := deviceId.getD (w.clients.get c).row.deviceId
  let m := w.matrixClients.next
  obtain ⟨w₁, hmake, hspare, hnew⟩ : ∃ w₁, (makeClient c homeserver token (some device) :
      Action L Ref).exec w = (.ok m, w₁) ∧ Spare c (view c w) m w₁ ∧
      (w₁.matrixClients.get m).ignoreInitialSync = false :=
    ⟨_, rfl, triple_makeClient (E := fun _ => False) homeserver token (some device) w
      ⟨hlt, hclient, rfl⟩, congrArg MatrixClient.ignoreInitialSync (Store.get_alloc_self _ _)⟩
  rw [exec_updateAccessDetails_of_swaps hswaps, exec_bind_ok hmake]
  have hflag := flag_switchAccess (S := S) m c m token homeserver device env.crypto w₁
  set w₂ := ((switchAccess S c m token homeserver device env.crypto).exec w₁).2
  have hswitched : (w₂.clients.get c).client = m :=
    ((triple_switchAccess (S := S) token homeserver device env.crypto).post
      (fun _ _ h => h.2.client) fun _ h => h.2.client).final
        (R := fun w => (w.clients.get c).client = m) hspare
  intro hconfigured
  have htrue : (w₂.matrixClients.get (w₂.clients.get c).client).ignoreInitialSync = true :=
    hconfigured.ignoreInitialSync
  rw [hswitched] at htrue
  exact Bool.false_ne_true (hnew.symm.trans (hflag.symm.trans htrue))

/-! ### Operations -/

/-- A client that is deleted leaves the others wired. -/
theorem wired_delete (hw : Wired c w) (q : Ref) (refused : Option PyExc) :
    Wired c ((delete q refused : Action L Unit).exec w).2 := by
  let w₁ : World L :=
    { w with clientCache := Function.update w.clientCache (w.clients.get q).id none }
  have hforget : Wired c w₁ :=
    { hw with
      cache := fun u d hd => by
        by_cases hu : u = (w.clients.get q).id
        · rw [hu] at hd
          replace hd : Function.update w.clientCache _ none _ = some d := hd
          rw [Function.update_self] at hd
          cases hd
        · replace hd : Function.update w.clientCache _ none u = some d := hd
          rw [Function.update_of_ne hu] at hd
          exact hw.cache u d hd }
  cases refused with
  | some e => exact hforget
  | none => exact wired_rows hforget _

/-- So does the request for it. -/
theorem wired_deleteClient (hw : Wired c w) (u : String) (env : Ref → StopEnv)
    (refused : Option PyExc) : Wired c ((deleteClient S u env refused).exec w).2 := by
  obtain ⟨r, w₁, he, hcached, hfinal⟩ := exec_deleteClient_cases (S := S) u env refused w
  have hw₁ := wired_get (S := S) u none none none w hw
  rw [he] at hw₁
  rcases hfinal with hfinal | ⟨q, hq, -, hfinal⟩ <;> rw [hfinal]
  · exact hw₁
  have hlt := hw₁.cache u q (hcached q hq)
  have hstop : Keeps (Wires L c q) (when (w₁.clients.get q).started (stop q env)) :=
    keeps_when ((admits_wires (S := S)).stop env)
  have hstopped := (hstop w₁ ⟨hw₁, hlt⟩).1
  rw [exec_bind]
  rcases hr : (when (w₁.clients.get q).started (stop q env) : Action L Unit).exec w₁ with
    ⟨e | _, w₂⟩ <;> rw [hr] at hstopped
  · exact hstopped
  · exact wired_delete hstopped q refused

/-- The call does not give `c` another Matrix client. -/
def Op.KeepsMatrixClient (c : Ref) (w : World L) : Op → Prop
  | .updateAccessDetails q token homeserver deviceId env =>
    q = c → ¬ Swaps token homeserver deviceId env (view c w)
  | _ => True

/-- **Step.**  Such an operation leaves `c` configured. -/
theorem wired_exec (hw : Wired c w) {op : Op} (hheld : op.Held w)
    (hkeeps : op.KeepsMatrixClient c w) : Wired c (op.exec S w) := by
  have hmethod {α : Type} {n : Action L α} {q : Ref} (hq : q < w.clients.next)
      (hn : Keeps (Wires L c q) n) : Wired c (n.exec w).2 := (hn w ⟨hw, hq⟩).1
  cases op with
  | get u h t d => exact wired_get u h t d w hw
  | start q n env => exact hmethod (hheld q rfl) (admits_wires.start n env)
  | stop q env => exact hmethod (hheld q rfl) ((admits_wires (S := S)).stop env)
  | updateStarted q b env env' =>
    exact hmethod (hheld q rfl) (admits_wires.updateStarted b env env')
  | updateEnabled q b save =>
    exact hmethod (hheld q rfl) ((admits_wires (S := S)).updateEnabled b save)
  | updateDisplayname q x e p save =>
    exact hmethod (hheld q rfl) ((admits_wires (S := S)).updateProfile displayname (fun _ _ => rfl)
      (fun _ _ => rfl) x e p save)
  | updateAvatarUrl q x e p save =>
    exact hmethod (hheld q rfl) ((admits_wires (S := S)).updateProfile avatarUrl (fun _ _ => rfl)
      (fun _ _ => rfl) x e p save)
  | updateSync q b save => exact hmethod (hheld q rfl) ((admits_wires (S := S)).updateSync b save)
  | updateAutojoin q b save =>
    exact hmethod (hheld q rfl) ((admits_wires (S := S)).updateAutojoin b save)
  | updateOnline q b save =>
    exact hmethod (hheld q rfl) ((admits_wires (S := S)).updateOnline b save)
  | updateAccessDetails q t h d env =>
    exact wires_updateAccessDetails t h d env hw (hheld q rfl) hkeeps
  | clearCache q => exact hmethod (hheld q rfl) (admits_wires (S := S)).clearCache
  | delete u env refused => exact wired_deleteClient hw u env refused

end Client

section Runs

variable {w₀ w : World L} {c : Ref}

/-- The program has just started, and no plugin has registered a handler. -/
structure Client.Unregistered (w : World L) : Prop extends PluginInstance.Startup w where
  plugins : ∀ p, (w.plugins.get p).handlersAtStartup = []

/-- The caller holds the object, and the call does not give `c` another Matrix client. -/
structure Call.KeepsMatrixClient (c : Ref) (w : World L) (call : Call L) : Prop where
  held  : call.Held w
  keeps : ∀ op, call = .onClient op → op.KeepsMatrixClient c w

/-- At first no client exists. -/
theorem Client.wired_of_startup (h : Client.Unregistered w) : Client.Wired c w where
  lt d hd := by
    rw [h.clients] at hd
    exact absurd hd (Nat.not_lt_zero d)
  dictLt d hd := by
    rw [h.clients] at hd
    exact absurd hd (Nat.not_lt_zero d)
  apart d hd := by
    rw [h.clients] at hd
    exact absurd hd (Nat.not_lt_zero d)
  cache u d hd := by
    rw [h.clientCache] at hd
    cases hd
  registered p x hx := by
    rw [h.plugins] at hx
    cases hx
  configured hc := by
    rw [h.clients] at hc
    exact absurd hc (Nat.not_lt_zero c)

/-- **How clients are set up, over whole runs.**  As long as a client does not get another
    Matrix client, its Matrix client is set up as `postinit` would set it up for the fields
    that the client has. -/
theorem configured_of_reach (h₀ : Client.Unregistered w₀)
    (h : Reach (Call.exec S) (Call.KeepsMatrixClient c) w₀ w) (hc : c < w.clients.next) :
    Client.Configured c w := by
  have hwired : Client.Wired c w := by
    refine h.invariant (Client.wired_of_startup h₀) fun w call hw hcall => ?_
    refine Client.wired_instances.exec call w (fun op hop hw => ?_) hw
    subst hop
    exact Client.wired_exec hw hcall.held (hcall.keeps op rfl)
  exact hwired.configured hc

end Runs

namespace InstanceTest

open Client

/-- Get the client, and have it no longer join rooms and appear offline. -/
def quiet : World Unit :=
  Call.exec setup (.onClient (.updateOnline 0 (some false) true))
    (Call.exec setup (.onClient (.updateAutojoin 0 (some false) true))
      (Call.exec setup (.onClient (.get "@bot:example.com" none none none)) startup))

/-- Nor does one in the world of the witness. -/
theorem startup_unregistered : Unregistered startup :=
  { startup_startup with plugins := fun _ => rfl }

/-- The client of the witness is configured. -/
theorem quiet_configured : Configured 0 quiet := by
  have hget : Reach (Call.exec setup) (Call.KeepsMatrixClient 0) startup
      (Call.exec setup (.onClient (.get "@bot:example.com" none none none)) startup) :=
    Reach.step (Call.onClient (Op.get "@bot:example.com" none none none)) .start
      ⟨by rintro i ⟨⟩, by rintro op ⟨⟩; trivial⟩
  have hautojoin : Reach (Call.exec setup) (Call.KeepsMatrixClient 0) startup
      (Call.exec setup (.onClient (.updateAutojoin 0 (some false) true))
        (Call.exec setup (.onClient (.get "@bot:example.com" none none none)) startup)) :=
    Reach.step (Call.onClient (Op.updateAutojoin 0 (some false) true)) hget
      ⟨by rintro i ⟨⟩; decide +kernel, by rintro op ⟨⟩; trivial⟩
  have honline : Reach (Call.exec setup) (Call.KeepsMatrixClient 0) startup quiet :=
    Reach.step (Call.onClient (Op.updateOnline 0 (some false) true)) hautojoin
      ⟨by rintro i ⟨⟩; decide +kernel, by rintro op ⟨⟩; trivial⟩
  exact configured_of_reach startup_unregistered honline (by decide +kernel)

/-- After the switch to new access details, the first sync is no longer ignored. -/
theorem switched_not_configured :
    ¬ ∀ w₀ : World Unit, Unregistered w₀ → ∀ w,
      Reach (Call.exec setup) (fun w call => call.Held w) w₀ w →
        ∀ c, c < w.clients.next → Configured c w := by
  intro h
  have hget : Reach (Call.exec setup) (fun w call => call.Held w) startup
      (Call.exec setup (.onClient (.get "@bot:example.com" none none none)) startup) :=
    Reach.step (Call.onClient (Op.get "@bot:example.com" none none none)) .start (by rintro i ⟨⟩)
  let switch : Call Unit := .onClient (.updateAccessDetails 0 (some "other")
    (some "https://matrix.example.com") none { whoami := .ok { userId := "@bot:example.com" } })
  have hswitch := Reach.step switch hget (by rintro i ⟨⟩; decide +kernel)
  have hconfigured := h startup startup_unregistered _ hswitch 0 (by decide +kernel)
  exact absurd hconfigured.ignoreInitialSync (by decide +kernel)

end InstanceTest

end Maubot
