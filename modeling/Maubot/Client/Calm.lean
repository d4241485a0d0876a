import Maubot.Client.Calls
import Maubot.Client.Views

namespace Maubot

open Prog

/-!
# Clients — the sync of one and the calls of others

* `SyncOk v` — the client syncs only if it is started and wants to, with a filter, and is not
  deleted;
* `Calm P w` — so it is for the clients in `P`, and no two clients share a Matrix client;
* `calms_instances` — calls of instances keep the clients calm;
* `Elsewhere q` — the methods of the client `q` keep the others calm (`admits_elsewhere`,
  `elsewhere_updateAccessDetails`).
-/

variable {L : Type} {S : Setup L}

namespace ClientView

/-- The client syncs only if it is started and wants to, with a filter, and the cache has it. -/
def SyncOk (v : ClientView) : Prop :=
  ∀ f, v.syncing = some f → v.started = true ∧ v.row.sync = true ∧ f ≠ "" ∧ v.cached = true

/-- A client that does not sync is all right. -/
theorem syncOk_of_none {v : ClientView} (h : v.syncing = none) : SyncOk v := by
  intro f hf
  rw [h] at hf
  cases hf

end ClientView

namespace Client

open ClientView

/-- The client exists, and its sync is in order. -/
def Fine (c : Ref) (w : World L) : Prop := ∃ v, Sees c v w ∧ SyncOk v

/-- The sync of the clients in `P` is in order, and the clients are apart. -/
structure Calm (P : Ref → Prop) (w : World L) : Prop where
  sync  : ∀ c, c < w.clients.next → P c → Fine c w
  lt    : ∀ c, c < w.clients.next → (w.clients.get c).client < w.matrixClients.next
  apart : ∀ c d, c < w.clients.next → d < w.clients.next →
    (w.clients.get c).client = (w.clients.get d).client → c = d
  cache : ∀ u c, w.clientCache u = some c → c < w.clients.next ∧ (w.clients.get c).id = u

variable {P Q : Ref → Prop} {c q : Ref} {w w' : World L} {v : ClientView}

/-- Where many are calm, few are. -/
theorem Calm.mono (h : Calm P w) (hQ : ∀ c, Q c → P c) : Calm Q w :=
  { h with sync := fun c hc hq => h.sync c hc (hQ c hq) }

/-- The calls on `q` are what is left to look at. -/
theorem Calm.join (h : Calm (· ≠ q) w) (hq : Fine q w) : Calm (fun _ => True) w :=
  { h with
    sync := fun c hc _ => by
      by_cases hcq : c = q
      · rw [hcq]
        exact hq
      · exact h.sync c hc hcq }

/-! ### Steps that leave the clients in `P` alone -/

/-- The world has the same clients, as far as it matters here, and the clients in `P` look
    the same. -/
structure Same (P : Ref → Prop) (w w' : World L) : Prop where
  next      : w'.clients.next = w.clients.next
  client    : ∀ c, (w'.clients.get c).client = (w.clients.get c).client
  id        : ∀ c, (w'.clients.get c).id = (w.clients.get c).id
  matrix    : w'.matrixClients.next = w.matrixClients.next
  cache     : w'.clientCache = w.clientCache
  fine      : ∀ c, c < w.clients.next → P c → Fine c w → Fine c w'

/-- Those that stay the same stay calm. -/
theorem Same.calm (h : Same P w w') (hw : Calm P w) : Calm P w' where
  sync c hc hP := by
    rw [h.next] at hc
    exact h.fine c hc hP (hw.sync c hc hP)
  lt c hc := by
    rw [h.next] at hc
    rw [h.client, h.matrix]
    exact hw.lt c hc
  apart c d hc hd := by
    rw [h.next] at hc hd
    rw [h.client, h.client]
    exact hw.apart c d hc hd
  cache u c hu := by
    rw [h.cache] at hu
    rw [h.next, h.id]
    exact hw.cache u c hu

/-- All stay the same over no step. -/
theorem Same.refl (w : World L) : Same P w w :=
  ⟨rfl, fun _ => rfl, fun _ => rfl, rfl, rfl, fun _ _ _ h => h⟩

/-- And over two. -/
theorem Same.trans {w'' : World L} (h : Same P w w') (h' : Same P w' w'') : Same P w w'' where
  next := h'.next.trans h.next
  client c := (h'.client c).trans (h.client c)
  id c := (h'.id c).trans (h.id c)
  matrix := h'.matrix.trans h.matrix
  cache := h'.cache.trans h.cache
  fine c hc hP hfine := h'.fine c (by rw [h.next]; exact hc) hP (h.fine c hc hP hfine)

/-- The frame of a step that leaves the clients in `P` alone. -/
def Sames (L : Type) (P : Ref → Prop) : Frame (World L) where
  rel := Same P
  refl := Same.refl
  trans := Same.trans

/-- The frame of a step that keeps the clients in `P` calm. -/
abbrev Calms (L : Type) (P : Ref → Prop) : Frame (World L) := .ofInv (Calm P)

/-- The same for a program. -/
theorem calms_of_sames {α : Type} {m : Action L α} (hm : Keeps (Sames L P) m) :
    Keeps (Calms L P) m := fun w => (hm w).calm

/-- A client that is fine stays fine over what it does not see. -/
theorem Fine.of_unseen (h : Fine c w) (hw : (Unseen L c).rel w w') : Fine c w' := by
  obtain ⟨v, hv, hok⟩ := h
  exact ⟨v, hw v hv, hok⟩

/-- A step that changes nothing of clients and Matrix clients that one sees. -/
theorem sames_modify {f : World L → World L} (hclients : ∀ w, (f w).clients = w.clients)
    (hmatrix : ∀ w, (f w).matrixClients = w.matrixClients)
    (hrows : ∀ w, (f w).clientRows = w.clientRows)
    (hcache : ∀ w, (f w).clientCache = w.clientCache) :
    Keeps (Sames L P) (modify f : Action L Unit) := fun w =>
  { next := congrArg Store.next (hclients w)
    client := fun c => congrArg (fun s => (s.get c).client) (hclients w)
    id := fun c => congrArg (fun s => (s.get c).id) (hclients w)
    matrix := congrArg Store.next (hmatrix w)
    cache := hcache w
    fine := fun _ _ _ hc => hc.of_unseen (unseen_modify hclients hmatrix hrows hcache w) }

/-- A field of a client that nobody sees may be set, -/
theorem sames_setClient (q : Ref) {f : Client → Client} (hid : ∀ cl, (f cl).id = cl.id)
    (hrow : ∀ cl, (f cl).row = cl.row) (hstarted : ∀ cl, (f cl).started = cl.started)
    (hclient : ∀ cl, (f cl).client = cl.client) : Keeps (Sames L P) (setClient q f) := fun w =>
  { next := rfl
    client := Store.view_modify w.clients q f Client.client hclient
    id := Store.view_modify w.clients q f Client.id hid
    matrix := rfl
    cache := rfl
    fine := fun _ _ _ hd => hd.of_unseen (unseen_setClient q hid hrow hstarted hclient w) }

/-- and one of a Matrix client. -/
theorem sames_setMatrixClient (m : Ref) {f : MatrixClient → MatrixClient}
    (hf : ∀ mc, (f mc).syncing = mc.syncing) : Keeps (Sames L P) (setMatrixClient m f) := fun w =>
  { Same.refl (P := P) w with
    fine := fun _ _ _ hd => hd.of_unseen (unseen_setMatrixClient m hf w) }

/-- Handlers come -/
theorem sames_addEventHandler (m : Ref) (t : EventType) (h : Handler) :
    Keeps (Sames L P) (addEventHandler m t h) :=
  sames_modify (fun _ => rfl) (fun _ => rfl) (fun _ => rfl) fun _ => rfl

/-- and go. -/
theorem sames_removeEventHandler (m : Ref) (t : EventType) (h : Handler) :
    Keeps (Sames L P) (removeEventHandler m t h) :=
  sames_modify (fun _ => rfl) (fun _ => rfl) (fun _ => rfl) fun _ => rfl

/-! ### New clients -/

/-- A client that is made from its row does not sync. -/
theorem idle_fromRow (id : String) (row : ClientRow) (w : World L) :
    (((fromRow S id row).exec w).2.matrixClients.get w.matrixClients.next).syncing = none := by
  let view (w' : World L) := (w'.matrixClients.get w.matrixClients.next).syncing
  have hclient (f : Client → Client) : Keeps (.ofView view) (setClient w.clients.next f) :=
    fun _ => rfl
  have hmatrix (m : Ref) {f : MatrixClient → MatrixClient}
      (hf : ∀ mc, (f mc).syncing = mc.syncing) :
      Keeps (.ofView view) (setMatrixClient m f) := fun w' =>
    Store.view_modify w'.matrixClients m f MatrixClient.syncing hf _
  have hhandlers (m : Ref) (t : EventType) (h : Handler) :
      Keeps (.ofView view) (addEventHandler m t h) := fun _ => rfl
  have hprepare : Keeps (.ofView view) (prepareCrypto w.clients.next) :=
    keeps_bind keeps_get fun _ => keeps_bind (keeps_forM fun _ _ => hhandlers _ _ _) fun _ =>
      keeps_bind (hclient _) fun _ => hmatrix _ fun _ => rfl
  have hsetUp : Keeps (.ofView view) (setUp S w.clients.next w.matrixClients.next) :=
    keeps_bind keeps_get fun _ => keeps_bind (keeps_when hprepare) fun _ =>
      keeps_bind (hmatrix _ fun _ => rfl) fun _ =>
      keeps_bind (keeps_when (hhandlers _ _ _)) fun _ =>
      keeps_bind (hmatrix _ fun _ => rfl) fun _ =>
      keeps_bind (hhandlers _ _ _) fun _ => hhandlers _ _ _
  have hview : view ((fromRow S id row).exec w).2 = view (allocated id row w) := by
    rw [exec_fromRow_eq]
    exact keeps_bind hsetUp (fun _ => keeps_pure _) (allocated id row w)
  exact hview.trans (congrArg MatrixClient.syncing (Store.get_alloc_self _ _))

/-- Making a client leaves the others alone, and the new one is in order. -/
theorem calm_fromRow (hw : Calm P w) {id : String} (row : ClientRow)
    (hcache : w.clientCache id = none) : Calm P ((fromRow S id row).exec w).2 := by
  obtain ⟨w', hw', hm⟩ := exec_fromRow (S := S) id row w
  have hidle := idle_fromRow (S := S) id row w
  rw [hw'] at hidle ⊢
  have hold {d : Ref} (hd : d < w.clients.next) : w'.clients.get d = w.clients.get d :=
    hm.clients d hd
  -- all that is new is the client, its Matrix client and the entry in the cache
  have hcaches : w'.clientCache = Function.update w.clientCache id (some w.clients.next) := by
    rw [hm.others]
  constructor
  · -- the new client does not sync
    intro d hd hP
    rw [hm.nextClient] at hd
    rcases Nat.lt_succ_iff_lt_or_eq.mp hd with hd | rfl
    · obtain ⟨v, hv, hok⟩ := hw.sync d hd hP
      exact ⟨v, hv.of_made hm hcache, hok⟩
    · refine ⟨view w.clients.next w', ⟨?_, ?_, rfl⟩, syncOk_of_none ?_⟩
      · rw [hm.nextClient]
        exact Nat.lt_succ_self _
      · show (w'.clients.get w.clients.next).client < _
        rw [hm.holds.1, hm.nextMatrix]
        exact Nat.lt_succ_self _
      · show (w'.matrixClients.get (w'.clients.get w.clients.next).client).syncing = none
        rw [hm.holds.1]
        exact hidle
  · intro d hd
    rw [hm.nextClient] at hd
    rw [hm.nextMatrix]
    rcases Nat.lt_succ_iff_lt_or_eq.mp hd with hd | rfl
    · rw [hold hd]
      exact Nat.lt_succ_of_lt (hw.lt d hd)
    · rw [hm.holds.1]
      exact Nat.lt_succ_self _
  · -- its Matrix client is nobody else's
    intro d e hd he
    rw [hm.nextClient] at hd he
    rcases Nat.lt_succ_iff_lt_or_eq.mp hd with hd | rfl <;>
      rcases Nat.lt_succ_iff_lt_or_eq.mp he with he | rfl
    · rw [hold hd, hold he]
      exact hw.apart d e hd he
    · rw [hold hd, hm.holds.1]
      exact fun heq => absurd heq (Nat.ne_of_lt (hw.lt d hd))
    · rw [hold he, hm.holds.1]
      exact fun heq => absurd heq.symm (Nat.ne_of_lt (hw.lt e he))
    · exact fun _ => rfl
  · intro u d hu
    rw [hcaches] at hu
    rw [hm.nextClient]
    rcases eq_or_ne u id with rfl | hne
    · rw [Function.update_self, Option.some.injEq] at hu
      subst hu
      exact ⟨Nat.lt_succ_self _, hm.id⟩
    · rw [Function.update_of_ne hne] at hu
      obtain ⟨hlt, hid⟩ := hw.cache u d hu
      exact ⟨Nat.lt_succ_of_lt hlt, by rw [hold hlt]; exact hid⟩

/-- A row is written, which may be the row of any client. -/
theorem same_rows (rows : String → Option ClientRow) : Same P w { w with clientRows := rows } :=
  { Same.refl (P := P) w with
    fine := fun _ _ _ hfine => by
      obtain ⟨v, hv, hok⟩ := hfine
      exact ⟨{ v with stored := rows v.id }, .intro hv.lt hv.clientLt hv.id hv.row hv.started
        hv.client hv.syncing rfl hv.cached, hok⟩ }

/-- A lookup leaves the clients alone, also if it creates one. -/
theorem calms_get (u : String) (homeserver token deviceId : Option String) :
    Keeps (Calms L P) (get S u homeserver token deviceId) := by
  intro w hw
  rcases exec_get_made (S := S) u homeserver token deviceId w with he | ⟨row, rows, hcache, he⟩ <;>
    rw [he]
  · exact hw
  · exact calm_fromRow ((same_rows rows).calm hw) row hcache

/-- Calls of instances keep the clients calm. -/
theorem calms_instances : PluginInstance.AdmitsClients S (Calms L P) where
  kept {w w'} h := by
    have hsame : Same P w w' :=
      { next := by rw [h.clients]
        client := fun _ => by rw [h.clients]
        id := fun _ => by rw [h.clients]
        matrix := by rw [h.matrixClients]
        cache := h.clientCache
        fine := fun c _ _ hc => by
          obtain ⟨v, hv, hok⟩ := hc
          refine ⟨v, .intro ?_ ?_ ?_ ?_ ?_ ?_ ?_ ?_ ?_, hok⟩ <;>
            simp only [h.clients, h.matrixClients, h.clientRows, h.clientCache]
          exacts [hv.lt, hv.clientLt, hv.id, hv.row, hv.started, hv.client, hv.syncing, hv.stored,
            hv.cached] }
    exact hsame.calm
  getClient u := calms_get u none none none
  setReferences q _ := calms_of_sames <|
    sames_setClient q (fun _ => rfl) (fun _ => rfl) (fun _ => rfl) fun _ => rfl
  addHandler _ _ _ := calms_of_sames (sames_addEventHandler _ _ _)
  removeHandlers _ := keeps_bind keeps_get fun _ => keeps_forM fun _ _ =>
    calms_of_sames (sames_removeEventHandler _ _ _)

/-! ### Steps of another client -/

/-- A step of the client `q` that changes neither its id nor its Matrix client. -/
theorem sames_setOther {f : Client → Client} (hid : ∀ cl, (f cl).id = cl.id)
    (hclient : ∀ cl, (f cl).client = cl.client) : Keeps (Sames L (· ≠ q)) (setClient q f) :=
  fun w =>
    { Same.refl (P := (· ≠ q)) w with
      client := Store.view_modify w.clients q f Client.client hclient
      id := Store.view_modify w.clients q f Client.id hid
      fine := fun d _ hd hfine => by
        obtain ⟨v, hv, hok⟩ := hfine
        have hget : ((setClient q f : Action L Unit).exec w).2.clients.get d = w.clients.get d :=
          Store.get_modify_ne _ _ hd
        exact ⟨v, .intro hv.lt hv.clientLt (by rw [hget]; exact hv.id) (by rw [hget]; exact hv.row)
          (by rw [hget]; exact hv.started) (by rw [hget]; exact hv.client) hv.syncing hv.stored
          hv.cached, hok⟩ }

/-- A step of a Matrix client that no client but `q` has. -/
theorem same_setSyncing {m : Ref} (f : Option String)
    (hm : ∀ d, d < w.clients.next → d ≠ q → (w.clients.get d).client ≠ m) :
    Same (· ≠ q) w ((setMatrixClient m fun mc => { mc with syncing := f } :
      Action L Unit).exec w).2 :=
  { Same.refl (P := (· ≠ q)) w with
    fine := fun d hd hdq hfine => by
      obtain ⟨v, hv, hok⟩ := hfine
      have hne : v.client ≠ m := by
        rw [← hv.client]
        exact hm d hd hdq
      refine ⟨v, .intro hv.lt hv.clientLt hv.id hv.row hv.started hv.client ?_ hv.stored
        hv.cached, hok⟩
      rw [← hv.syncing]
      exact congrArg MatrixClient.syncing (Store.get_modify_ne w.matrixClients
        (fun mc => { mc with syncing := f }) hne) }

/-- `update` of one client may also be seen in the row of another of the same id. -/
theorem sames_update (q : Ref) : Keeps (Sames L P) (update q) :=
  keeps_bind keeps_get fun _ => keeps_ite (keeps_pure ()) <|
    keeps_ite (fun _ => same_rows _) (keeps_throw _)

/-- The frame of the methods of `q`, which exists. -/
def Elsewhere (L : Type) (q : Ref) : Frame (World L) :=
  .ofInv fun w => Calm (· ≠ q) w ∧ q < w.clients.next

/-- What changes no other client happens elsewhere to all of them. -/
theorem elsewhere_of_same (h : Same (· ≠ q) w w') : (Elsewhere L q).rel w w' := fun hw =>
  ⟨h.calm hw.1, by rw [h.next]; exact hw.2⟩

/-- The same for a program, -/
theorem elsewhere_of_sames {α : Type} {m : Action L α} (hm : Keeps (Sames L (· ≠ q)) m) :
    Keeps (Elsewhere L q) m := hm.mono elsewhere_of_same

/-- and for one that keeps the others calm. -/
theorem elsewhere_of_calms {α : Type} {m : Action L α} (hm : Keeps (Calms L (· ≠ q)) m)
    (hmore : Keeps (MoreClients L) m) : Keeps (Elsewhere L q) m := fun w hw =>
  ⟨hm w hw.1, Nat.lt_of_lt_of_le hw.2 (hmore w)⟩

/-- No other client has the Matrix client of `q`. -/
theorem Calm.others (hw : Calm P w) (hq : q < w.clients.next) (d : Ref) (hd : d < w.clients.next)
    (hne : d ≠ q) : (w.clients.get d).client ≠ (w.clients.get q).client :=
  fun heq => hne (hw.apart d q hd hq heq)

/-- A client's own sync is elsewhere to the others. -/
theorem elsewhere_setSyncing (hw : Calm (· ≠ q) w) (hq : q < w.clients.next)
    (f : Option String) :
    (Elsewhere L q).rel w ((setMatrixClient (w.clients.get q).client fun mc =>
      { mc with syncing := f } : Action L Unit).exec w).2 :=
  elsewhere_of_same (same_setSyncing f (hw.others hq))

/-- The methods of `q` leave the others calm. -/
theorem admits_elsewhere : Admits S q (Elsewhere L q) where
  assign f hid _ hclient _ := elsewhere_of_sames (sames_setOther hid hclient)
  setRow _ _ _ := elsewhere_of_sames (sames_setOther (fun _ => rfl) fun _ => rfl)
  setAutojoin w b _ := by
    have hrow : Keeps (Elsewhere L q) (setClientRow q fun row => { row with autojoin := b }) :=
      elsewhere_of_sames (sames_setOther (fun _ => rfl) fun _ => rfl)
    cases b with
    | true =>
      exact keeps_bind (elsewhere_of_sames (sames_addEventHandler _ _ _)) (fun _ => hrow) w
    | false =>
      exact keeps_bind (elsewhere_of_sames (sames_removeEventHandler _ _ _)) (fun _ => hrow) w
  setOnline w b := by
    have hrow : Keeps (Elsewhere L q) (setClientRow q fun row => { row with online := b }) :=
      elsewhere_of_sames (sames_setOther (fun _ => rfl) fun _ => rfl)
    have hpresence (m : Ref) :
        Keeps (Elsewhere L q) (setMatrixClient m fun mc => { mc with presence := b }) :=
      elsewhere_of_sames (sames_setMatrixClient m fun _ => rfl)
    exact keeps_bind (hpresence _) (fun _ => hrow) w
  update := elsewhere_of_sames (sames_update q)
  -- the sync of another client is not the one that is watched
  startSync := by
    refine keeps_get_bind fun w hw => ?_
    dsimp only
    rw [when]
    split
    · exact elsewhere_setSyncing hw.1 hw.2 _ hw
    · exact hw
  stopSync := keeps_get_bind fun w hw => elsewhere_setSyncing hw.1 hw.2 _ hw
  -- its plugins keep to their own Matrix client
  startPlugins env := keeps_bind keeps_get fun w => keeps_gather fun m hm => by
    obtain ⟨i, -, rfl⟩ := List.mem_map.mp hm
    exact elsewhere_of_calms ((calms_instances.admits i).start (env i))
      ((moreClients_instances.admits i).start (env i))
  stopPlugins env := keeps_bind keeps_get fun w => keeps_gather fun m hm => by
    obtain ⟨i, -, rfl⟩ := List.mem_map.mp hm
    exact elsewhere_of_calms (((calms_instances (S := S)).admits i).stop (env i))
      (((moreClients_instances (S := S)).admits i).stop (env i))

/-- Besides the clients, there is a Matrix client `m` that no client but `q` has. -/
structure CalmBeside (q m : Ref) (w : World L) : Prop where
  calm   : Calm (· ≠ q) w
  lt     : q < w.clients.next
  spare  : m < w.matrixClients.next
  others : ∀ d, d < w.clients.next → d ≠ q → (w.clients.get d).client ≠ m

/-- They stay calm beside a Matrix client that is made. -/
theorem CalmBeside.of_same {m : Ref} (h : CalmBeside q m w) (hs : Same (· ≠ q) w w') :
    CalmBeside q m w' where
  calm := hs.calm h.calm
  lt := by rw [hs.next]; exact h.lt
  spare := by rw [hs.matrix]; exact h.spare
  others d hd hdq := by
    rw [hs.next] at hd
    rw [hs.client]
    exact h.others d hd hdq

/-- The client `q` gets the Matrix client `m`. -/
theorem CalmBeside.setClient {m : Ref} (h : CalmBeside q m w) :
    CalmBeside q m ((Maubot.setClient q fun cl => { cl with client := m } :
      Action L Unit).exec w).2 := by
  let assign (cl : Client) : Client := { cl with client := m }
  -- the client `q` now points to the spare Matrix client; the others are apart from it
  have hself : ((w.clients.modify q assign).get q).client = m :=
    congrArg Client.client (Store.get_modify_self w.clients q assign)
  have hother {d : Ref} (hd : d ≠ q) : (w.clients.modify q assign).get d = w.clients.get d :=
    Store.get_modify_ne w.clients assign hd
  suffices hcalm : CalmBeside q m { w with clients := w.clients.modify q assign } from hcalm
  refine
    { calm := ⟨fun d hd hdq => ?_, fun d hd => ?_, fun d e hd he heq => ?_, fun u d hu => ?_⟩
      lt := h.lt
      spare := h.spare
      others := fun d hd hdq => ?_ }
  · obtain ⟨v, hv, hok⟩ := h.calm.sync d hd hdq
    have hget := hother hdq
    exact ⟨v, .intro hv.lt hv.clientLt ((congrArg Client.id hget).trans hv.id)
      ((congrArg Client.row hget).trans hv.row) ((congrArg Client.started hget).trans hv.started)
      ((congrArg Client.client hget).trans hv.client) hv.syncing hv.stored hv.cached, hok⟩
  · show ((w.clients.modify q assign).get d).client < w.matrixClients.next
    by_cases hdq : d = q
    · rw [hdq, hself]
      exact h.spare
    · rw [hother hdq]
      exact h.calm.lt d hd
  · replace heq : ((w.clients.modify q assign).get d).client =
      ((w.clients.modify q assign).get e).client := heq
    by_cases hdq : d = q <;> by_cases heq' : e = q
    · rw [hdq, heq']
    · rw [hdq, hself, hother heq'] at heq
      exact absurd heq.symm (h.others e he heq')
    · rw [heq', hself, hother hdq] at heq
      exact absurd heq (h.others d hd hdq)
    · rw [hother hdq, hother heq'] at heq
      exact h.calm.apart d e hd he heq
  · obtain ⟨hlt, hid⟩ := h.calm.cache u d hu
    exact ⟨hlt, (Store.view_modify w.clients q assign Client.id (fun _ => rfl) d).trans hid⟩
  · show ((w.clients.modify q assign).get d).client ≠ m
    rw [hother hdq]
    exact h.others d hd hdq

/-- So one may be made, -/
theorem elsewhere_makeClient (hw : Calm (· ≠ q) w) (hq : q < w.clients.next)
    (homeserver token deviceId : Option String) :
    ∃ m w', (makeClient q homeserver token deviceId : Action L Ref).exec w = (.ok m, w') ∧
      CalmBeside q m w' := by
  refine ⟨w.matrixClients.next, _, rfl, ?_⟩
  have hold {r : Ref} (a : MatrixClient) (hr : r < w.matrixClients.next) :
      (w.matrixClients.alloc a).get r = w.matrixClients.get r := Store.get_alloc_of_lt _ _ hr
  exact
    { calm :=
        { sync := fun d hd hdq => by
            obtain ⟨v, hv, hok⟩ := hw.sync d hd hdq
            exact ⟨v, .intro hv.lt (Nat.lt_succ_of_lt hv.clientLt) hv.id hv.row hv.started hv.client
              ((congrArg MatrixClient.syncing (hold _ hv.clientLt)).trans hv.syncing) hv.stored
              hv.cached, hok⟩
          lt := fun d hd => Nat.lt_succ_of_lt (hw.lt d hd)
          apart := hw.apart
          cache := hw.cache }
      lt := hq
      spare := Nat.lt_succ_self _
      others := fun d hd _ => Nat.ne_of_lt (hw.lt d hd) }

/-- Switching the Matrix client of `q` leaves the others calm. -/
theorem elsewhere_switchAccess {m : Ref} (hw : CalmBeside q m w) (token homeserver : Option String)
    (deviceId : String) (crypto : CryptoEnv) :
    CalmBeside q m ((switchAccess S q m token homeserver deviceId crypto).exec w).2 := by
  let F : Frame (World L) := .ofInv (CalmBeside q m)
  have hsame {α : Type} {n : Action L α} (hn : Keeps (Sames L (· ≠ q)) n) : Keeps F n :=
    fun w hw => hw.of_same (hn w)
  have hsyncing (f : World L → Option String) : Keeps F (do
      let w ← world
      setMatrixClient (w.clients.get q).client fun mc => { mc with syncing := f w } :
        Action L Unit) :=
    keeps_get_bind fun w hw => hw.of_same (same_setSyncing (f w) (hw.calm.others hw.lt))
  have hstop : Keeps F (stopSync q) := hsyncing fun _ => none
  have hstart : Keeps F (startSync q) := by
    refine keeps_get_bind fun w hw => ?_
    dsimp only
    rw [when]
    split
    · exact hsyncing (fun w => some (w.clients.get q).row.filterId) w hw
    · exact hw
  have hassign {f : Client → Client} (hid : ∀ cl, (f cl).id = cl.id)
      (hclient : ∀ cl, (f cl).client = cl.client) : Keeps F (setClient q f) :=
    hsame (sames_setOther hid hclient)
  have hmatrix (r : Ref) {f : MatrixClient → MatrixClient}
      (hf : ∀ mc, (f mc).syncing = mc.syncing) :
      Keeps F (setMatrixClient r f) := hsame (sames_setMatrixClient r hf)
  have hremove : Keeps F (removeCryptoEventHandlers q) := by
    refine keeps_bind keeps_get fun w => ?_
    split
    · exact keeps_pure ()
    · exact keeps_forM fun _ _ => hsame (sames_removeEventHandler _ _ _)
  have hprepare : Keeps F (prepareCrypto q) :=
    keeps_bind keeps_get fun _ =>
      keeps_bind (keeps_forM fun _ _ => hsame (sames_addEventHandler _ _ _)) fun _ =>
      keeps_bind (hassign (fun _ => rfl) fun _ => rfl) fun _ => hmatrix _ fun _ => rfl
  have hcrypto : Keeps F (startCrypto q crypto) :=
    keeps_bind keeps_get fun _ => keeps_bind (keeps_outcome _) fun _ =>
      hassign (fun _ => rfl) fun _ => rfl
  have hset : Keeps F (setClient q fun cl => { cl with client := m }) :=
    fun w hw => CalmBeside.setClient hw
  -- each step changes the client `q`, its Matrix client or the spare one
  have hswitch : Keeps F (switchAccess S q m token homeserver deviceId crypto) := by
    refine keeps_bind hstop fun _ => keeps_bind hremove fun _ => keeps_bind keeps_get fun w₁ =>
      keeps_bind (hmatrix _ fun _ => rfl) fun _ => keeps_bind (hmatrix _ fun _ => rfl) fun _ =>
      keeps_bind hset fun _ => keeps_bind (hassign (fun _ => rfl) fun _ => rfl) fun _ =>
      keeps_bind keeps_get fun w₂ => ?_
    dsimp only
    split
    · exact keeps_bind hprepare fun _ => keeps_bind hcrypto fun _ => hstart
    · exact keeps_bind (hassign (fun _ => rfl) fun _ => rfl) fun _ => hstart
  exact hswitch w hw

/-- and the client switched to it. -/
theorem elsewhere_updateAccessDetails (token homeserver deviceId : Option String)
    (env : AccessEnv) :
    Keeps (Elsewhere L q) (updateAccessDetails S q token homeserver deviceId env) := by
  refine Admits.updateAccessDetails token homeserver deviceId env (fun w hw => ?_)
    (fun w hw => ?_) <;>
    obtain ⟨m, w', he, hbeside⟩ := elsewhere_makeClient hw.1 hw.2 homeserver token
      (some (deviceId.getD (w.clients.get q).row.deviceId))
  · rw [he]
    exact ⟨hbeside.calm, hbeside.lt⟩
  · rw [exec_bind_ok he]
    have hswitch := elsewhere_switchAccess (S := S) hbeside token homeserver
      (deviceId.getD (w.clients.get q).row.deviceId) env.crypto
    exact ⟨hswitch.calm, hswitch.lt⟩

end Client

end Maubot
