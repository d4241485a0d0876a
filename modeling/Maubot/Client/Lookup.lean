import Maubot.Client.Basic

namespace Maubot

open Prog

/-!
# Clients — what looking one up does to the world

* `OnlyClient c m d` — the frame of a step that touches one client, its Matrix client and
  the dict of its event handlers;
* `Made` — the world after a client was set up from its row (`exec_fromRow`);
* `exec_get` — a lookup finds the client in the cache, makes it from its row, or finds
  nothing and changes nothing.
-/

variable {L : Type} (S : Setup L)

namespace Client

/-! ### Setting up one client -/

/-- The client `c` holds the Matrix client `m`, whose handlers are in the dict `d`. -/
def Holds (c m d : Ref) (w : World L) : Prop :=
  (w.clients.get c).client = m ∧ (w.matrixClients.get m).eventHandlers = d

/-- Nothing has changed outside the client `c`, the Matrix client `m` and the dict `d`, and
    `c` keeps the fields of its row and its references. -/
structure OnlyClient (c m d : Ref) (w w' : World L) : Prop where
  others        : w' = { w with
    clients := w'.clients, matrixClients := w'.matrixClients, eventHandlers := w'.eventHandlers }
  nextClient    : w'.clients.next = w.clients.next
  nextMatrix    : w'.matrixClients.next = w.matrixClients.next
  nextHandlers  : w'.eventHandlers.next = w.eventHandlers.next
  clients       : ∀ q, q ≠ c → w'.clients.get q = w.clients.get q
  matrixClients : ∀ q, q ≠ m → w'.matrixClients.get q = w.matrixClients.get q
  eventHandlers : ∀ q, q ≠ d → w'.eventHandlers.get q = w.eventHandlers.get q
  id            : (w'.clients.get c).id = (w.clients.get c).id
  row           : (w'.clients.get c).row = (w.clients.get c).row
  references    : (w'.clients.get c).references = (w.clients.get c).references
  plugins       : pluginEntries (w'.eventHandlers.get d) = pluginEntries (w.eventHandlers.get d)
  holds         : Holds c m d w'

/-- Only the client has changed over no step. -/
theorem OnlyClient.refl {c m d : Ref} {w : World L} (h : Holds c m d w) :
    OnlyClient c m d w w :=
  { others := rfl, nextClient := rfl, nextMatrix := rfl, nextHandlers := rfl
    clients := fun _ _ => rfl, matrixClients := fun _ _ => rfl, eventHandlers := fun _ _ => rfl
    id := rfl, row := rfl, references := rfl, plugins := rfl, holds := h }

/-- And over two, if over each. -/
theorem OnlyClient.trans {c m d : Ref} {w w' w'' : World L} (h : OnlyClient c m d w w')
    (h' : OnlyClient c m d w' w'') : OnlyClient c m d w w'' where
  others := h'.others.trans (congrArg (fun v : World L =>
    { v with
      clients := w''.clients, matrixClients := w''.matrixClients
      eventHandlers := w''.eventHandlers }) h.others)
  nextClient := h'.nextClient.trans h.nextClient
  nextMatrix := h'.nextMatrix.trans h.nextMatrix
  nextHandlers := h'.nextHandlers.trans h.nextHandlers
  clients q hq := (h'.clients q hq).trans (h.clients q hq)
  matrixClients q hq := (h'.matrixClients q hq).trans (h.matrixClients q hq)
  eventHandlers q hq := (h'.eventHandlers q hq).trans (h.eventHandlers q hq)
  id := h'.id.trans h.id
  row := h'.row.trans h.row
  references := h'.references.trans h.references
  plugins := h'.plugins.trans h.plugins
  holds := h'.holds

/-- The frame of the steps of `set_up`. -/
def Only (L : Type) (c m d : Ref) : Frame (World L) where
  rel w w' := Holds c m d w → OnlyClient c m d w w'
  refl _ h := .refl h
  trans h h' hd := (h hd).trans (h' (h hd).holds)

variable {S} {c m d : Ref}

/-- A field of the client may be set, -/
theorem only_setClient {f : Client → Client} (hclient : ∀ cl, (f cl).client = cl.client)
    (hid : ∀ cl, (f cl).id = cl.id) (hrow : ∀ cl, (f cl).row = cl.row)
    (href : ∀ cl, (f cl).references = cl.references) :
    Keeps (Only L c m d) (setClient c f) := fun w h =>
  { OnlyClient.refl (w := w) h with
    others := rfl
    clients := fun _ hq => Store.get_modify_ne _ _ hq
    id := Store.view_modify _ _ _ Client.id hid c
    row := Store.view_modify _ _ _ Client.row hrow c
    references := Store.view_modify _ _ _ Client.references href c
    holds := ⟨(Store.view_modify _ _ _ Client.client hclient c).trans h.1, h.2⟩ }

/-- one of its Matrix client, -/
theorem only_setMatrixClient {f : MatrixClient → MatrixClient}
    (hf : ∀ mc, (f mc).eventHandlers = mc.eventHandlers) :
    Keeps (Only L c m d) (setMatrixClient m f) := fun w h =>
  { OnlyClient.refl (w := w) h with
    others := rfl
    matrixClients := fun _ hq => Store.get_modify_ne _ _ hq
    holds := ⟨h.1, (Store.view_modify _ _ _ MatrixClient.eventHandlers hf m).trans h.2⟩ }

/-- and its own handlers be added. -/
theorem only_addEventHandler (t : EventType) {x : Handler} (hx : x.isPlugin = false) :
    Keeps (Only L c m d) (addEventHandler m t x) := fun w h =>
  { OnlyClient.refl (w := w) h with
    others := rfl
    eventHandlers := fun _ hq =>
      Store.get_modify_ne w.eventHandlers (· ++ [(t, x)]) (h.2.symm ▸ hq)
    plugins := Store.view_modify w.eventHandlers _ (· ++ [(t, x)]) pluginEntries
      (fun l => by simp [pluginEntries, hx]) d }

/-- The handlers of the crypto machine are no plugin's. -/
theorem cryptoHandlers_not_plugin {machine : Ref} {h : EventType × Handler}
    (hh : h ∈ cryptoHandlers machine) : h.2.isPlugin = false := by
  simp only [cryptoHandlers, List.mem_cons, List.not_mem_nil, or_false] at hh
  rcases hh with rfl | rfl | rfl | rfl | rfl <;> rfl

/-- So it may be prepared, -/
theorem only_prepareCrypto : Keeps (Only L c m d) (prepareCrypto c) := by
  refine keeps_get_bind fun w hw => ?_
  have hm : (w.clients.get c).client = m := hw.1
  rw [hm]
  refine keeps_bind (F := Only L c m d)
    (keeps_forM fun h hh => only_addEventHandler h.1 (cryptoHandlers_not_plugin hh))
    (fun _ => keeps_bind ?_ fun _ => ?_) w hw
  · exact only_setClient (fun _ => rfl) (fun _ => rfl) (fun _ => rfl) fun _ => rfl
  · exact only_setMatrixClient fun _ => rfl

/-- and the client set up. -/
theorem only_setUp : Keeps (Only L c m d) (setUp S c m) :=
  keeps_bind keeps_get fun _ => keeps_bind (keeps_when only_prepareCrypto) fun _ =>
    keeps_bind (only_setMatrixClient fun _ => rfl) fun _ =>
    keeps_bind (keeps_when (only_addEventHandler _ rfl)) fun _ =>
    keeps_bind (only_setMatrixClient fun _ => rfl) fun _ =>
    keeps_bind (only_addEventHandler _ rfl) fun _ => only_addEventHandler _ rfl

/-- A client is set up without an exception. -/
theorem returns_setUp (c m : Ref) : Returns (setUp S c m) := by
  have hprepare : Returns (prepareCrypto c : Action L Unit) :=
    raises_bind raises_get fun _ =>
      raises_bind (raises_forM fun _ _ => raises_modify _) fun _ =>
      raises_bind (raises_modify _) fun _ => raises_modify _
  exact raises_bind raises_get fun w =>
    raises_bind (raises_when hprepare) fun _ => raises_bind (raises_modify _) fun _ =>
    raises_bind (raises_when (raises_modify _)) fun _ =>
    raises_bind (raises_modify _) fun _ => raises_bind (raises_modify _) fun _ => raises_modify _

/-! ### A client made from its row -/

/-- The world after the client `id` was made from `row`: its objects are new, and only the
    cache knows of it. -/
structure Made (id : String) (row : ClientRow) (w w' : World L) : Prop where
  others        : w' = { w with
    clients := w'.clients, matrixClients := w'.matrixClients, eventHandlers := w'.eventHandlers
    clientCache := Function.update w.clientCache id (some w.clients.next) }
  nextClient    : w'.clients.next = w.clients.next + 1
  nextMatrix    : w'.matrixClients.next = w.matrixClients.next + 1
  nextHandlers  : w'.eventHandlers.next = w.eventHandlers.next + 1
  clients       : ∀ q, q < w.clients.next → w'.clients.get q = w.clients.get q
  matrixClients : ∀ q, q < w.matrixClients.next → w'.matrixClients.get q = w.matrixClients.get q
  eventHandlers : ∀ q, q < w.eventHandlers.next → w'.eventHandlers.get q = w.eventHandlers.get q
  id            : (w'.clients.get w.clients.next).id = id
  row           : (w'.clients.get w.clients.next).row = row
  references    : (w'.clients.get w.clients.next).references = []
  plugins       : pluginEntries (w'.eventHandlers.get w.eventHandlers.next) = []
  holds         : Holds w.clients.next w.matrixClients.next w.eventHandlers.next w'

/-- The objects of a new client before `set_up`. -/
def allocated (id : String) (row : ClientRow) (w : World L) : World L :=
  let m : MatrixClient :=
    { mxid := id
      baseUrl := pyOr none row.homeserver
      token := pyOr none row.accessToken
      deviceId := row.deviceId
      eventHandlers := w.eventHandlers.next }
  { w with
    clients := (w.clients.alloc { id, row, client := w.matrixClients.next }).modify w.clients.next
      fun cl => { cl with client := w.matrixClients.next }
    clientCache := Function.update w.clientCache id (some w.clients.next)
    matrixClients := w.matrixClients.alloc m
    eventHandlers := w.eventHandlers.alloc [] }

/-- A client is made from its row by being allocated and set up. -/
theorem exec_fromRow_eq (id : String) (row : ClientRow) (w : World L) :
    (fromRow S id row).exec w =
      (do setUp S w.clients.next w.matrixClients.next; pure w.clients.next : Action L Ref).exec
        (allocated id row w) := by
  have hself : ∀ client : Client, (w.clients.alloc client).get w.clients.next = client :=
    fun _ => Store.get_alloc_self _ _
  have hprepare : (postinit S w.clients.next).exec
      { w with clients := w.clients.alloc { id, row, client := w.matrixClients.next } } =
        (setUp S w.clients.next w.matrixClients.next).exec (allocated id row w) := by
    unfold postinit makeClient setClient allocated
    rw [exec_modify_bind, exec_bind, exec_get_bind]
    dsimp only
    rw [hself, exec_modify_bind, exec_pure]
    dsimp only
    rw [exec_modify_bind]
    rfl
  rw [fromRow, exec_get_bind, exec_modify_bind, exec_bind, hprepare, exec_bind]

/-- When it is allocated it has its row. -/
theorem allocated_client (id : String) (row : ClientRow) (w : World L) :
    (allocated id row w).clients.get w.clients.next =
      { id, row, client := w.matrixClients.next } := by
  simp [allocated]

/-- It holds its Matrix client. -/
theorem allocated_holds (id : String) (row : ClientRow) (w : World L) :
    Holds w.clients.next w.matrixClients.next w.eventHandlers.next (allocated id row w) := by
  constructor
  · rw [allocated_client]
  · simp [allocated]

/-- **Setting up a client.**  It does not fail. -/
theorem exec_fromRow (id : String) (row : ClientRow) (w : World L) :
    ∃ w', (fromRow S id row).exec w = (.ok w.clients.next, w') ∧ Made id row w w' := by
  obtain ⟨_, hok⟩ := (returns_setUp (S := S) w.clients.next w.matrixClients.next).exists_ok
    (allocated id row w)
  have h := only_setUp (S := S) (allocated id row w) (allocated_holds id row w)
  rcases hr : (setUp S w.clients.next w.matrixClients.next).exec (allocated id row w) with ⟨r, w'⟩
  rw [hr] at hok h
  subst hok
  refine ⟨w', by rw [exec_fromRow_eq, exec_bind_ok hr, exec_pure], ?_⟩
  exact
    { others := h.others
      nextClient := h.nextClient
      nextMatrix := h.nextMatrix
      nextHandlers := h.nextHandlers
      clients := fun q hq => by
        rw [h.clients q (Nat.ne_of_lt hq), allocated,
          Store.get_modify_ne _ _ (Nat.ne_of_lt hq), Store.get_alloc_of_lt _ _ hq]
      matrixClients := fun q hq =>
        (h.matrixClients q (Nat.ne_of_lt hq)).trans (Store.get_alloc_of_lt _ _ hq)
      eventHandlers := fun q hq =>
        (h.eventHandlers q (Nat.ne_of_lt hq)).trans (Store.get_alloc_of_lt _ _ hq)
      id := by rw [h.id, allocated_client]
      row := by rw [h.row, allocated_client]
      references := by rw [h.references, allocated_client]
      plugins := by rw [h.plugins]; simp [allocated, pluginEntries]
      holds := h.holds }

/-- **Looking a client up.**  It is in the cache, or is made from its row, or there is none;
    a lookup does not fail. -/
theorem exec_get (u : String) (w : World L) :
    (∃ c, w.clientCache u = some c ∧ (get S u none none none).exec w = (.ok (some c), w)) ∨
    (∃ row w', w.clientCache u = none ∧ w.clientRows u = some row ∧
      (get S u none none none).exec w = (.ok (some w.clients.next), w') ∧ Made u row w w') ∨
    (w.clientCache u = none ∧ w.clientRows u = none ∧
      (get S u none none none).exec w = (.ok none, w)) := by
  cases hc : w.clientCache u with
  | some c => exact Or.inl ⟨c, rfl, by simp [get, hc]⟩
  | none =>
    cases hrow : w.clientRows u with
    | some row =>
      obtain ⟨w', hw', hmade⟩ := exec_fromRow (S := S) u row w
      refine Or.inr (Or.inl ⟨row, w', rfl, rfl, ?_, hmade⟩)
      simp [get, hc, hrow, exec_map, hw']
    | none => exact Or.inr (Or.inr ⟨rfl, rfl, by simp [get, hc, hrow, truthy]⟩)

/-- A lookup does not fail, and what it finds is in the cache. -/
theorem exec_get_cached (u : String) (w : World L) :
    ∃ r w', (get S u none none none).exec w = (.ok r, w') ∧
      ∀ c, r = some c → w'.clientCache u = some c := by
  rcases exec_get (S := S) u w with ⟨c, hc, he⟩ | ⟨row, w', -, -, he, hmade⟩ | ⟨-, -, he⟩
  · refine ⟨_, _, he, ?_⟩
    rintro _ ⟨⟩
    exact hc
  · refine ⟨_, _, he, ?_⟩
    rintro _ ⟨⟩
    rw [hmade.others]
    exact Function.update_self _ _ _
  · exact ⟨_, _, he, fun c hc => by cases hc⟩

/-- **Looking a client up, or creating it.**  It is in the cache, or is made from its row,
    which may be a new one, or nothing changes. -/
theorem exec_get_cases (u : String) (homeserver token deviceId : Option String) (w : World L) :
    (∃ r, (get S u homeserver token deviceId).exec w = (r, w) ∧
      ∀ c, r = .ok (some c) → w.clientCache u = some c) ∨
    (∃ row w', w.clientCache u = none ∧ w.clientRows u = some row ∧
      (get S u homeserver token deviceId).exec w = (.ok (some w.clients.next), w') ∧
      Made u row w w') ∨
    (∃ row w', w.clientCache u = none ∧ w.clientRows u = none ∧
      (get S u homeserver token deviceId).exec w = (.ok (some w.clients.next), w') ∧
      Made u row { w with clientRows := Function.update w.clientRows u (some row) } w') := by
  cases hc : w.clientCache u with
  | some c =>
    refine Or.inl ⟨.ok (some c), by simp [get, hc], fun c' hc' => ?_⟩
    cases hc'
    rfl
  | none =>
    cases hrow : w.clientRows u with
    | some row =>
      obtain ⟨w', hw', hmade⟩ := exec_fromRow (S := S) u row w
      refine Or.inr (Or.inl ⟨row, w', rfl, rfl, ?_, hmade⟩)
      simp [get, hc, hrow, exec_map, hw']
    | none =>
      -- without a row it is made only with a homeserver and a token
      by_cases hcreate : (truthy homeserver && truthy token) = true
      · let row : ClientRow :=
          { homeserver, accessToken := token, deviceId := deviceId.getD "", enabled := false }
        obtain ⟨w', hw', hmade⟩ := exec_fromRow (S := S) u row
          { w with clientRows := Function.update w.clientRows u (some row) }
        have hnotNull : row.notNull = true := by
          rw [Bool.and_eq_true] at hcreate
          cases homeserver with
          | none => exact absurd hcreate.1 (by simp [truthy])
          | some _ =>
            cases token with
            | none => exact absurd hcreate.2 (by simp [truthy])
            | some _ => rfl
        have hinsert : (insertRow u row : Action L Unit).exec w =
            (.ok (), { w with clientRows := Function.update w.clientRows u (some row) }) := by
          simp [insertRow, hrow, hnotNull]
        have hget : (get S u homeserver token deviceId).exec w = (do
            insertRow u row
            let c ← fromRow S u row
            pure (some c) : Action L _).exec w := by
          simp only [get, exec_get_bind, hc, hrow, if_pos hcreate]
          rfl
        refine Or.inr (Or.inr ⟨row, w', rfl, rfl, ?_, hmade⟩)
        rw [hget, exec_bind_ok hinsert, exec_bind_ok hw']
        rfl
      · refine Or.inl ⟨.ok none, by simp [get, hc, hrow, hcreate], fun c hc' => ?_⟩
        cases hc'

/-- A lookup, which may create the client, changes nothing or makes a client that the cache
    does not have from a row. -/
theorem exec_get_made (u : String) (homeserver token deviceId : Option String) (w : World L) :
    ((get S u homeserver token deviceId).exec w).2 = w ∨
    ∃ row rows, w.clientCache u = none ∧ ((get S u homeserver token deviceId).exec w).2 =
      ((fromRow S u row).exec { w with clientRows := rows }).2 := by
  have hfound (row : ClientRow) (w : World L) : ((do
      let c ← fromRow S u row
      pure (some c) : Action L (Option Ref)).exec w).2 = ((fromRow S u row).exec w).2 := by
    rw [exec_bind]
    rcases (fromRow S u row).exec w with ⟨_ | _, _⟩ <;> rfl
  rw [get, exec_get_bind]
  cases hcache : w.clientCache u with
  | some c => exact .inl rfl
  | none =>
    dsimp only
    cases hrow : w.clientRows u with
    -- a client with a row is made of it,
    | some row => exact .inr ⟨row, w.clientRows, rfl, hfound row w⟩
    | none =>
      dsimp only
      -- one without a row gets a new row, if there are access details
      by_cases hgiven : (truthy homeserver && truthy token) = true
      · rw [if_pos hgiven]
        let row : ClientRow :=
          { homeserver, accessToken := token, deviceId := deviceId.getD "", enabled := false }
        by_cases hrefused : ((w.clientRows u).isSome || !row.notNull) = true
        · have hinsert : (insertRow u row : Action L Unit).exec w =
              (.error { cls := .integrityError }, w) := by
            rw [insertRow, exec_get_bind, if_pos hrefused]
            rfl
          rw [exec_bind_error hinsert]
          exact .inl rfl
        · have hinsert : (insertRow u row : Action L Unit).exec w =
              (.ok (), { w with clientRows := Function.update w.clientRows u (some row) }) := by
            rw [insertRow, exec_get_bind, if_neg hrefused]
            rfl
          rw [exec_bind_ok hinsert]
          exact .inr ⟨row, _, rfl, hfound row _⟩
      · rw [if_neg hgiven]
        exact .inl rfl

end Client

end Maubot
