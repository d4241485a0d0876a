import Maubot.Client.Operations
import Maubot.Client.Lookup
import Maubot.Lib.Runs
import Maubot.Management.Responses

namespace Maubot

open Prog Management

/-!
# Clients — runs of complete operations

* `Client.deleteClient` — the handler `delete_client`, whose guard looks at the references;
* `Client.Op` — the operations as data;
* `Admits S c F` — the frame `F` allows the steps that the methods of the client `c` are made
  of; then it allows the methods (`Admits.start`, `Admits.updateSync`, …).  The switch to
  another Matrix client is not among the steps: it is asked for where it is needed.
-/

variable {L : Type} (S : Setup L)

namespace Client

/-! ### Deletion by the API -/

/-- `delete_client` up to `client.delete()`: the client to delete, stopped, or the answer. -/
def deletable (userId : String) (env : Ref → StopEnv) : Action L (Except Response Ref) := do
  match ← get S userId none none none with
  | none   => pure (.error Response.clientNotFound)
  | some c => do
    let w ← world
    if 0 < (w.clients.get c).references.length then pure (.error Response.clientInUse)
    else do
      when (w.clients.get c).started (stop c env)
      pure (.ok c)

/-- The handler `delete_client`. -/
def deleteClient (userId : String) (env : Ref → StopEnv) (refused : Option PyExc) :
    Action L Response := do
  match ← deletable S userId env with
  | .error r => pure r
  | .ok c    => do
    delete c refused
    pure Response.deleted

variable {S} in
/-- After the lookup, nothing happens, or the client has no references and is stopped and
    deleted. -/
theorem exec_deleteClient_cases (u : String) (env : Ref → StopEnv) (refused : Option PyExc)
    (w : World L) :
    ∃ r w₁, (get S u none none none).exec w = (.ok r, w₁) ∧
      (∀ c, r = some c → w₁.clientCache u = some c) ∧
      (((deleteClient S u env refused).exec w).2 = w₁ ∨
        ∃ c, r = some c ∧ (w₁.clients.get c).references = [] ∧
          ((deleteClient S u env refused).exec w).2 = ((do
            when (w₁.clients.get c).started (stop c env)
            delete c refused : Action L Unit).exec w₁).2) := by
  obtain ⟨r, w₁, he, hcache⟩ := exec_get_cached (S := S) u w
  refine ⟨r, w₁, he, hcache, ?_⟩
  rw [deleteClient, exec_bind, deletable, exec_bind_ok he]
  cases r with
  | none => exact .inl rfl
  | some c =>
    dsimp only
    rw [exec_get_bind]
    by_cases hused : 0 < (w₁.clients.get c).references.length
    · rw [if_pos hused]
      exact .inl rfl
    · rw [if_neg hused]
      refine .inr ⟨c, rfl, List.length_eq_zero_iff.mp (Nat.eq_zero_of_not_pos hused), ?_⟩
      rcases hstop : (when (w₁.clients.get c).started (stop c env) : Action L Unit).exec w₁ with
        ⟨e | _, w₂⟩
      · rw [exec_bind_error hstop, exec_bind_error hstop]
      · rw [exec_bind_ok hstop, exec_bind_ok hstop]
        show ((do delete c refused; pure Response.deleted : Action L Response).exec w₂).2 = _
        rw [exec_bind]
        rcases (delete c refused : Action L Unit).exec w₂ with ⟨e | _, w₃⟩ <;> rfl

/-! ### Operations -/

/-- A complete operation. -/
inductive Op
  | get (userId : String) (homeserver accessToken deviceId : Option String)
  | start (c : Ref) (tryN : Nat) (env : ClientStartEnv)
  | stop (c : Ref) (env : Ref → StopEnv)
  | updateStarted (c : Ref) (started : Option Bool) (stopEnv : Ref → StopEnv)
      (startEnv : ClientStartEnv)
  | updateEnabled (c : Ref) (enabled : Option Bool) (save : Bool)
  | updateDisplayname (c : Ref) (value : Option String) (refused : Option PyExc)
      (profile : ProfileAnswer) (save : Bool)
  | updateAvatarUrl (c : Ref) (value : Option String) (refused : Option PyExc)
      (profile : ProfileAnswer) (save : Bool)
  | updateSync (c : Ref) (sync : Option Bool) (save : Bool)
  | updateAutojoin (c : Ref) (autojoin : Option Bool) (save : Bool)
  | updateOnline (c : Ref) (online : Option Bool) (save : Bool)
  | updateAccessDetails (c : Ref) (accessToken homeserver deviceId : Option String)
      (env : AccessEnv)
  | clearCache (c : Ref)
  | delete (userId : String) (env : Ref → StopEnv) (refused : Option PyExc)

namespace Op

/-- The client that the operation is called on. -/
def target : Op → Option Ref
  | .get ..                        => none
  | .start c _ _                   => some c
  | .stop c _                      => some c
  | .updateStarted c _ _ _         => some c
  | .updateEnabled c _ _           => some c
  | .updateDisplayname c _ _ _ _   => some c
  | .updateAvatarUrl c _ _ _ _     => some c
  | .updateSync c _ _              => some c
  | .updateAutojoin c _ _          => some c
  | .updateOnline c _ _            => some c
  | .updateAccessDetails c _ _ _ _ => some c
  | .clearCache c                  => some c
  | .delete ..                     => none

/-- The world after the operation, whether it returned or raised. -/
def exec (op : Op) (w : World L) : World L :=
  match op with
  | .get u h t d                       => ((Client.get S u h t d).exec w).2
  | .start c n env                     => ((Client.start S c n env).exec w).2
  | .stop c env                        => ((Client.stop c env).exec w).2
  | .updateStarted c b env env'        => ((Client.updateStarted S c b env env').exec w).2
  | .updateEnabled c b save            => ((Client.updateEnabled c b save).exec w).2
  | .updateDisplayname c x e p save    => ((Client.updateDisplayname c x e p save).exec w).2
  | .updateAvatarUrl c x e p save      => ((Client.updateAvatarUrl c x e p save).exec w).2
  | .updateSync c b save               => ((Client.updateSync c b save).exec w).2
  | .updateAutojoin c b save           => ((Client.updateAutojoin c b save).exec w).2
  | .updateOnline c b save             => ((Client.updateOnline c b save).exec w).2
  | .updateAccessDetails c t h d env   => ((Client.updateAccessDetails S c t h d env).exec w).2
  | .clearCache c                      => ((Client.clearCache c).exec w).2
  | .delete u env refused              => ((deleteClient S u env refused).exec w).2

/-- The client has been made. -/
def Held (w : World L) (op : Op) : Prop := ∀ c, op.target = some c → c < w.clients.next

end Op

/-! ### Steps of the methods -/

/-- The frame allows the steps that the methods of the client are made of. -/
structure Admits (S : Setup L) (c : Ref) (F : Frame (World L)) : Prop where
  assign       : ∀ f : Client → Client, (∀ cl, (f cl).id = cl.id) → (∀ cl, (f cl).row = cl.row) →
    (∀ cl, (f cl).client = cl.client) → (∀ cl, (f cl).references = cl.references) →
    Keeps F (setClient c f)
  setRow       : ∀ f : ClientRow → ClientRow, (∀ r, (f r).autojoin = r.autojoin) →
    (∀ r, (f r).online = r.online) → Keeps F (setClientRow c f)
  setAutojoin  : ∀ (w : World L) (b : Bool), b ≠ (w.clients.get c).row.autojoin →
    F.rel w ((do
      if b then addEventHandler (w.clients.get c).client "ROOM_MEMBER" (.handleInvite c)
      else removeEventHandler (w.clients.get c).client "ROOM_MEMBER" (.handleInvite c)
      setClientRow c fun row => { row with autojoin := b } : Action L Unit).exec w).2
  setOnline    : ∀ (w : World L) (b : Bool), F.rel w ((do
      setMatrixClient (w.clients.get c).client fun mc => { mc with presence := b }
      setClientRow c fun row => { row with online := b } : Action L Unit).exec w).2
  update       : Keeps F (update c)
  startSync    : Keeps F (startSync c)
  stopSync     : Keeps F (stopSync c)
  startPlugins : ∀ env, Keeps F (startPlugins S c env)
  stopPlugins  : ∀ env, Keeps F (stopPlugins c env)

namespace Admits

variable {S} {c : Ref} {F : Frame (World L)}

/-- A client may be saved, -/
theorem save (h : Admits S c F) (save : Bool) : Keeps F (when save (Client.update c)) :=
  keeps_when h.update

/-- marked as started, -/
theorem setStarted (h : Admits S c F) (b : Bool) :
    Keeps F (setClient c fun cl => { cl with started := b }) :=
  h.assign _ (fun _ => rfl) (fun _ => rfl) (fun _ => rfl) fun _ => rfl

/-- disabled, -/
theorem disable (h : Admits S c F) : Keeps F (disable c) :=
  keeps_bind (h.setRow _ (fun _ => rfl) fun _ => rfl) fun _ => h.update

/-- given its profile -/
theorem updateRemoteProfile (h : Admits S c F) (profile : ProfileAnswer) :
    Keeps F (updateRemoteProfile c profile) := by
  refine keeps_bind (keeps_attempt (keeps_outcome _) _) fun r => ?_
  cases r with
  | ok p => exact h.assign _ (fun _ => rfl) (fun _ => rfl) (fun _ => rfl) fun _ => rfl
  | error e => exact keeps_pure ()

/-- and its crypto machine. -/
theorem startCrypto (h : Admits S c F) (env : CryptoEnv) : Keeps F (startCrypto c env) :=
  keeps_bind keeps_get fun _ => keeps_bind (keeps_outcome _) fun _ =>
    h.assign _ (fun _ => rfl) (fun _ => rfl) (fun _ => rfl) fun _ => rfl

/-- So the rest of a start is admitted, -/
theorem bringUp (h : Admits S c F) (env : ClientStartEnv) : Keeps F (bringUp S c env) := by
  have hfilter : Keeps F (createFilter c env.createFilter) :=
    keeps_bind keeps_get fun _ => keeps_when <| keeps_bind (keeps_outcome _) fun _ =>
      keeps_bind (h.setRow _ (fun _ => rfl) fun _ => rfl) fun _ => h.update
  exact keeps_bind hfilter fun _ => keeps_bind keeps_get fun _ =>
    keeps_bind (keeps_when (keeps_raiseIf _)) fun _ =>
    keeps_bind (keeps_when (keeps_raiseIf _)) fun _ =>
    keeps_bind (keeps_when (h.startCrypto _)) fun _ =>
    keeps_bind h.startSync fun _ => keeps_bind (h.updateRemoteProfile _) fun _ =>
    keeps_bind (h.setStarted true) fun _ => h.startPlugins _

/-- a whole start, -/
theorem start (h : Admits S c F) (tryN : Nat) (env : ClientStartEnv) :
    Keeps F (start S c tryN env) := by
  refine keeps_bind (keeps_attempt ?_ _) fun _ => keeps_pure ()
  refine keeps_bind keeps_get fun w => keeps_ite (keeps_pure ()) (keeps_ite (keeps_pure ()) ?_)
  refine keeps_bind (keeps_attempt (keeps_bind (keeps_raiseIf _) fun _ => keeps_outcome _) _)
    fun r => ?_
  cases r with
  | error e =>
    exact keeps_ite h.disable <| keeps_ite h.disable <|
      h.assign _ (fun _ => rfl) (fun _ => rfl) (fun _ => rfl) fun _ => rfl
  | ok me => exact keeps_ite h.disable (keeps_ite h.disable (h.bringUp env))

/-- a stop, -/
theorem stop (h : Admits S c F) (env : Ref → StopEnv) : Keeps F (stop c env) :=
  keeps_bind keeps_get fun _ => keeps_when <| keeps_bind (h.setStarted false) fun _ =>
    keeps_bind (h.stopPlugins env) fun _ => h.stopSync

/-- and either on request. -/
theorem updateStarted (h : Admits S c F) (started : Option Bool) (stopEnv : Ref → StopEnv)
    (startEnv : ClientStartEnv) : Keeps F (updateStarted S c started stopEnv startEnv) := by
  refine keeps_bind keeps_get fun w => ?_
  cases started with
  | none => exact keeps_pure ()
  | some b => exact keeps_ite (keeps_pure ()) (keeps_ite (h.start 0 startEnv) (h.stop stopEnv))

/-- Then the flag, -/
theorem updateEnabled (h : Admits S c F) (enabled : Option Bool) (save : Bool) :
    Keeps F (updateEnabled c enabled save) := by
  refine keeps_bind keeps_get fun w => ?_
  cases enabled with
  | none => exact keeps_pure ()
  | some b =>
    exact keeps_ite (keeps_pure ()) <|
      keeps_bind (h.setRow _ (fun _ => rfl) fun _ => rfl) fun _ => h.save save

/-- the name and the avatar, -/
theorem updateProfile (h : Admits S c F) (field : ProfileField)
    (hautojoin : ∀ x r, (field.set x r).autojoin = r.autojoin)
    (honline : ∀ x r, (field.set x r).online = r.online) (value : Option String)
    (refused : Option PyExc) (profile : ProfileAnswer) (save : Bool) :
    Keeps F (updateProfile field c value refused profile save) := by
  refine keeps_bind keeps_get fun w => ?_
  cases value with
  | none => exact keeps_pure ()
  | some x =>
    refine keeps_ite (keeps_pure ()) <|
      keeps_bind (h.setRow _ (hautojoin x) (honline x)) fun _ => ?_
    dsimp only
    split
    · exact keeps_bind (keeps_raiseIf _) fun _ => h.save save
    · exact keeps_bind (h.updateRemoteProfile _) fun _ => h.save save

/-- the sync, -/
theorem updateSync (h : Admits S c F) (sync : Option Bool) (save : Bool) :
    Keeps F (updateSync c sync save) := by
  refine keeps_bind keeps_get fun w => ?_
  cases sync with
  | none => exact keeps_pure ()
  | some b =>
    exact keeps_ite (keeps_pure ()) <|
      keeps_bind (h.setRow _ (fun _ => rfl) fun _ => rfl) fun _ =>
      keeps_bind (keeps_when (keeps_ite h.startSync h.stopSync)) fun _ => h.save save

/-- the joining, -/
theorem updateAutojoin (h : Admits S c F) (autojoin : Option Bool) (save : Bool) :
    Keeps F (updateAutojoin c autojoin save) := by
  refine keeps_get_bind fun w => ?_
  cases autojoin with
  | none => exact F.refl w
  | some b =>
    dsimp only
    split
    · exact F.refl w
    · next hne =>
      have hstep := h.setAutojoin w b hne
      cases b with
      | true => exact F.trans hstep (h.save save _)
      | false => exact F.trans hstep (h.save save _)

/-- the presence -/
theorem updateOnline (h : Admits S c F) (online : Option Bool) (save : Bool) :
    Keeps F (updateOnline c online save) := by
  refine keeps_get_bind fun w => ?_
  cases online with
  | none => exact F.refl w
  | some b =>
    dsimp only
    split
    · exact F.refl w
    · exact F.trans (h.setOnline w b) (h.save save _)

/-- and a cleared cache. -/
theorem clearCache (h : Admits S c F) : Keeps F (clearCache c) :=
  keeps_bind h.stopSync fun _ => keeps_bind (h.setRow _ (fun _ => rfl) fun _ => rfl) fun _ =>
    keeps_bind h.update fun _ => h.startSync

/-- The switch of the Matrix client is a step of its own. -/
theorem updateAccessDetails (accessToken homeserver deviceId : Option String) (env : AccessEnv)
    (hmake : ∀ w : World L, F.rel w
      ((makeClient c homeserver accessToken
        (some (deviceId.getD (w.clients.get c).row.deviceId)) : Action L Ref).exec w).2)
    (hswitch : ∀ w : World L, F.rel w ((do
      let m ← makeClient c homeserver accessToken
        (some (deviceId.getD (w.clients.get c).row.deviceId))
      switchAccess S c m accessToken homeserver (deviceId.getD (w.clients.get c).row.deviceId)
        env.crypto : Action L Unit).exec w).2) :
    Keeps F (updateAccessDetails S c accessToken homeserver deviceId env) := by
  refine keeps_get_bind fun w => ?_
  dsimp only
  split
  · exact F.refl w
  split
  · exact F.refl w
  · rw [exec_bind]
    have hm := hmake w
    have hs := hswitch w
    rw [exec_bind] at hs
    rcases hr : (makeClient c homeserver accessToken
      (some (deviceId.getD (w.clients.get c).row.deviceId)) : Action L Ref).exec w with
      ⟨e | m, w'⟩ <;>
      rw [hr] at hm hs
    · exact hm
    · dsimp only
      rw [exec_bind, exec_outcome]
      -- the new Matrix client is thrown away where the homeserver refuses or names somebody else
      cases env.whoami with
      | error e => exact hm
      | ok me =>
        dsimp only
        split
        · exact hm
        split
        · exact hm
        · exact hs

end Admits

end Client

end Maubot
