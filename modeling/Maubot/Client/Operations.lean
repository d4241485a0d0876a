import Maubot.Instance.Basic

namespace Maubot

open Prog

/-!
# Clients — start, stop and updates

The methods of `client.py` that change a client that is set up.  What the homeserver and
the crypto store answer is data of the call: `CryptoEnv`, `ClientStartEnv`, `AccessEnv`.
A new start attempt runs in a background task; the client only notes that it waits
(`retries`).
-/

variable {L : Type} (S : Setup L)

/-! ### What a call meets -/

/-- The answer to `whoami()`. -/
structure Whoami where
  userId   : String
  deviceId : Option String := none
  deriving DecidableEq, Repr

/-- What `_start_crypto` meets. -/
structure CryptoEnv where
  openStore    : Option PyExc := none
  getDeviceId  : Except PyExc (Option String) := .ok none
  deleteStore  : Option PyExc := none
  load         : Option PyExc := none
  putDeviceId  : Option PyExc := none
  /-- `crypto.account.shared` -/
  shared       : Bool := true
  shareKeys    : Option PyExc := none
  resolveTrust : Except PyExc String := .ok ""

abbrev ProfileAnswer := Except PyExc (Option String × Option String)

/-- What `_start` meets. -/
structure ClientStartEnv where
  versions       : Option PyExc := none
  whoami         : Except PyExc Whoami
  createFilter   : Except PyExc String := .ok ""
  setDisplayname : Option PyExc := none
  setAvatarUrl   : Option PyExc := none
  crypto         : CryptoEnv := {}
  profile        : ProfileAnswer := .ok (none, none)
  plugins        : Ref → StartEnv := fun _ => {}

/-- What `update_access_details` meets. -/
structure AccessEnv where
  whoami : Except PyExc Whoami
  crypto : CryptoEnv := {}

/-- `_start_crypto` for a device: the trust state, or what it raises.  It touches only the
    crypto store and the homeserver. -/
def CryptoEnv.run (env : CryptoEnv) (deviceId : String) : Except PyExc String := do
  let check (x : Option PyExc) : Except PyExc Unit :=
    match x with
    | none   => pure ()
    | some e => throw e
  check env.openStore
  let stored ← env.getDeviceId
  let mismatch := truthy stored && stored != some deviceId
  if mismatch then check env.deleteStore
  check env.load
  if mismatch || !truthy stored then check env.putDeviceId
  if !env.shared then check env.shareKeys
  env.resolveTrust

namespace Client

/-! ### Sync -/

def startSync (c : Ref) : Action L Unit := do
  let w ← world
  let cl := w.clients.get c
  when cl.row.sync (setMatrixClient cl.client fun mc => { mc with syncing := some cl.row.filterId })

def stopSync (c : Ref) : Action L Unit := do
  let w ← world
  setMatrixClient (w.clients.get c).client fun mc => { mc with syncing := none }

/-! ### Start -/

def startPlugins (c : Ref) (env : Ref → StartEnv) : Action L Unit := do
  let w ← world
  gather ((w.clients.get c).references.elems.map fun i => PluginInstance.start S i (env i))

/-- `_update_remote_profile`, which logs its exceptions. -/
def updateRemoteProfile (c : Ref) (profile : ProfileAnswer) : Action L Unit := do
  match ← attempt PyExc.isException (outcome profile) with
  | .ok p    => setClient c fun cl => { cl with remoteDisplayname := p.1, remoteAvatarUrl := p.2 }
  | .error _ => pure ()

def startCrypto (c : Ref) (env : CryptoEnv) : Action L Unit := do
  let w ← world
  let trust ← outcome (env.run (w.clients.get c).row.deviceId)
  setClient c fun cl => { cl with trustState := some trust }

/-- `self.enabled = False; await self.update()` -/
def disable (c : Ref) : Action L Unit := do
  setClientRow c fun row => { row with enabled := false }
  update c

/-- `_start` after the first requests have failed. -/
def startFailed (c : Ref) (tryN : Nat) (e : PyExc) : Action L Unit :=
  if e.cls = .matrixInvalidToken then disable c
  else if 8 ≤ tryN then disable c
  else setClient c fun cl => { cl with retries := cl.retries ++ [tryN + 1] }

def createFilter (c : Ref) (filter : Except PyExc String) : Action L Unit := do
  let w ← world
  when ((w.clients.get c).row.filterId = "") do
    let f ← outcome filter
    setClientRow c fun row => { row with filterId := f }
    update c

/-- `_start` once the homeserver has confirmed who the client is. -/
def bringUp (c : Ref) (env : ClientStartEnv) : Action L Unit := do
  createFilter c env.createFilter
  let w ← world
  when ((w.clients.get c).row.displayname ≠ "disable") (raiseIf env.setDisplayname)
  when ((w.clients.get c).row.avatarUrl ≠ "disable") (raiseIf env.setAvatarUrl)
  when (w.clients.get c).crypto.isSome (startCrypto c env.crypto)
  startSync c
  updateRemoteProfile c env.profile
  setClient c fun cl => { cl with started := true }
  startPlugins S c env.plugins

/-- The device of an access token is not the one it should be. -/
def otherDevice (me : Whoami) (deviceId : String) : Bool :=
  truthy me.deviceId && deviceId != "" && me.deviceId != some deviceId

/-- `_start` -/
def tryStart (c : Ref) (tryN : Nat) (env : ClientStartEnv) : Action L Unit := do
  let w ← world
  let cl := w.clients.get c
  if !cl.row.enabled then pure ()
  else if cl.started then pure ()
  else
    let answer ← attempt PyExc.isException do
      raiseIf env.versions
      outcome env.whoami
    match answer with
    | .error e => startFailed c tryN e
    | .ok me   =>
      if me.userId ≠ cl.id then disable c
      else if otherDevice me cl.row.deviceId then disable c
      else bringUp S c env

def start (c : Ref) (tryN : Nat) (env : ClientStartEnv) : Action L Unit := do
  let _ ← attempt PyExc.isException (tryStart S c tryN env)
  pure ()

/-! ### Stop -/

def stopPlugins (c : Ref) (env : Ref → StopEnv) : Action L Unit := do
  let w ← world
  let running := (w.clients.get c).references.elems.filter fun i => (w.instances.get i).started
  gather (running.map fun i => PluginInstance.stop i (env i))

/-- Closing the crypto store does nothing. -/
def stop (c : Ref) (env : Ref → StopEnv) : Action L Unit := do
  let w ← world
  when (w.clients.get c).started do
    setClient c fun cl => { cl with started := false }
    stopPlugins c env
    stopSync c

/-! ### Updates

Each takes the value that a request names, if it names one, and whether to write the row. -/

def updateStarted (c : Ref) (started : Option Bool) (stopEnv : Ref → StopEnv)
    (startEnv : ClientStartEnv) : Action L Unit := do
  let w ← world
  match started with
  | none   => pure ()
  | some b =>
    if b = (w.clients.get c).started then pure ()
    else if b then start S c 0 startEnv
    else stop c stopEnv

def updateEnabled (c : Ref) (enabled : Option Bool) (save : Bool) : Action L Unit := do
  let w ← world
  match enabled with
  | none   => pure ()
  | some b =>
    if b = (w.clients.get c).row.enabled then pure ()
    else do
      setClientRow c fun row => { row with enabled := b }
      when save (update c)

/-- A field of the public profile: how to read and to write it. -/
structure ProfileField where
  value : ClientRow → String
  set   : String → ClientRow → ClientRow

/-- `update_displayname` and `update_avatar_url`. -/
def updateProfile (field : ProfileField) (c : Ref) (value : Option String)
    (refused : Option PyExc) (profile : ProfileAnswer) (save : Bool) : Action L Unit := do
  let w ← world
  match value with
  | none   => pure ()
  | some x =>
    if x = field.value (w.clients.get c).row then pure ()
    else do
      setClientRow c (field.set x)
      if x ≠ "disable" then raiseIf refused else updateRemoteProfile c profile
      when save (update c)

def displayname : ProfileField where
  value := ClientRow.displayname
  set x row := { row with displayname := x }

def avatarUrl : ProfileField where
  value := ClientRow.avatarUrl
  set x row := { row with avatarUrl := x }

def updateDisplayname (c : Ref) (value : Option String) (setDisplayname : Option PyExc)
    (profile : ProfileAnswer) (save : Bool) : Action L Unit :=
  updateProfile displayname c value setDisplayname profile save

def updateAvatarUrl (c : Ref) (value : Option String) (setAvatarUrl : Option PyExc)
    (profile : ProfileAnswer) (save : Bool) : Action L Unit :=
  updateProfile avatarUrl c value setAvatarUrl profile save

def updateSync (c : Ref) (sync : Option Bool) (save : Bool) : Action L Unit := do
  let w ← world
  match sync with
  | none   => pure ()
  | some b =>
    if (w.clients.get c).row.sync = b then pure ()
    else do
      setClientRow c fun row => { row with sync := b }
      when (w.clients.get c).started (if b then startSync c else stopSync c)
      when save (update c)

def updateAutojoin (c : Ref) (autojoin : Option Bool) (save : Bool) : Action L Unit := do
  let w ← world
  match autojoin with
  | none   => pure ()
  | some b =>
    if b = (w.clients.get c).row.autojoin then pure ()
    else do
      if b then addEventHandler (w.clients.get c).client "ROOM_MEMBER" (.handleInvite c)
      else removeEventHandler (w.clients.get c).client "ROOM_MEMBER" (.handleInvite c)
      setClientRow c fun row => { row with autojoin := b }
      when save (update c)

def updateOnline (c : Ref) (online : Option Bool) (save : Bool) : Action L Unit := do
  let w ← world
  match online with
  | none   => pure ()
  | some b =>
    if b = (w.clients.get c).row.online then pure ()
    else do
      setMatrixClient (w.clients.get c).client fun mc => { mc with presence := b }
      setClientRow c fun row => { row with online := b }
      when save (update c)

/-! ### Access details -/

/-- `update_access_details` once the new Matrix client `m` has proved to be the user's. -/
def switchAccess (c m : Ref) (accessToken homeserver : Option String) (deviceId : String)
    (crypto : CryptoEnv) : Action L Unit := do
  stopSync c
  removeCryptoEventHandlers c
  let w ← world
  let old := (w.clients.get c).client
  setMatrixClient old fun mc => { mc with crypto := none }
  setMatrixClient m fun mc =>
    { mc with eventHandlers := (w.matrixClients.get old).eventHandlers }
  setClient c fun cl => { cl with client := m }
  setClientRow c fun row => { row with homeserver, accessToken, deviceId }
  let w ← world
  if enableCrypto S (w.clients.get c) then do
    prepareCrypto c
    startCrypto c crypto
  else
    setClient c fun cl => { cl with crypto := none }
  startSync c

def updateAccessDetails (c : Ref) (accessToken homeserver deviceId : Option String)
    (env : AccessEnv) : Action L Unit := do
  let w ← world
  let cl := w.clients.get c
  if !truthy accessToken && !truthy homeserver then pure ()
  else
    let deviceId := deviceId.getD cl.row.deviceId
    if accessToken = cl.row.accessToken ∧ homeserver = cl.row.homeserver ∧
        deviceId = cl.row.deviceId then pure ()
    else do
      let m ← makeClient c homeserver accessToken (some deviceId)
      let me ← outcome env.whoami
      if me.userId ≠ cl.id then throw { cls := .valueError, msg := "MXID mismatch: " ++ me.userId }
      else if otherDevice me deviceId then
        throw { cls := .valueError, msg := "Device ID mismatch: " ++ me.deviceId.getD "" }
      else switchAccess S c m accessToken homeserver deviceId env.crypto

/-! ### Cache and deletion -/

def clearCache (c : Ref) : Action L Unit := do
  stopSync c
  setClientRow c fun row => { row with filterId := "", nextBatch := "" }
  update c
  startSync c

/-- `DELETE FROM client WHERE id=$1`, which the database may refuse. -/
def deleteRow (c : Ref) (refused : Option PyExc) : Action L Unit := do
  raiseIf refused
  modify fun w =>
    { w with clientRows := Function.update w.clientRows (w.clients.get c).id none }

def delete (c : Ref) (refused : Option PyExc) : Action L Unit := do
  modify fun w =>
    { w with clientCache := Function.update w.clientCache (w.clients.get c).id none }
  deleteRow c refused

end Client

end Maubot
