import Maubot.World

namespace Maubot

open Prog

/-!
# Clients — rows, setup and lookup

The table `client` (`db/client.py`) and the part of `client.py` that makes a client
usable: `_make_client`, `_prepare_crypto`, `postinit` and `get`.
-/

variable {L : Type} (S : Setup L)

/-- Python's truth value of a string that may be `None`. -/
def truthy (s : Option String) : Bool :=
  match s with
  | none   => false
  | some t => t != ""

/-- Python's `a or b`. -/
def pyOr (a b : Option String) : Option String := if truthy a then a else b

/-! ### The table -/

namespace ClientRow

/-- The `NOT NULL` constraints on the columns that the objects may hold `None` for. -/
def notNull (r : ClientRow) : Bool := r.homeserver.isSome && r.accessToken.isSome

end ClientRow

namespace Client

def insertRow (id : String) (row : ClientRow) : Action L Unit := do
  let w ← world
  if (w.clientRows id).isSome || !row.notNull then
    throw { cls := .integrityError }
  else
    modify fun w => { w with clientRows := Function.update w.clientRows id (some row) }

/-- `update` of the row, which stays as it is if a constraint fails. -/
def update (c : Ref) : Action L Unit := do
  let w ← world
  let cl := w.clients.get c
  if (w.clientRows cl.id).isNone then pure ()
  else if cl.row.notNull then
    modify fun w => { w with clientRows := Function.update w.clientRows cl.id (some cl.row) }
  else throw { cls := .integrityError }

/-! ### Setup -/

def makeClient (c : Ref) (homeserver token deviceId : Option String) : Action L Ref := do
  let w ← world
  let cl := w.clients.get c
  let m : MatrixClient :=
    { mxid := cl.id
      baseUrl := pyOr homeserver cl.row.homeserver
      token := pyOr token cl.row.accessToken
      deviceId := if truthy deviceId then deviceId.getD "" else cl.row.deviceId
      eventHandlers := w.eventHandlers.next }
  modify fun w =>
    { w with
      eventHandlers := w.eventHandlers.alloc []
      matrixClients := w.matrixClients.alloc m }
  pure w.matrixClients.next

def enableCrypto (cl : Client) : Bool := cl.row.deviceId != "" && S.cryptoDb

/-- The handlers that an `OlmMachine` adds to its client.  A machine goes by the name of
    the Matrix client it was made for. -/
def cryptoHandlers (machine : Ref) : List (EventType × Handler) :=
  [("DEVICE_OTK_COUNT", .crypto machine "handle_otk_count"),
    ("DEVICE_LISTS", .crypto machine "handle_device_lists"),
    ("TO_DEVICE_ENCRYPTED", .crypto machine "handle_to_device_event"),
    ("ROOM_KEY_REQUEST", .crypto machine "handle_room_key_request"),
    ("ROOM_MEMBER", .crypto machine "handle_member_event")]

def prepareCrypto (c : Ref) : Action L Unit := do
  let w ← world
  let m := (w.clients.get c).client
  (cryptoHandlers m).forM fun h => addEventHandler m h.1 h.2
  setClient c fun cl => { cl with crypto := some m }
  setMatrixClient m fun mc => { mc with crypto := some m }

def removeCryptoEventHandlers (c : Ref) : Action L Unit := do
  let w ← world
  match (w.clients.get c).crypto with
  | none         => pure ()
  | some machine => (cryptoHandlers machine).forM fun h =>
    removeEventHandler (w.clients.get c).client h.1 h.2

/-- `postinit` once the Matrix client `m` is made. -/
def setUp (c m : Ref) : Action L Unit := do
  let w ← world
  let cl := w.clients.get c
  when (enableCrypto S cl) (prepareCrypto c)
  setMatrixClient m fun mc =>
    { mc with ignoreInitialSync := true, ignoreFirstSync := true, presence := cl.row.online }
  when cl.row.autojoin (addEventHandler m "ROOM_MEMBER" (.handleInvite c))
  addEventMiddleware m "ROOM_TOMBSTONE" c
  addEventHandler m "SYNC_ERRORED" (.setSyncOk c false)
  addEventHandler m "SYNC_SUCCESSFUL" (.setSyncOk c true)

def postinit (c : Ref) : Action L Unit := do
  modify fun w =>
    { w with clientCache := Function.update w.clientCache (w.clients.get c).id (some c) }
  let m ← makeClient c none none none
  setClient c fun cl => { cl with client := m }
  setUp S c m

/-- A new object for a row, set up. -/
def fromRow (id : String) (row : ClientRow) : Action L Ref := do
  let w ← world
  modify fun w =>
    { w with clients := w.clients.alloc { id, row, client := w.matrixClients.next } }
  postinit S w.clients.next
  pure w.clients.next

/-- `get(user_id)`, with the arguments that make it create the client. -/
def get (userId : String) (homeserver accessToken deviceId : Option String) :
    Action L (Option Ref) := do
  let w ← world
  match w.clientCache userId with
  | some c => pure (some c)
  | none   =>
    match w.clientRows userId with
    | some row => do
      let c ← fromRow S userId row
      pure (some c)
    | none     =>
      if truthy homeserver && truthy accessToken then do
        let row : ClientRow :=
          { homeserver, accessToken, deviceId := deviceId.getD "", enabled := false }
        insertRow userId row
        let c ← fromRow S userId row
        pure (some c)
      else pure none

end Client

end Maubot
