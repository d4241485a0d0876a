import Mathlib.Data.Finset.Basic
import Maubot.Lib.Prog

namespace Maubot.Tombstone

open Prog

/-!
# Clients — following a tombstone

`_handle_tombstone` of `client.py`.  The bot joins the replacement room to see whether the
sender of the tombstone may invite users there, and leaves it again if not.

* `handleTombstone` — the handler, over the answers of the homeserver;
* `Confirmed` — what it has seen of the sender's power level;
* `follows_iff` — when the bot stays in no new room that is not confirmed.
-/

variable {ε PowerLevels Create : Type}

/-- The tombstone: a `StateEvent` with its content. -/
structure StateEvent where
  roomId          : String
  sender          : String
  stateKey        : String
  replacementRoom : String
  deriving DecidableEq, Repr

/-- How `join_room` ends.  When its answer is lost, the homeserver has let the bot in. -/
inductive JoinRoom (ε : Type)
  | joined (room : String)
  | failed (e : ε)
  | lost (room : String) (e : ε)

/-- What the calls to the homeserver and the state store return or raise, and what the power
    levels say. -/
structure Homeserver (ε PowerLevels Create : Type) where
  isJoined     : String → Except ε Bool
  parseUserId  : String → Except ε (String × String)
  joinRoom     : String → List String → JoinRoom ε
  powerLevels  : String → Except ε PowerLevels
  createEvent  : String → Except ε Create
  getUserLevel : PowerLevels → String → Create → Except ε Int
  invite       : PowerLevels → Int

/-- An answer of `get_state_event` -/
inductive StateAnswer (PowerLevels Create : Type)
  | powerLevels (room : String) (content : PowerLevels)
  | create (room : String) (event : Create)

/-- The rooms that the bot is in, and the answers that the handler has got. -/
structure Bot (PowerLevels Create : Type) where
  rooms   : Finset String
  answers : List (StateAnswer PowerLevels Create) := []

namespace Bot

def join (room : String) (s : Bot PowerLevels Create) : Bot PowerLevels Create :=
  { s with rooms := insert room s.rooms }

def leave (room : String) (s : Bot PowerLevels Create) : Bot PowerLevels Create :=
  { s with rooms := s.rooms.erase room }

def note (a : StateAnswer PowerLevels Create) (s : Bot PowerLevels Create) :
    Bot PowerLevels Create :=
  { s with answers := a :: s.answers }

variable (room : String) (a : StateAnswer PowerLevels Create) (s : Bot PowerLevels Create)

/-- A room that is joined is among the rooms. -/
@[simp] theorem join_rooms : (s.join room).rooms = insert room s.rooms := rfl
/-- No answer came by that. -/
@[simp] theorem join_answers : (s.join room).answers = s.answers := rfl
/-- A room that is left is not. -/
@[simp] theorem leave_rooms : (s.leave room).rooms = s.rooms.erase room := rfl
/-- No answer came by that either. -/
@[simp] theorem leave_answers : (s.leave room).answers = s.answers := rfl
/-- An answer that is noted joins nothing. -/
@[simp] theorem note_rooms : (s.note a).rooms = s.rooms := rfl
/-- It is the last one. -/
@[simp] theorem note_answers : (s.note a).answers = a :: s.answers := rfl

end Bot

abbrev Call (ε PowerLevels Create : Type) := Prog (Bot PowerLevels Create) ε

/-- `join_room` -/
def joinRoom (hs : Homeserver ε PowerLevels Create) (room : String) (servers : List String) :
    Call ε PowerLevels Create String :=
  match hs.joinRoom room servers with
  | .joined room => do
    modify (Bot.join room)
    pure room
  | .failed e    => throw e
  | .lost room e => do
    modify (Bot.join room)
    throw e

/-- `leave_room` -/
def leaveRoom (room : String) : Call ε PowerLevels Create Unit := modify (Bot.leave room)

/-- `get_state_event(room_id, ROOM_POWER_LEVELS)` -/
def getPowerLevels (hs : Homeserver ε PowerLevels Create) (room : String) :
    Call ε PowerLevels Create PowerLevels := do
  let content ← outcome (hs.powerLevels room)
  modify (Bot.note (.powerLevels room content))
  pure content

/-- `get_state_event(room_id, ROOM_CREATE, format="event")` -/
def getCreateEvent (hs : Homeserver ε PowerLevels Create) (room : String) :
    Call ε PowerLevels Create Create := do
  let event ← outcome (hs.createEvent room)
  modify (Bot.note (.create room event))
  pure event

/-- From `power_levels` on -/
def checkPermission (hs : Homeserver ε PowerLevels Create) (evt : StateEvent) (isJoined : Bool)
    (roomId : String) : Call ε PowerLevels Create Bool := do
  let powerLevels ← getPowerLevels hs roomId
  let createEvent ← getCreateEvent hs roomId
  let level ← outcome (hs.getUserLevel powerLevels evt.sender createEvent)
  let hasPermission := level ≥ hs.invite powerLevels
  if ¬ isJoined ∧ ¬ hasPermission then
    leaveRoom roomId
    pure false
  else if ¬ hasPermission then pure false
  else pure true

/-- `_handle_tombstone` -/
def handleTombstone (hs : Homeserver ε PowerLevels Create) (evt : StateEvent) :
    Call ε PowerLevels Create Bool :=
  if evt.stateKey ≠ "" then pure false
  else if evt.replacementRoom = "" then pure true
  else do
    let isJoined ← outcome (hs.isJoined evt.replacementRoom)
    if ¬ isJoined then
      let (_, server) ← outcome (hs.parseUserId evt.sender)
      let roomId ← joinRoom hs evt.replacementRoom [server]
      checkPermission hs evt isJoined roomId
    else checkPermission hs evt isJoined evt.replacementRoom

/-! ### Levels -/

/-- The level of the sender in a room, as the room's state says, is enough to invite. -/
structure Invites (hs : Homeserver ε PowerLevels Create) (sender : String) (content : PowerLevels)
    (event : Create) : Prop where
  level : ∃ level, hs.getUserLevel content sender event = .ok level ∧ hs.invite content ≤ level

/-- The handler has seen that the sender may invite users to the room. -/
def Confirmed (hs : Homeserver ε PowerLevels Create) (sender : String)
    (s : Bot PowerLevels Create) (room : String) : Prop :=
  ∃ content event, .powerLevels room content ∈ s.answers ∧ .create room event ∈ s.answers ∧
    Invites hs sender content event

/-- The homeserver answers all that the handler asks about the state of a room. -/
def Answered (hs : Homeserver ε PowerLevels Create) (sender room : String) : Prop :=
  ∃ content event level, hs.powerLevels room = .ok content ∧ hs.createEvent room = .ok event ∧
    hs.getUserLevel content sender event = .ok level

/-- The handler asks to join the replacement room. -/
structure Asks (hs : Homeserver ε PowerLevels Create) (evt : StateEvent) (server : String) :
    Prop where
  stateKey    : evt.stateKey = ""
  replacement : evt.replacementRoom ≠ ""
  notJoined   : hs.isJoined evt.replacementRoom = .ok false
  sender      : ∃ localpart, hs.parseUserId evt.sender = .ok (localpart, server)

/-- The bot is in no new room that is not confirmed, and an event with a replacement room is let
    through only if that is confirmed. -/
structure Follows (hs : Homeserver ε PowerLevels Create) (evt : StateEvent)
    (rooms : Finset String) : Prop where
  stays   : ∀ room ∈ ((handleTombstone hs evt).exec { rooms }).2.rooms, room ∉ rooms →
    Confirmed hs evt.sender ((handleTombstone hs evt).exec { rooms }).2 room
  returns : ((handleTombstone hs evt).exec { rooms }).1 = .ok true → evt.replacementRoom ≠ "" →
    ∃ room, (room = evt.replacementRoom ∨
        ∃ server, hs.joinRoom evt.replacementRoom [server] = .joined room) ∧
      Confirmed hs evt.sender ((handleTombstone hs evt).exec { rooms }).2 room

/-- The answers are those of the homeserver. -/
structure Honest (hs : Homeserver ε PowerLevels Create) (s : Bot PowerLevels Create) : Prop where
  powerLevels : ∀ room content, .powerLevels room content ∈ s.answers →
    hs.powerLevels room = .ok content
  create      : ∀ room event, .create room event ∈ s.answers → hs.createEvent room = .ok event

section Check

variable {hs : Homeserver ε PowerLevels Create} {evt : StateEvent} {s : Bot PowerLevels Create}
  {room : String}

/-- At first there are no answers. -/
theorem Honest.start (rooms : Finset String) : Honest hs { rooms } := ⟨nofun, nofun⟩

/-- A room may be joined, -/
theorem Honest.join (hhonest : Honest hs s) (room : String) : Honest hs (s.join room) :=
  ⟨hhonest.powerLevels, hhonest.create⟩

/-- and the power levels noted as the homeserver gives them, -/
theorem Honest.notePowerLevels (hhonest : Honest hs s) {content : PowerLevels}
    (h : hs.powerLevels room = .ok content) : Honest hs (s.note (.powerLevels room content)) where
  powerLevels r c hmem := by
    rcases List.mem_cons.mp hmem with heq | hmem
    · cases heq
      exact h
    · exact hhonest.powerLevels r c hmem
  create r e hmem := by
    rcases List.mem_cons.mp hmem with heq | hmem
    · cases heq
    · exact hhonest.create r e hmem

/-- and so the creation. -/
theorem Honest.noteCreate (hhonest : Honest hs s) {event : Create}
    (h : hs.createEvent room = .ok event) : Honest hs (s.note (.create room event)) where
  powerLevels r c hmem := by
    rcases List.mem_cons.mp hmem with heq | hmem
    · cases heq
    · exact hhonest.powerLevels r c hmem
  create r e hmem := by
    rcases List.mem_cons.mp hmem with heq | hmem
    · cases heq
      exact h
    · exact hhonest.create r e hmem

/-- What is confirmed has been answered. -/
theorem answered_of_confirmed (hhonest : Honest hs s) (h : Confirmed hs evt.sender s room) :
    Answered hs evt.sender room := by
  obtain ⟨content, event, hcontent, hevent, level, hlevel, -⟩ := h
  exact ⟨content, event, level, hhonest.powerLevels room content hcontent,
    hhonest.create room event hevent, hlevel⟩

/-- With all its questions answered, the handler has confirmed the sender, or the bot leaves a
    room that it has joined. -/
theorem checkPermission_answered (isJoined : Bool) (h : Answered hs evt.sender room)
    (s : Bot PowerLevels Create) :
    (∃ s', (checkPermission hs evt isJoined room).exec s = (.ok true, s') ∧ s'.rooms = s.rooms ∧
      Confirmed hs evt.sender s' room) ∨
    ∃ s', (checkPermission hs evt isJoined room).exec s = (.ok false, s') ∧
      s'.rooms = if isJoined then s.rooms else s.rooms.erase room := by
  obtain ⟨content, event, level, hcontent, hevent, hlevel⟩ := h
  let s' := (s.note (.powerLevels room content)).note (.create room event)
  unfold checkPermission getPowerLevels getCreateEvent
  rw [hcontent, hevent]
  by_cases hp : hs.invite content ≤ level
  · left
    refine ⟨s', by simp [exec_bind, hlevel, not_lt.mpr hp, s'], rfl, content, event, ?_, ?_,
      level, hlevel, hp⟩
    · exact List.mem_cons_of_mem _ List.mem_cons_self
    · exact List.mem_cons_self
  · right
    have hlt := not_le.mp hp
    cases isJoined with
    | true => exact ⟨s', by simp [exec_bind, hlevel, hlt, s'], rfl⟩
    | false =>
      exact ⟨s'.leave room, by simp [exec_bind, exec_map, hlevel, hlt, leaveRoom, s'], rfl⟩

/-- Else it raises, and nobody leaves. -/
theorem checkPermission_unanswered (isJoined : Bool) (h : ¬ Answered hs evt.sender room)
    (hhonest : Honest hs s) :
    ∃ e s', (checkPermission hs evt isJoined room).exec s = (.error e, s') ∧
      s'.rooms = s.rooms ∧ Honest hs s' := by
  unfold checkPermission getPowerLevels getCreateEvent
  cases hpl : hs.powerLevels room with
  | error e => exact ⟨e, s, by simp [exec_bind], rfl, hhonest⟩
  | ok content =>
    have hhonest' := hhonest.notePowerLevels hpl
    cases hcr : hs.createEvent room with
    | error e => exact ⟨e, s.note (.powerLevels room content), by simp [exec_bind], rfl, hhonest'⟩
    | ok event =>
      let s' := (s.note (.powerLevels room content)).note (.create room event)
      cases hlv : hs.getUserLevel content evt.sender event with
      | error e =>
        exact ⟨e, s', by simp [exec_bind, hlv, s'], rfl, hhonest'.noteCreate hcr⟩
      | ok level => exact absurd ⟨content, event, level, hpl, hcr, hlv⟩ h

end Check

/-! ### The handler -/

section Handle

variable {hs : Homeserver ε PowerLevels Create} {evt : StateEvent} {s : Bot PowerLevels Create}
  {rooms : Finset String} {server room : String}

/-- A tombstone that asks for a room leads to a join and a check. -/
theorem handle_asks (h : Asks hs evt server) (s : Bot PowerLevels Create) :
    (handleTombstone hs evt).exec s =
      (joinRoom hs evt.replacementRoom [server] >>= checkPermission hs evt false).exec s := by
  obtain ⟨localpart, hsender⟩ := h.sender
  unfold handleTombstone
  rw [if_neg (not_not.mpr h.stateKey), if_neg h.replacement, h.notJoined, hsender]
  rfl

/-- Where the room is joined, it is checked, -/
theorem handle_joined (h : Asks hs evt server)
    (hjoin : hs.joinRoom evt.replacementRoom [server] = .joined room)
    (s : Bot PowerLevels Create) :
    (handleTombstone hs evt).exec s = (checkPermission hs evt false room).exec (s.join room) := by
  rw [handle_asks h, joinRoom, hjoin]
  rfl

/-- and where the answer is lost, the exception leaves it joined. -/
theorem handle_lost (h : Asks hs evt server) {e : ε}
    (hjoin : hs.joinRoom evt.replacementRoom [server] = .lost room e)
    (s : Bot PowerLevels Create) :
    (handleTombstone hs evt).exec s = (.error e, s.join room) := by
  rw [handle_asks h, joinRoom, hjoin]
  rfl

/-- A handler that does not ask for a room gets into none, and lets an event through for a room
    that the bot was in. -/
theorem handle_quiet (hno : ∀ server, ¬ Asks hs evt server) (hhonest : Honest hs s) :
    ∃ r s', (handleTombstone hs evt).exec s = (r, s') ∧ s'.rooms = s.rooms ∧
      (r = .ok true → evt.replacementRoom ≠ "" →
        Confirmed hs evt.sender s' evt.replacementRoom) := by
  unfold handleTombstone
  by_cases hkey : evt.stateKey ≠ ""
  · rw [if_pos hkey]
    exact ⟨_, _, rfl, rfl, nofun⟩
  rw [if_neg hkey]
  by_cases hroom : evt.replacementRoom = ""
  · rw [if_pos hroom]
    exact ⟨_, _, rfl, rfl, fun _ hne => absurd hroom hne⟩
  rw [if_neg hroom]
  cases hjoined : hs.isJoined evt.replacementRoom with
  | error e => exact ⟨_, _, rfl, rfl, nofun⟩
  | ok isJoined =>
    cases isJoined with
    | true =>
      -- a bot that is in the room already only asks for the levels
      by_cases hanswered : Answered hs evt.sender evt.replacementRoom
      · rcases checkPermission_answered true hanswered s with
          ⟨s', hexec, hrooms, hconf⟩ | ⟨s', hexec, hrooms⟩
        · exact ⟨_, s', hexec, hrooms, fun _ _ => hconf⟩
        · exact ⟨_, s', hexec, hrooms, nofun⟩
      · obtain ⟨e, s', hexec, hrooms, -⟩ := checkPermission_unanswered true hanswered hhonest
        exact ⟨_, s', hexec, hrooms, nofun⟩
    | false =>
      cases hparse : hs.parseUserId evt.sender with
      | error e => exact ⟨.error e, s, by simp [exec_bind], rfl, nofun⟩
      | ok user =>
        exact absurd ⟨not_not.mp hkey, hroom, hjoined, user.1, hparse⟩ (hno user.2)

/-- The bot has joined the room, and all questions about it are answered. -/
theorem follows_of_answered (h : Asks hs evt server)
    (hjoin : hs.joinRoom evt.replacementRoom [server] = .joined room)
    (hanswered : Answered hs evt.sender room) : Follows hs evt rooms := by
  rcases checkPermission_answered false hanswered (Bot.join room { rooms }) with
    ⟨s', hexec, hrooms, hconf⟩ | ⟨s', hexec, hrooms⟩ <;> rw [← handle_joined h hjoin] at hexec
  · refine ⟨fun r hr hnew => ?_, fun _ _ => ?_⟩ <;> rw [hexec]
    · rw [hexec, hrooms, Bot.join_rooms] at hr
      obtain rfl := (Finset.mem_insert.mp hr).resolve_right hnew
      exact hconf
    · exact ⟨room, .inr ⟨server, hjoin⟩, hconf⟩
  · refine ⟨fun r hr hnew => ?_, fun htrue => ?_⟩
    · rw [hexec, hrooms] at hr
      simp only [Bool.false_eq_true, if_false, Bot.join_rooms, Finset.mem_erase,
        Finset.mem_insert] at hr
      exact absurd hr.2 (not_or.mpr ⟨hr.1, hnew⟩)
    · rw [hexec] at htrue
      cases htrue

/-- Where something is not answered, the bot stays in the room that it has joined. -/
theorem follows_unanswered_iff (h : Asks hs evt server)
    (hjoin : hs.joinRoom evt.replacementRoom [server] = .joined room)
    (hno : ¬ Answered hs evt.sender room) : Follows hs evt rooms ↔ room ∈ rooms := by
  have hhonest := (Honest.start rooms : Honest hs { rooms }).join room
  obtain ⟨e, s', hexec, hrooms, hhonest'⟩ :=
    checkPermission_unanswered false hno hhonest
  rw [← handle_joined h hjoin] at hexec
  rw [Bot.join_rooms] at hrooms
  constructor
  · intro hf
    by_contra hnew
    have hconf := hf.stays room
    rw [hexec, hrooms] at hconf
    exact hno (answered_of_confirmed hhonest' (hconf (Finset.mem_insert_self room rooms) hnew))
  · intro hmem
    refine ⟨fun r hr hnew => ?_, fun htrue => ?_⟩
    · rw [hexec, hrooms, Finset.insert_eq_self.mpr hmem] at hr
      exact absurd hr hnew
    · rw [hexec] at htrue
      cases htrue

/-- A join whose answer is lost is not undone. -/
theorem follows_lost_iff (h : Asks hs evt server) {e : ε}
    (hjoin : hs.joinRoom evt.replacementRoom [server] = .lost room e) :
    Follows hs evt rooms ↔ room ∈ rooms := by
  have hexec := handle_lost h hjoin { rooms }
  constructor
  · intro hf
    by_contra hnew
    have hconf := hf.stays room
    rw [hexec] at hconf
    obtain ⟨_, _, hcontent, -⟩ := hconf (Finset.mem_insert_self room rooms) hnew
    cases hcontent
  · intro hmem
    refine ⟨fun r hr hnew => ?_, fun htrue => ?_⟩
    · rw [hexec, Bot.join_rooms, Finset.insert_eq_self.mpr hmem] at hr
      exact absurd hr hnew
    · rw [hexec] at htrue
      cases htrue

/-- A handler that gets into no room. -/
theorem follows_of_quiet (hno : ∀ server, ¬ Asks hs evt server) : Follows hs evt rooms := by
  obtain ⟨r, s', hexec, hrooms, hreturns⟩ := handle_quiet hno (Honest.start rooms)
  refine ⟨fun room hr hnew => ?_, fun htrue hne => ?_⟩
  · rw [hexec, hrooms] at hr
    exact absurd hr hnew
  · rw [hexec] at htrue ⊢
    exact ⟨evt.replacementRoom, .inl rfl, hreturns htrue hne⟩

/-- A join that fails follows nothing. -/
theorem follows_failed (h : Asks hs evt server) {e : ε}
    (hjoin : hs.joinRoom evt.replacementRoom [server] = .failed e) : Follows hs evt rooms := by
  have hexec : (handleTombstone hs evt).exec { rooms } = (.error e, { rooms }) := by
    rw [handle_asks h, joinRoom, hjoin]
    rfl
  refine ⟨fun room hr hnew => ?_, fun htrue => ?_⟩
  · rw [hexec] at hr
    exact absurd hr hnew
  · rw [hexec] at htrue
    cases htrue

/-- **Following a tombstone.**  The bot stays in no new room that is not confirmed exactly if,
    where it gets into a new room, the join returns and the room's state is answered. -/
theorem follows_iff (hs : Homeserver ε PowerLevels Create) (evt : StateEvent)
    (rooms : Finset String) :
    Follows hs evt rooms ↔ ∀ server, Asks hs evt server → ∀ room, room ∉ rooms →
      (hs.joinRoom evt.replacementRoom [server] = .joined room →
        Answered hs evt.sender room) ∧
      ∀ e, hs.joinRoom evt.replacementRoom [server] ≠ .lost room e := by
  constructor
  · intro hf server h room hnew
    refine ⟨fun hjoin => ?_, fun e hjoin => ?_⟩
    · by_contra hno
      exact hnew ((follows_unanswered_iff h hjoin hno).mp hf)
    · exact hnew ((follows_lost_iff h hjoin).mp hf)
  · intro hall
    by_cases hasks : ∃ server, Asks hs evt server
    · obtain ⟨server, h⟩ := hasks
      cases hjoin : hs.joinRoom evt.replacementRoom [server] with
      | failed e => exact follows_failed h hjoin
      | lost room e =>
        by_cases hmem : room ∈ rooms
        · exact (follows_lost_iff h hjoin).mpr hmem
        · exact absurd hjoin ((hall server h room hmem).2 e)
      | joined room =>
        by_cases hanswered : Answered hs evt.sender room
        · exact follows_of_answered h hjoin hanswered
        · refine (follows_unanswered_iff h hjoin hanswered).mpr ?_
          by_contra hmem
          exact hanswered ((hall server h room hmem).1 hjoin)
    · exact follows_of_quiet (not_exists.mp hasks)

end Handle

/-! ### A room without power levels -/

namespace TombstoneTest

/-- A homeserver whose room `!new` has no power levels. -/
def homeserver : Homeserver String Unit Unit where
  isJoined _          := .ok false
  parseUserId _       := .ok ("user", "example.com")
  joinRoom room _     := .joined room
  powerLevels _       := .error "MNotFound"
  createEvent _       := .ok ()
  getUserLevel _ _ _  := .ok 0
  invite _            := 50

def tombstone : StateEvent := ⟨"!old", "@user:example.com", "", "!new"⟩

end TombstoneTest

open TombstoneTest in
/-- The bot stays there. -/
theorem not_follows_unknown :
    "!new" ∈ ((handleTombstone homeserver tombstone).exec { rooms := {"!old"} }).2.rooms ∧
    ¬ Follows homeserver tombstone {"!old"} := by
  refine ⟨by decide, fun hf => ?_⟩
  obtain ⟨_, _, hcontent, -⟩ := hf.stays "!new" (by decide) (by decide)
  cases hcontent

end Maubot.Tombstone
