import Maubot.Lib.Runs
import Maubot.Management.Auth
import Mathlib.Logic.Function.Basic

namespace Maubot.Management

/-!
# Management API — the log websockets

`LogCollector` keeps the last records and schedules one `send` task for each record, which
goes through the listening sockets; `log_websocket` lets a socket listen once it has sent a
valid token.  The auth middleware does not guard this endpoint.

* `step` — a record is emitted, a handler or a `send` task goes on, a socket is closed;
* `Guarded` — nothing of the log is written to a socket before a valid token came from it;
* `guarded_and_removed` — so it is in every run, and a handler that returned left no trace.
-/

/-- What passes over one websocket. -/
inductive Traffic (ρ : Type)
  /-- a text message from the client -/
  | text (data : Text)
  /-- `{"auth_success": …}` -/
  | authSuccess (success : Bool)
  /-- `{"history": …}`; not in the source: how many records had been emitted by then -/
  | history (lines : List ρ) (emitted : Nat)
  | record (r : ρ)
  deriving DecidableEq, Repr

/-- Whether the message tells something of the log. -/
def Traffic.isLog {ρ : Type} : Traffic ρ → Bool
  | .history _ _ | .record _ => true
  | _ => false

namespace LogServer

/-- Where a `log_websocket` is. -/
inductive Phase
  /-- no request yet -/
  | idle
  /-- `ws.prepare(request)` -/
  | preparing
  /-- `async for msg in ws` -/
  | receiving
  /-- `ws.send_json` of the two answers to a valid token, and of the one to another -/
  | sendingSuccess
  | sendingHistory
  | sendingFailure
  /-- `ws.close()` after an exception -/
  | closing
  | returned
  /-- an exception left the handler before it knew the socket, or a cancellation later -/
  | refused
  | cancelled
  deriving DecidableEq, Repr

/-- One connection: its handler, its socket, and what passed over it. -/
structure Conn (ρ : Type) where
  phase         : Phase := .idle
  authenticated : Bool := false
  /-- a send on the socket does not raise -/
  connected     : Bool := false
  traffic       : List (Traffic ρ) := []
  deriving DecidableEq, Repr

/-- A task `LogCollector.send(record)`: how far the list iterator is. -/
structure Send where
  pos  : Nat := 0
  ended : Bool := false
  deriving DecidableEq, Repr

/-- How a handler goes on. -/
inductive Input
  /-- what it awaits is done, raises, or the task is cancelled -/
  | ok
  | raised
  | cancelled
  /-- what `async for` gets: a text message, another one, or the end -/
  | text (data : Text)
  | other
  | closed
  deriving DecidableEq, Repr

inductive Event (ρ : Type)
  | emit (r : ρ)
  /-- a request for `/logs` -/
  | connect (k : Nat)
  | resume (k : Nat) (input : Input)
  /-- the connection is lost, or closed by `stop_all` -/
  | disconnect (k : Nat)
  /-- the five seconds of `close_if_not_authenticated` are over -/
  | timeout (k : Nat)
  /-- the task that sends record `n` goes on -/
  | send (n : Nat)
  deriving DecidableEq, Repr

/-- What the model takes from outside. -/
structure Setup (ρ : Type) where
  auth  : AuthConfig
  /-- whether the handler's own `log.debug` reaches the collector -/
  debug : Bool
  note  : Nat → String → ρ

def maxLines : Nat := 2048

end LogServer

open LogServer

structure LogServer (ρ : Type) where
  lines     : List ρ := []
  listeners : List Nat := []
  sockets   : List Nat := []
  conns     : Nat → Conn ρ := fun _ => {}
  /-- not in the source: all records, in the order in which they were emitted -/
  emitted   : List ρ := []
  /-- the task of each -/
  sends     : Nat → Send := fun _ => {}

namespace LogServer

variable {ρ : Type}

def setConn (w : LogServer ρ) (k : Nat) (c : Conn ρ) : LogServer ρ :=
  { w with conns := Function.update w.conns k c }

def setPhase (w : LogServer ρ) (k : Nat) (p : Phase) : LogServer ρ :=
  w.setConn k { w.conns k with phase := p }

/-- What is written to a socket or read from it. -/
def pass (w : LogServer ρ) (k : Nat) (m : Traffic ρ) : LogServer ρ :=
  w.setConn k { w.conns k with traffic := (w.conns k).traffic ++ [m] }

/-- `lines.append(content)` of a `deque(maxlen=MAX_LINES)` -/
def append (lines : List ρ) (r : ρ) : List ρ :=
  if lines.length < maxLines then lines ++ [r] else lines.drop 1 ++ [r]

/-- `_emit`: the task that sends the record is scheduled, and the record is kept. -/
def emit (w : LogServer ρ) (r : ρ) : LogServer ρ :=
  { w with
    lines   := append w.lines r
    emitted := w.emitted ++ [r]
    sends   := Function.update w.sends w.emitted.length {} }

def debug (cfg : Setup ρ) (w : LogServer ρ) (k : Nat) (msg : String) : LogServer ρ :=
  if cfg.debug then w.emit (cfg.note k msg) else w

/-- `ws.close()` -/
def close (w : LogServer ρ) (k : Nat) : LogServer ρ :=
  w.setConn k { w.conns k with connected := false }

/-- A cancelled handler takes its connection with it. -/
def cancel (w : LogServer ρ) (k : Nat) : LogServer ρ := (w.close k).setPhase k .cancelled

/-- The `except` clause of the handler. -/
def raise (w : LogServer ρ) (k : Nat) : LogServer ρ := (w.close k).setPhase k .closing

/-- `await ws.send_json(m)`, where the handler then is in phase `p`. -/
def sendJson (w : LogServer ρ) (k : Nat) (m : Traffic ρ) (p : Phase) : LogServer ρ :=
  if (w.conns k).connected then (w.pass k m).setPhase k p else w.raise k

/-- The start of the handler, once its new socket is prepared. -/
def enter (cfg : Setup ρ) (w : LogServer ρ) (k : Nat) : LogServer ρ :=
  let w := { w with sockets := w.sockets ++ [k] }.debug cfg k "opened"
  w.setConn k { phase := .receiving, authenticated := false, connected := true }

/-- The end of the handler, after the `try` statement. -/
def finish (cfg : Setup ρ) (w : LogServer ρ) (k : Nat) : LogServer ρ :=
  let w := if (w.conns k).authenticated then { w with listeners := w.listeners.erase k } else w
  let w := w.debug cfg k "closed"
  { w with sockets := w.sockets.erase k }.setPhase k .returned

def onText (cfg : Setup ρ) (w : LogServer ρ) (k : Nat) (data : Text) : LogServer ρ :=
  let w := w.pass k (.text data)
  if isValidToken cfg.auth data then w.sendJson k (.authSuccess true) .sendingSuccess
  else if (w.conns k).authenticated = false then
    w.sendJson k (.authSuccess false) .sendingFailure
  else w

/-- What follows the history. -/
def register (cfg : Setup ρ) (w : LogServer ρ) (k : Nat) : LogServer ρ :=
  if (w.conns k).authenticated then w.setPhase k .receiving
  else
    let w := w.debug cfg k "authenticated"
    { w with listeners := w.listeners ++ [k] }.setConn k
      { w.conns k with authenticated := true, phase := .receiving }

def resume (cfg : Setup ρ) (w : LogServer ρ) (k : Nat) (input : Input) : LogServer ρ :=
  match (w.conns k).phase, input with
  | .preparing, .ok        => w.enter cfg k
  | .preparing, .raised    => w.setPhase k .refused
  | .preparing, .cancelled => w.setPhase k .refused
  | .receiving, .text data => w.onText cfg k data
  | .receiving, .closed    => (w.close k).finish cfg k
  | .receiving, .raised    => w.raise k
  | .sendingSuccess, .ok   =>
    w.sendJson k (.history w.lines w.emitted.length) .sendingHistory
  | .sendingHistory, .ok   => w.register cfg k
  | .sendingFailure, .ok   => w.setPhase k .receiving
  | .sendingSuccess, .raised | .sendingHistory, .raised | .sendingFailure, .raised => w.raise k
  -- `except Exception` once more
  | .closing, .ok | .closing, .raised => w.finish cfg k
  | .receiving, .cancelled | .sendingSuccess, .cancelled | .sendingHistory, .cancelled
  | .sendingFailure, .cancelled | .closing, .cancelled => w.cancel k
  | _, _                   => w

/-- One turn of the loop of `send`.  The attributes of a record are serialisable: `send_json` raises
    for others, and no listener gets the record. -/
def sendNext (w : LogServer ρ) (n : Nat) (r : ρ) : LogServer ρ :=
  let t := w.sends n
  match w.listeners[t.pos]? with
  | none    => { w with sends := Function.update w.sends n { t with ended := true } }
  | some ws =>
    let w := { w with sends := Function.update w.sends n { t with pos := t.pos + 1 } }
    -- the exception of a send that raises is printed
    if (w.conns ws).connected then w.pass ws (.record r) else w

def step (cfg : Setup ρ) (e : Event ρ) (w : LogServer ρ) : LogServer ρ :=
  match e with
  | .emit r       => w.emit r
  | .connect k    => if (w.conns k).phase = .idle then w.setPhase k .preparing else w
  | .resume k i   => w.resume cfg k i
  | .disconnect k => w.close k
  | .timeout k    =>
    match (w.conns k).phase with
    | .idle | .preparing | .refused => w
    | _                             =>
      if (w.conns k).authenticated then w
      else (w.close k).debug cfg k "terminated due to no authentication"
  | .send n       =>
    match w.emitted[n]? with
    | none   => w
    | some r => if (w.sends n).ended then w else w.sendNext n r

/-! ### What a step changes -/

variable {cfg : Setup ρ} {w : LogServer ρ} {k j n : Nat}

/-- A connection that is set is that, -/
@[simp] theorem setConn_conns_self (w : LogServer ρ) (k : Nat) (c : Conn ρ) :
    (w.setConn k c).conns k = c := by
  simp [setConn]

/-- and the others are what they were. -/
theorem setConn_conns_ne (w : LogServer ρ) (c : Conn ρ) (h : j ≠ k) :
    (w.setConn k c).conns j = w.conns j := by
  simp [setConn, h]

/-- What the server logs itself changes no connection, -/
@[simp] theorem debug_conns (k : Nat) (msg : String) : (w.debug cfg k msg).conns = w.conns := by
  unfold debug
  split <;> rfl

/-- no listener -/
@[simp] theorem debug_listeners (k : Nat) (msg : String) :
    (w.debug cfg k msg).listeners = w.listeners := by
  unfold debug
  split <;> rfl

/-- and no socket. -/
@[simp] theorem debug_sockets (k : Nat) (msg : String) :
    (w.debug cfg k msg).sockets = w.sockets := by
  unfold debug
  split <;> rfl

/-! ### Tokens come first -/

/-- The client has sent a valid token. -/
def HasToken (cfg : Setup ρ) (traffic : List (Traffic ρ)) : Prop :=
  ∃ data, .text data ∈ traffic ∧ isValidToken cfg.auth data = true

/-- Whatever is told of the log comes after a valid token. -/
def Guarded (cfg : Setup ρ) (traffic : List (Traffic ρ)) : Prop :=
  ∀ before m after, traffic = before ++ m :: after → m.isLog = true → HasToken cfg before

/-- A token stays in the traffic. -/
theorem HasToken.append {l : List (Traffic ρ)} (h : HasToken cfg l) (l' : List (Traffic ρ)) :
    HasToken cfg (l ++ l') := by
  obtain ⟨data, hmem, hv⟩ := h
  exact ⟨data, List.mem_append_left l' hmem, hv⟩

/-- Where a message stands in a list to which one was added. -/
theorem concat_eq_append_cons {α : Type} {l before after : List α} {m m' : α}
    (h : l ++ [m'] = before ++ m :: after) :
    (after = [] ∧ before = l ∧ m = m') ∨ ∃ after', after = after' ++ [m'] ∧
      l = before ++ m :: after' := by
  rcases List.eq_nil_or_concat after with rfl | ⟨after', a, rfl⟩
  · obtain ⟨h₁, h₂⟩ := List.append_inj' h rfl
    exact .inl ⟨rfl, h₁.symm, (List.cons.inj h₂).1.symm⟩
  · rw [List.concat_eq_append, ← List.cons_append, ← List.append_assoc] at h
    obtain ⟨h₁, h₂⟩ := List.append_inj' h rfl
    rw [List.concat_eq_append]
    exact .inr ⟨after', by rw [(List.cons.inj h₂).1], h₁⟩

/-- A message may follow if it is no record or the token is there. -/
theorem guarded_append {l : List (Traffic ρ)} {m : Traffic ρ} (h : Guarded cfg l)
    (hm : m.isLog = true → HasToken cfg l) : Guarded cfg (l ++ [m]) := by
  intro before m' after he hlog
  rcases concat_eq_append_cons he with ⟨-, rfl, rfl⟩ | ⟨after', -, rfl⟩
  · exact hm hlog
  · exact h before m' after' rfl hlog

/-- Whether the handler has put its socket into `sockets`, and not taken it out. -/
def Phase.inSockets : Phase → Bool
  | .receiving | .sendingSuccess | .sendingHistory | .sendingFailure | .closing | .cancelled => true
  | .idle | .preparing | .returned | .refused => false

/-- Whether the handler is between a valid token and its registration. -/
def Phase.afterToken : Phase → Bool
  | .sendingSuccess | .sendingHistory => true
  | _ => false

/-- What holds of one connection: its socket is in each list as often as its handler has put
    it there, and all that was written to it is guarded. -/
structure ConnOk (cfg : Setup ρ) (c : Conn ρ) (listening known : Nat) : Prop where
  guarded       : Guarded cfg c.traffic
  token         : c.phase.afterToken = true ∨ c.authenticated = true → HasToken cfg c.traffic
  authenticated : c.authenticated = true → c.phase.inSockets = true ∨ c.phase = .returned
  listening     : listening = if c.authenticated = true ∧ c.phase ≠ .returned then 1 else 0
  known         : known = if c.phase.inSockets = true then 1 else 0

def Sound (cfg : Setup ρ) (w : LogServer ρ) : Prop :=
  ∀ k, ConnOk cfg (w.conns k) (w.listeners.count k) (w.sockets.count k)

/-- A new server is sound. -/
theorem sound_new : Sound cfg ({} : LogServer ρ) := by
  intro k
  refine ⟨?_, fun h => ?_, nofun, rfl, rfl⟩
  · intro before m after h
    simp at h
  · rcases h with h | h <;> cases h

/-- A step of one connection. -/
theorem Sound.of_conn {w' : LogServer ρ} (h : Sound cfg w) (k : Nat)
    (hk : ConnOk cfg (w'.conns k) (w'.listeners.count k) (w'.sockets.count k))
    (hconns : ∀ j, j ≠ k → w'.conns j = w.conns j)
    (hlisteners : ∀ j, j ≠ k → w'.listeners.count j = w.listeners.count j)
    (hsockets : ∀ j, j ≠ k → w'.sockets.count j = w.sockets.count j) : Sound cfg w' := by
  intro j
  by_cases hj : j = k
  · rw [hj]
    exact hk
  · rw [hconns j hj, hlisteners j hj, hsockets j hj]
    exact h j

/-- A step of one connection that leaves the lists alone. -/
theorem Sound.setConn (h : Sound cfg w) (k : Nat) {c : Conn ρ}
    (hk : ConnOk cfg c (w.listeners.count k) (w.sockets.count k)) :
    Sound cfg (w.setConn k c) := by
  refine h.of_conn k ?_ (fun j hj => setConn_conns_ne w c hj) (fun _ _ => rfl) (fun _ _ => rfl)
  rw [setConn_conns_self]
  exact hk

/-- A record that is logged is not sent at once. -/
theorem Sound.emit (h : Sound cfg w) (r : ρ) : Sound cfg (w.emit r) := h

/-- Neither is one of the server's own. -/
theorem Sound.debug (h : Sound cfg w) (k : Nat) (msg : String) :
    Sound cfg (w.debug cfg k msg) := by
  unfold LogServer.debug
  split
  · exact h.emit _
  · exact h

/-- A socket that closes sends nothing. -/
theorem Sound.close (h : Sound cfg w) (k : Nat) : Sound cfg (w.close k) :=
  h.setConn k { h k with }

/-- A phase that differs neither in the lists nor in what it promises. -/
theorem Sound.setPhase (h : Sound cfg w) (k : Nat) {p : Phase}
    (hs : p.inSockets = (w.conns k).phase.inSockets) (hr : (w.conns k).phase ≠ .returned)
    (hp : p ≠ .returned) (ht : p.afterToken = true → HasToken cfg (w.conns k).traffic) :
    Sound cfg (w.setPhase k p) := by
  obtain ⟨hguarded, htoken, hauth, hlistening, hknown⟩ := h k
  refine h.setConn k ⟨hguarded, fun hor => ?_, fun ha => ?_, ?_, ?_⟩
  · rcases hor with hor | hor
    · exact ht hor
    · exact htoken (.inr hor)
  · rcases hauth ha with hin | hin
    · exact .inl (hs.trans hin)
    · exact absurd hin hr
  · rw [hlistening]
    simp [hr, hp]
  · rw [hknown, ← hs]

/-- A record may pass where the token is. -/
theorem Sound.pass (h : Sound cfg w) (k : Nat) {m : Traffic ρ}
    (hm : m.isLog = true → HasToken cfg (w.conns k).traffic) : Sound cfg (w.pass k m) := by
  obtain ⟨hguarded, htoken, hauth, hlistening, hknown⟩ := h k
  exact h.setConn k ⟨guarded_append hguarded hm, fun hor => (htoken hor).append [m], hauth,
    hlistening, hknown⟩

/-- A handler closes its connection and goes to a phase that promises nothing. -/
theorem Sound.closeTo (h : Sound cfg w) (k : Nat) {p : Phase}
    (hs : (w.conns k).phase.inSockets = true) (hp : p.inSockets = true)
    (ht : p.afterToken = false) : Sound cfg ((w.close k).setPhase k p) := by
  have hconn : (w.close k).conns k = { w.conns k with connected := false } :=
    setConn_conns_self w k _
  refine (h.close k).setPhase k ?_ ?_ ?_ (fun hafter => by rw [ht] at hafter; cases hafter)
  · rw [hconn]
    exact hp.trans hs.symm
  · rw [hconn]
    intro he
    rw [show (w.conns k).phase = .returned from he] at hs
    cases hs
  · rintro rfl
    cases hp

/-- An exception of the handler closes the socket and removes it. -/
theorem Sound.raise (h : Sound cfg w) (k : Nat) (hs : (w.conns k).phase.inSockets = true) :
    Sound cfg (w.raise k) := h.closeTo k hs rfl rfl

/-- A cancellation does so too. -/
theorem Sound.cancel (h : Sound cfg w) (k : Nat) (hs : (w.conns k).phase.inSockets = true) :
    Sound cfg (w.cancel k) := h.closeTo k hs rfl rfl

/-- The handler sends what is no record, or after the token. -/
theorem Sound.sendJson (h : Sound cfg w) (k : Nat) {m : Traffic ρ} {p : Phase}
    (hs : (w.conns k).phase.inSockets = true) (hp : p.inSockets = true)
    (hm : m.isLog = true → HasToken cfg (w.conns k).traffic)
    (ht : p.afterToken = true → HasToken cfg (w.conns k).traffic) :
    Sound cfg (w.sendJson k m p) := by
  unfold LogServer.sendJson
  split
  · have hconn : (w.pass k m).conns k =
        { w.conns k with traffic := (w.conns k).traffic ++ [m] } := setConn_conns_self w k _
    refine (h.pass k hm).setPhase k ?_ ?_ ?_ ?_
    · rw [hconn]
      exact hp.trans hs.symm
    · rw [hconn]
      intro he
      rw [show (w.conns k).phase = .returned from he] at hs
      cases hs
    · rintro rfl
      cases hp
    · intro hafter
      rw [hconn]
      exact (ht hafter).append [m]
  · exact h.raise k hs

/-- A socket that is erased is gone, if it was there once. -/
theorem count_erase {l : List Nat} (h : l.count k ≤ 1) : (l.erase k).count k = 0 := by
  rw [List.count_erase_self]
  omega

/-- **The end of a handler** takes its socket out of both lists. -/
theorem Sound.finish (h : Sound cfg w) (k : Nat) (hs : (w.conns k).phase.inSockets = true) :
    Sound cfg (w.finish cfg k) := by
  obtain ⟨hguarded, htoken, hauth, hlistening, hknown⟩ := h k
  have hr : (w.conns k).phase ≠ .returned := by
    intro he
    rw [he] at hs
    cases hs
  -- an authenticated socket leaves the listeners first, then any socket the known ones
  let w₁ : LogServer ρ :=
    if (w.conns k).authenticated then { w with listeners := w.listeners.erase k } else w
  have hconns₁ : w₁.conns = w.conns := by
    unfold w₁
    split <;> rfl
  have hsockets₁ : w₁.sockets = w.sockets := by
    unfold w₁
    split <;> rfl
  have hlisteners₁ : w₁.listeners.count k = 0 ∧
      ∀ j, j ≠ k → w₁.listeners.count j = w.listeners.count j := by
    unfold w₁
    by_cases ha : (w.conns k).authenticated = true
    · rw [if_pos ha]
      refine ⟨count_erase ?_, fun j hj => List.count_erase_of_ne hj⟩
      rw [hlistening]
      split <;> omega
    · rw [if_neg ha]
      refine ⟨?_, fun _ _ => rfl⟩
      rw [hlistening, if_neg (fun hand => ha hand.1)]
  have hfinish : w.finish cfg k = { w₁.debug cfg k "closed" with
      sockets := (w₁.debug cfg k "closed").sockets.erase k }.setPhase k .returned := rfl
  rw [hfinish]
  have hconns : ({ w₁.debug cfg k "closed" with
      sockets := (w₁.debug cfg k "closed").sockets.erase k } : LogServer ρ).conns = w.conns :=
    debug_conns k _ |>.trans hconns₁
  refine h.of_conn k ?_ (fun j hj => ?_) (fun j hj => ?_) (fun j hj => ?_)
  · show ConnOk cfg _ ((w₁.debug cfg k "closed").listeners.count k)
      (((w₁.debug cfg k "closed").sockets.erase k).count k)
    unfold LogServer.setPhase
    rw [setConn_conns_self, hconns, debug_listeners, debug_sockets, hsockets₁, hlisteners₁.1]
    refine ⟨hguarded, fun hor => htoken (.inr (hor.resolve_left nofun)), fun _ => .inr rfl,
      by simp, ?_⟩
    rw [count_erase]
    · rfl
    · rw [hknown]
      split <;> omega
  · unfold LogServer.setPhase
    rw [setConn_conns_ne _ _ hj, hconns]
  · show (w₁.debug cfg k "closed").listeners.count j = _
    rw [debug_listeners]
    exact hlisteners₁.2 j hj
  · show ((w₁.debug cfg k "closed").sockets.erase k).count j = _
    rw [debug_sockets, hsockets₁]
    exact List.count_erase_of_ne hj

/-- A message that is no record is read in whatever phase. -/
theorem Sound.onText (h : Sound cfg w) (k : Nat) (data : Text)
    (hs : (w.conns k).phase.inSockets = true) : Sound cfg (w.onText cfg k data) := by
  have hpass : Sound cfg (w.pass k (.text data)) := h.pass k nofun
  have hconn : (w.pass k (.text data)).conns k =
      { w.conns k with traffic := (w.conns k).traffic ++ [.text data] } := setConn_conns_self w k _
  have hs' : ((w.pass k (.text data)).conns k).phase.inSockets = true := by
    rw [hconn]
    exact hs
  unfold LogServer.onText
  by_cases hv : isValidToken cfg.auth data = true
  · -- from here on the client has sent a valid token
    dsimp only
    rw [if_pos hv]
    refine hpass.sendJson k hs' rfl nofun (fun _ => ?_)
    rw [hconn]
    exact ⟨data, by simp, hv⟩
  · dsimp only
    rw [if_neg hv]
    by_cases ha : ((w.pass k (.text data)).conns k).authenticated = false
    · rw [if_pos ha]
      exact hpass.sendJson k hs' rfl nofun nofun
    · rw [if_neg ha]
      exact hpass

/-- A socket listens once it was sent the history. -/
theorem Sound.register (h : Sound cfg w) (k : Nat) (hp : (w.conns k).phase = .sendingHistory) :
    Sound cfg (w.register cfg k) := by
  have hin : (w.conns k).phase.inSockets = true := by rw [hp]; rfl
  unfold LogServer.register
  -- a connection that is known already is not entered twice
  by_cases ha : (w.conns k).authenticated = true
  · rw [if_pos ha]
    refine h.setPhase k (by rw [hin]; rfl) ?_ nofun nofun
    rw [hp]
    nofun
  · rw [if_neg ha]
    obtain ⟨hguarded, htoken, hauth, hlistening, hknown⟩ := h k
    have htok : HasToken cfg (w.conns k).traffic := htoken (.inl (by rw [hp]; rfl))
    refine h.of_conn k ?_ (fun j hj => ?_) (fun j hj => ?_) (fun j hj => ?_)
    · show ConnOk cfg (LogServer.conns (LogServer.setConn _ k _) k)
        (((w.debug cfg k "authenticated").listeners ++ [k]).count k)
        ((w.debug cfg k "authenticated").sockets.count k)
      rw [setConn_conns_self, debug_listeners, debug_sockets, debug_conns]
      refine ⟨hguarded, fun _ => htok, fun _ => .inl rfl, ?_, ?_⟩
      · rw [List.count_append, hlistening, if_neg (fun hand => ha hand.1)]
        simp
      · rw [hknown, hin]
        rfl
    · show LogServer.conns (LogServer.setConn _ k _) j = _
      rw [setConn_conns_ne _ _ hj]
      exact congrFun (debug_conns k _) j
    · show ((w.debug cfg k "authenticated").listeners ++ [k]).count j = _
      rw [debug_listeners, List.count_append, List.count_singleton]
      simp [Ne.symm hj]
    · show (w.debug cfg k "authenticated").sockets.count j = _
      rw [debug_sockets]

/-- The handler begins by its socket. -/
theorem Sound.enter (h : Sound cfg w) (k : Nat) (hp : (w.conns k).phase = .preparing) :
    Sound cfg (w.enter cfg k) := by
  obtain ⟨hguarded, htoken, hauth, hlistening, hknown⟩ := h k
  have ha : (w.conns k).authenticated = false := by
    by_contra ha
    rcases hauth (by simpa using ha) with hin | hin <;> rw [hp] at hin <;> cases hin
  let w₁ : LogServer ρ := { w with sockets := w.sockets ++ [k] }
  have henter : w.enter cfg k = (w₁.debug cfg k "opened").setConn k
      { phase := .receiving, authenticated := false, connected := true } := rfl
  rw [henter]
  refine h.of_conn k ?_ (fun j hj => ?_) (fun j hj => ?_) (fun j hj => ?_)
  · show ConnOk cfg _ ((w₁.debug cfg k "opened").listeners.count k)
      ((w₁.debug cfg k "opened").sockets.count k)
    rw [setConn_conns_self, debug_listeners, debug_sockets]
    refine ⟨fun before m after he => ?_, fun hor => ?_, nofun, ?_, ?_⟩
    · simp at he
    · rcases hor with hor | hor <;> cases hor
    · show w.listeners.count k = if false = true ∧ _ then 1 else 0
      rw [hlistening, ha]
      simp
    · show (w.sockets ++ [k]).count k = 1
      rw [List.count_append, hknown, hp]
      simp [Phase.inSockets]
  · rw [setConn_conns_ne _ _ hj, debug_conns]
  · show (w₁.debug cfg k "opened").listeners.count j = _
    rw [debug_listeners]
  · show (w₁.debug cfg k "opened").sockets.count j = _
    rw [debug_sockets]
    show (w.sockets ++ [k]).count j = _
    rw [List.count_append, List.count_singleton]
    simp [Ne.symm hj]

/-- A handler that had no socket yet stays without one. -/
theorem Sound.setPhase_outside (h : Sound cfg w) (k : Nat) {p : Phase}
    (hs : (w.conns k).phase.inSockets = false) (hr : (w.conns k).phase ≠ .returned)
    (hp : p.inSockets = false) (hpr : p ≠ .returned) : Sound cfg (w.setPhase k p) :=
  h.setPhase k (hp.trans hs.symm) hr hpr fun ht => by
    cases p <;> simp [Phase.inSockets, Phase.afterToken] at hp ht

/-- So each part of it keeps the server sound, -/
theorem Sound.resume (h : Sound cfg w) (k : Nat) (input : Input) :
    Sound cfg (w.resume cfg k input) := by
  cases hp : (w.conns k).phase with
  | idle => cases input <;> simp only [LogServer.resume, hp] <;> exact h
  -- the socket is not known yet: a refusal leaves nothing behind
  | preparing =>
    have refuse : Sound cfg (w.setPhase k .refused) :=
      h.setPhase_outside k (by rw [hp]; rfl) (by rw [hp]; nofun) rfl nofun
    cases input with
    | ok => simpa only [LogServer.resume, hp] using h.enter k hp
    | raised => simpa only [LogServer.resume, hp] using refuse
    | cancelled => simpa only [LogServer.resume, hp] using refuse
    | text | other | closed => simpa only [LogServer.resume, hp] using h
  -- from here on every exception and cancellation leads through `finally`
  | receiving =>
    have hin : (w.conns k).phase.inSockets = true := by rw [hp]; rfl
    cases input with
    | text data => simpa only [LogServer.resume, hp] using h.onText k data hin
    | closed =>
      have hclose : ((w.close k).conns k).phase.inSockets = true := by
        unfold LogServer.close
        rw [setConn_conns_self]
        exact hin
      simpa only [LogServer.resume, hp] using (h.close k).finish k hclose
    | raised => simpa only [LogServer.resume, hp] using h.raise k hin
    | cancelled => simpa only [LogServer.resume, hp] using h.cancel k hin
    | ok | other => simpa only [LogServer.resume, hp] using h
  -- the token has been read when the success is sent, so the history may follow
  | sendingSuccess =>
    have hin : (w.conns k).phase.inSockets = true := by rw [hp]; rfl
    have htok : HasToken cfg (w.conns k).traffic := (h k).token (.inl (by rw [hp]; rfl))
    cases input with
    | ok =>
      simpa only [LogServer.resume, hp] using h.sendJson k hin rfl (fun _ => htok) (fun _ => htok)
    | raised => simpa only [LogServer.resume, hp] using h.raise k hin
    | cancelled => simpa only [LogServer.resume, hp] using h.cancel k hin
    | text | other | closed => simpa only [LogServer.resume, hp] using h
  | sendingHistory =>
    have hin : (w.conns k).phase.inSockets = true := by rw [hp]; rfl
    cases input with
    | ok => simpa only [LogServer.resume, hp] using h.register k hp
    | raised => simpa only [LogServer.resume, hp] using h.raise k hin
    | cancelled => simpa only [LogServer.resume, hp] using h.cancel k hin
    | text | other | closed => simpa only [LogServer.resume, hp] using h
  -- a wrong token leads back to the receiving
  | sendingFailure =>
    have hin : (w.conns k).phase.inSockets = true := by rw [hp]; rfl
    cases input with
    | ok =>
      have := h.setPhase k (p := .receiving) hin.symm (by rw [hp]; nofun) nofun nofun
      simpa only [LogServer.resume, hp] using this
    | raised => simpa only [LogServer.resume, hp] using h.raise k hin
    | cancelled => simpa only [LogServer.resume, hp] using h.cancel k hin
    | text | other | closed => simpa only [LogServer.resume, hp] using h
  | closing =>
    have hin : (w.conns k).phase.inSockets = true := by rw [hp]; rfl
    cases input with
    | ok => simpa only [LogServer.resume, hp] using h.finish k hin
    | raised => simpa only [LogServer.resume, hp] using h.finish k hin
    | cancelled => simpa only [LogServer.resume, hp] using h.cancel k hin
    | text | other | closed => simpa only [LogServer.resume, hp] using h
  | returned => cases input <;> simp only [LogServer.resume, hp] <;> exact h
  | refused => cases input <;> simp only [LogServer.resume, hp] <;> exact h
  | cancelled => cases input <;> simp only [LogServer.resume, hp] <;> exact h

/-- A record goes only to sockets that listen. -/
theorem Sound.sendNext (h : Sound cfg w) (n : Nat) (r : ρ) : Sound cfg (w.sendNext n r) := by
  unfold LogServer.sendNext
  dsimp only
  cases hws : w.listeners[(w.sends n).pos]? with
  | none => exact h
  | some ws =>
    dsimp only
    split
    · refine Sound.pass (w := { w with sends := _ }) h ws (fun _ => ?_)
      have hmem : 0 < w.listeners.count ws :=
        List.count_pos_iff.mpr (List.mem_of_getElem? hws)
      have hc := h ws
      refine hc.token (.inr ?_)
      by_contra ha
      rw [hc.listening, if_neg (fun hand => ha hand.1)] at hmem
      omega
    · exact h

/-- and so does every step. -/
theorem sound_step (h : Sound cfg w) (e : Event ρ) : Sound cfg (step cfg e w) := by
  cases e with
  | emit r => exact h.emit r
  | connect k =>
    simp only [step]
    split
    · next hp => exact h.setPhase_outside k (by rw [hp]; rfl) (by rw [hp]; nofun) rfl nofun
    · exact h
  | resume k input => exact h.resume k input
  | disconnect k => exact h.close k
  | timeout k =>
    simp only [step]
    split
    · exact h
    · exact h
    · exact h
    · split
      · exact h
      · exact (h.close k).debug k _
  | send n =>
    simp only [step]
    split
    · exact h
    · split
      · exact h
      · exact h.sendNext n _

/-- **No log without a token.**  In every run, whatever tells something of the log is written
    to a socket after a valid token came from it, and a handler that returned has taken its
    socket out of both lists. -/
theorem guarded_and_removed (cfg : Setup ρ) (w : LogServer ρ)
    (h : Reach (step cfg) (fun _ _ => True) {} w) (k : Nat) :
    (∀ before m after, (w.conns k).traffic = before ++ m :: after → m.isLog = true →
      ∃ data, .text data ∈ before ∧ isValidToken cfg.auth data = true) ∧
    ((w.conns k).phase = .returned → k ∉ w.listeners ∧ k ∉ w.sockets) := by
  have hsound : Sound cfg w := h.invariant sound_new (fun _ e hw _ => sound_step hw e)
  obtain ⟨hguarded, -, -, hlistening, hknown⟩ := hsound k
  refine ⟨hguarded, fun hp => ⟨?_, ?_⟩⟩
  · rw [← List.count_eq_zero, hlistening, if_neg (fun hand => hand.2 hp)]
  · rw [← List.count_eq_zero, hknown, hp]
    rfl

/-- A server that takes the token `t` for one of root's. -/
def demo : Setup String where
  auth  := { unsharedSecret := [], admins := [], apiFeatures := [], devOpenCfg := false,
             verifyToken := fun _ t => if t = ['t'] then some (some "root".toList) else none }
  debug := false
  note _ msg := msg

def demoRun (events : List (Event String)) : LogServer String :=
  events.foldl (fun w e => step demo e w) {}

/-- A socket that authenticates, gets one record and leaves. -/
theorem guarded_and_removed_once :
    let w := demoRun [.emit "a", .send 0, .connect 0, .resume 0 .ok, .resume 0 (.text ['t']),
      .resume 0 .ok, .resume 0 .ok, .emit "b", .send 1, .resume 0 .closed]
    (w.conns 0).traffic =
        [.text ['t'], .authSuccess true, .history ["a"] 1, .record "b"] ∧
      (∃ data, .text data ∈ [.text ['t'], .authSuccess true, (.history ["a"] 1 : Traffic String)] ∧
        isValidToken demo.auth data = true) ∧
      0 ∉ w.listeners ∧ 0 ∉ w.sockets := by
  intro w
  obtain ⟨hguarded, hremoved⟩ := guarded_and_removed demo w (Reach.replay _) 0
  have ht : (w.conns 0).traffic =
      [.text ['t'], .authSuccess true, .history ["a"] 1, .record "b"] := by decide
  exact ⟨ht, hguarded _ (.record "b") [] ht rfl, hremoved (by decide)⟩

end LogServer

end Maubot.Management
