import Maubot.Lib.Runs
import Maubot.Lib.Tasks
import Mathlib.Logic.Function.Basic

namespace Maubot.Management

/-!
# Management API — single sign-on

A login through an identity provider takes three requests: `_do_sso` opens a session and
stores a future for its token, `wait_sso` awaits that future and logs in, `complete_sso`,
which the browser is redirected to, sets the token.

* `step` — one request, or one wait that goes on or is cancelled;
* `Kept` — a session logs in once, with its own request and the first token, and no wait is
  cancelled by another;
* `kept_iff_alone` — so it is in the runs that never start a wait beside another of the same
  session; the waits of a session share its future.
-/

/-- The session ids that `_do_sso` generates. -/
abbrev WaiterId := String

/-- An `asyncio.Future` for a token. -/
inductive Future (T : Type)
  | pending
  | cancelled
  | result (token : T)
  deriving DecidableEq, Repr

namespace Sso

/-- Where a `wait_sso` is. -/
inductive Phase (T : Type)
  /-- `await fut` -/
  | awaiting
  /-- a `CancelledError` left the handler -/
  | cancelled
  /-- `_do_login(req, login_token)` is called -/
  | loggingIn (token : T)
  deriving DecidableEq, Repr

/-- A `wait_sso` that found its session. -/
structure Wait (R T : Type) where
  waiterId   : WaiterId
  req        : R
  fut        : Nat
  phase      : Phase T := .awaiting
  /-- the task is to be cancelled once it goes on -/
  mustCancel : Bool := false
  /-- not in the source: whether this very wait was cancelled -/
  requested  : Bool := false
  deriving DecidableEq, Repr

inductive Event (R T : Type)
  /-- `_do_sso`, with the id it generates; `supported` is what the homeserver says -/
  | doSso (id : WaiterId) (req : R) (supported : Bool)
  | complete (id : WaiterId) (loginToken : Option T)
  | wait (id : WaiterId)
  /-- a wait goes on, or its task is cancelled -/
  | resume (k : Nat)
  | cancel (k : Nat)
  deriving DecidableEq, Repr

/-- What `complete_sso` answers: status and text. -/
structure Answer where
  status : Nat
  text   : String
  deriving DecidableEq, Repr

end Sso

open Sso

/-- The table of sessions, the futures, and the waits. -/
structure Sso (R T : Type) where
  ssoWaiters : WaiterId → Option (R × Nat) := fun _ => none
  futures    : Nat → Future T := fun _ => .pending
  next       : Nat := 0
  waits      : List (Wait R T) := []
  /-- not in the source: the sessions ever opened, the tokens `complete_sso` accepted for
      each, and what `_do_login` was called with -/
  created    : WaiterId → Option (R × Nat) := fun _ => none
  accepted   : WaiterId → List T := fun _ => []
  logins     : WaiterId → List (R × T) := fun _ => []

namespace Sso

variable {R T : Type}

def invalidSession : Answer := ⟨404, "Invalid session ID\n"⟩
def loginCancelled : Answer := ⟨200, "The login was cancelled from the Maubot client\n"⟩
def alreadyReceived : Answer := ⟨200, "The login token was already received\n"⟩
def missingToken : Answer := ⟨400, "Missing loginToken query parameter\n"⟩
def tokenReceived : Answer :=
  ⟨200, "Login token received, please return to your Maubot client. This tab can be closed.\n"⟩

def doSso (w : Sso R T) (id : WaiterId) (req : R) : Sso R T :=
  { w with
    ssoWaiters := Function.update w.ssoWaiters id (some (req, w.next))
    futures    := Function.update w.futures w.next .pending
    next       := w.next + 1
    created    := Function.update w.created id (some (req, w.next)) }

def completeSso (w : Sso R T) (id : WaiterId) (loginToken : Option T) : Sso R T × Answer :=
  match w.ssoWaiters id with
  | none          => (w, invalidSession)
  | some (_, fut) =>
    match w.futures fut with
    | .cancelled => (w, loginCancelled)
    | .result _  => (w, alreadyReceived)
    | .pending   =>
      match loginToken with
      | none   => (w, missingToken)
      | some t =>
        ({ w with
           futures  := Function.update w.futures fut (.result t)
           accepted := Function.update w.accepted id (w.accepted id ++ [t]) }, tokenReceived)

/-- What `await fut` gives to a task that can go on: `some none` is a `CancelledError`. -/
def awaited (mustCancel : Bool) (f : Future T) : Option (Option T) :=
  match mustCancel, f with
  | true, _           => some none
  | false, .pending   => none
  | false, .cancelled => some none
  | false, .result t  => some (some t)

/-- `sso_waiters.pop(waiter_id, None)` -/
def pop (w : Sso R T) (id : WaiterId) : Sso R T :=
  { w with ssoWaiters := Function.update w.ssoWaiters id none }

def doLogin (w : Sso R T) (id : WaiterId) (req : R) (token : T) : Sso R T :=
  { w with logins := Function.update w.logins id (w.logins id ++ [(req, token)]) }

/-- A wait at `await fut`. -/
def goOn (w : Sso R T) (v : Wait R T) : Sso R T × Wait R T :=
  match awaited v.mustCancel (w.futures v.fut) with
  | none          => (w, v)
  | some none     => (w.pop v.waiterId, { v with phase := .cancelled })
  | some (some t) =>
    ((w.pop v.waiterId).doLogin v.waiterId v.req t, { v with phase := .loggingIn t })

/-- `task.cancel()`: it cancels the future that the task awaits, if that can still be done,
    else the task itself when it goes on. -/
def cancelWait (w : Sso R T) (v : Wait R T) : Sso R T × Wait R T :=
  match v.phase, w.futures v.fut with
  | .awaiting, .pending   => ({ w with futures := Function.update w.futures v.fut .cancelled },
                              { v with requested := true })
  | .awaiting, .result _  => (w, { v with requested := true, mustCancel := true })
  -- the task goes on with a `CancelledError` as it is
  | .awaiting, .cancelled => (w, { v with requested := true })
  | _, _                  => (w, v)

def setWait (w : Sso R T) (k : Nat) (v : Wait R T) : Sso R T :=
  { w with waits := w.waits.set k v }

def addWait (w : Sso R T) (v : Wait R T) : Sso R T :=
  { w with waits := w.waits ++ [v] }

def step (e : Event R T) (w : Sso R T) : Sso R T :=
  match e with
  | .doSso id req supported => if supported then w.doSso id req else w
  | .complete id token      => (w.completeSso id token).1
  | .wait id                =>
    match w.ssoWaiters id with
    | none            => w
    | some (req, fut) =>
      let (w', v) := w.goOn { waiterId := id, req := req, fut := fut }
      w'.addWait v
  | .resume k               =>
    match w.waits[k]? with
    | none   => w
    | some v =>
      match v.phase with
      | .awaiting => let (w', v') := w.goOn v; w'.setWait k v'
      | _         => w
  | .cancel k               =>
    match w.waits[k]? with
    | none   => w
    | some v => let (w', v') := w.cancelWait v; w'.setWait k v'

/-- The generated ids are distinct. -/
def Distinct (w : Sso R T) (e : Event R T) : Prop :=
  ∀ id req, e = .doSso id req true → w.created id = none

/-- Whether the wait is at `await fut` in that session, to go on with what the future gives. -/
def Wait.alive (id : WaiterId) (v : Wait R T) : Bool :=
  match v.phase with
  | .awaiting => v.waiterId = id && !v.mustCancel
  | _         => false

/-- No wait starts beside another one of its session. -/
def Alone (w : Sso R T) (e : Event R T) : Prop :=
  ∀ id, e = .wait id → ∀ v ∈ w.waits, v.alive id = false

/-- What a session keeps to. -/
structure Kept (w : Sso R T) : Prop where
  /-- `_do_login` runs at most once, -/
  once     : ∀ id, (w.logins id).length ≤ 1
  /-- with the stored request and the first token that was accepted; -/
  info     : ∀ id, ∀ l ∈ w.logins id, (w.created id).map Prod.fst = some l.1 ∧
                (w.accepted id).head? = some l.2
  /-- no other token is accepted after it; -/
  accepted : ∀ id, (w.accepted id).length ≤ 1
  /-- and a wait ends cancelled only if it was itself cancelled. -/
  own      : ∀ v ∈ w.waits, v.phase = .cancelled → v.requested = true

/-! ### One session -/

def aliveWaits (w : Sso R T) (id : WaiterId) : Nat :=
  Tasks.total (fun v => (v.alive id).toNat) w.waits

/-- The tokens that were accepted for a future. -/
def tokens : Future T → List T
  | .result t => [t]
  | _         => []

/-- All that concerns one session. -/
structure View (R T : Type) where
  created  : Option (R × Nat)
  entry    : Option (R × Nat)
  future   : Option (Future T)
  accepted : List T
  logins   : List (R × T)
  alive    : Nat

/-- What holds of a session in a run whose waits are alone. -/
inductive View.Ok (s : View R T) : Prop
  | absent (hc : s.created = none) (he : s.entry = none) (ha : s.accepted = [])
      (hl : s.logins = []) (hn : s.alive = 0)
  /-- the session waits for its login -/
  | opened (c : R × Nat) (f : Future T) (hc : s.created = some c) (hf : s.future = some f)
      (he : s.entry = some c) (ha : s.accepted = tokens f) (hl : s.logins = [])
      (hn : s.alive ≤ 1) (hx : f = .cancelled → s.alive = 1)
  | popped (c : R × Nat) (f : Future T) (hc : s.created = some c) (hf : s.future = some f)
      (he : s.entry = none) (ha : s.accepted = tokens f) (hn : s.alive = 0)
      (hl : s.logins = [] ∨ ∃ t, s.logins = [(c.1, t)] ∧ f = .result t)

def view (w : Sso R T) (id : WaiterId) : View R T where
  created  := w.created id
  entry    := w.ssoWaiters id
  future   := (w.created id).map (fun c => w.futures c.2)
  accepted := w.accepted id
  logins   := w.logins id
  alive    := w.aliveWaits id

/-- What holds of a wait. -/
structure WaitOk (w : Sso R T) (v : Wait R T) : Prop where
  created   : w.created v.waiterId = some (v.req, v.fut)
  cancelled : v.phase = .awaiting → w.futures v.fut = .cancelled → v.requested = true
  must      : v.phase = .awaiting → v.mustCancel = true →
                v.requested = true ∧ (∃ t, w.futures v.fut = .result t) ∧
                  w.aliveWaits v.waiterId = 0
  own       : v.phase = .cancelled → v.requested = true

structure Orderly (w : Sso R T) : Prop where
  session : ∀ id, (w.view id).Ok
  lt      : ∀ id c, w.created id = some c → c.2 < w.next
  inj     : ∀ id id' c c', w.created id = some c → w.created id' = some c' → c.2 = c'.2 → id = id'
  wait    : ∀ (k : Nat) v, w.waits[k]? = some v → WaitOk w v

/-- An orderly server has no waiters at first. -/
theorem orderly_new : Orderly (R := R) (T := T) {} where
  session _ := .absent rfl rfl rfl rfl rfl
  lt        := nofun
  inj       := nofun
  wait      := by simp

/-- A waiter in the table was created with the same request and future. -/
theorem View.Ok.created_of_entry {s : View R T} (h : s.Ok) {c : R × Nat} (he : s.entry = some c) :
    s.created = some c := by
  cases h with
  | absent hc hn => rw [hn] at he; cases he
  | opened c' f hc hf he' =>
    obtain rfl : c' = c := Option.some.inj (he'.symm.trans he)
    exact hc
  | popped c' f hc hf he' => rw [he'] at he; cases he

/-- A wait that would go on with what the future gives: then its session is open. -/
theorem View.Ok.entry_of_alive {s : View R T} (h : s.Ok) (ha : 0 < s.alive) :
    ∃ c f, s.created = some c ∧ s.future = some f ∧ s.entry = some c ∧ s.accepted = tokens f ∧
      s.logins = [] ∧ s.alive = 1 := by
  cases h with
  | absent hc he ha' hl hn => omega
  | opened c f hc hf he ha' hl hn => exact ⟨c, f, hc, hf, he, ha', hl, by omega⟩
  | popped c f hc hf he ha' hn => omega

/-- **The properties of a session follow from the invariant.** -/
theorem Orderly.kept {w : Sso R T} (h : Orderly w) : Kept w where
  once id := by
    cases h.session id with
    | absent _ _ _ hl => simp [show w.logins id = [] from hl]
    | opened _ _ _ _ _ _ hl => simp [show w.logins id = [] from hl]
    | popped c f _ _ _ _ _ hl =>
      rcases hl with hl | ⟨t, hl, -⟩
      · simp [show w.logins id = [] from hl]
      · simp [show w.logins id = [(c.1, t)] from hl]
  info id l hl' := by
    cases h.session id with
    | absent _ _ _ hl => rw [show w.logins id = [] from hl] at hl'; cases hl'
    | opened _ _ _ _ _ _ hl => rw [show w.logins id = [] from hl] at hl'; cases hl'
    | popped c f hc hf _ ha _ hl =>
      rcases hl with hl | ⟨t, hl, rfl⟩
      · rw [show w.logins id = [] from hl] at hl'; cases hl'
      · rw [show w.logins id = [(c.1, t)] from hl] at hl'
        obtain rfl := List.mem_singleton.mp hl'
        rw [show w.created id = some c from hc, show w.accepted id = [t] from ha]
        exact ⟨rfl, rfl⟩
  accepted id := by
    have htokens : ∀ f : Future T, (tokens f).length ≤ 1 := by
      intro f
      cases f <;> simp [tokens]
    cases h.session id with
    | absent _ _ ha => simp [show w.accepted id = [] from ha]
    | opened _ f _ _ _ ha => rw [show w.accepted id = tokens f from ha]; exact htokens f
    | popped _ f _ _ _ ha => rw [show w.accepted id = tokens f from ha]; exact htokens f
  own v hv hp := by
    obtain ⟨k, hk⟩ := List.mem_iff_getElem?.mp hv
    exact (h.wait k v hk).own hp

/-! ### What the steps change -/

variable {w : Sso R T} {v v' : Wait R T} {id id' : WaiterId} {k : Nat}

/-- A wait for another id is not alive for this one. -/
theorem alive_of_ne (h : v.waiterId ≠ id) : v.alive id = false := by
  unfold Wait.alive
  split
  · simp [h]
  · rfl

/-- A wait that has its future ahead is alive. -/
theorem alive_of_awaiting (hp : v.phase = .awaiting) (hm : v.mustCancel = false) :
    v.alive v.waiterId = true := by
  simp [Wait.alive, hp, hm]

/-- And nothing else is. -/
theorem alive_eq_true (h : v.alive id = true) :
    v.waiterId = id ∧ v.phase = .awaiting ∧ v.mustCancel = false := by
  unfold Wait.alive at h
  split at h
  · next hp => simpa [hp] using h
  · cases h

/-- A new wait counts if it is alive. -/
theorem aliveWaits_addWait (w : Sso R T) (v : Wait R T) (id : WaiterId) :
    (w.addWait v).aliveWaits id = w.aliveWaits id + (v.alive id).toNat :=
  Tasks.total_concat

/-- A wait that goes on counts anew. -/
theorem aliveWaits_setWait (h : w.waits[k]? = some v) (v' : Wait R T) (id : WaiterId) :
    (w.setWait k v').aliveWaits id + (v.alive id).toNat =
      w.aliveWaits id + (v'.alive id).toNat :=
  Tasks.total_set _ v' h

/-- Where a wait is alive there is one at least. -/
theorem aliveWaits_pos (h : w.waits[k]? = some v) (ha : v.alive id = true) :
    0 < w.aliveWaits id := by
  have := Tasks.le_total (fun v : Wait R T => (v.alive id).toNat) h
  simp only [ha, Bool.toNat_true] at this
  exact this

/-- Where none is there is none. -/
theorem aliveWaits_eq_zero (h : ∀ v ∈ w.waits, v.alive id = false) : w.aliveWaits id = 0 := by
  unfold aliveWaits Tasks.total
  rw [List.sum_eq_zero]
  intro n hn
  obtain ⟨v, hv, rfl⟩ := List.mem_map.mp hn
  rw [h v hv]
  rfl

/-- An id that is popped is no longer in the table. -/
@[simp] theorem view_pop_self : (w.pop id).view id = { w.view id with entry := none } := by
  simp [view, pop, aliveWaits]

/-- The other ids are. -/
theorem view_pop_ne (h : id' ≠ id) : (w.pop id).view id' = w.view id' := by
  simp [view, pop, aliveWaits, h]

/-- A login is seen under its id. -/
@[simp] theorem view_doLogin_self (req : R) (t : T) : (w.doLogin id req t).view id =
    { w.view id with logins := w.logins id ++ [(req, t)] } := by
  simp [view, doLogin, aliveWaits]

/-- And under no other. -/
theorem view_doLogin_ne (req : R) (t : T) (h : id' ≠ id) :
    (w.doLogin id req t).view id' = w.view id' := by
  simp [view, doLogin, aliveWaits, h]

/-- A new wait changes the count of its id only. -/
theorem view_addWait (w : Sso R T) (v : Wait R T) (id : WaiterId) : (w.addWait v).view id =
    { w.view id with alive := w.aliveWaits id + (v.alive id).toNat } := by
  rw [← aliveWaits_addWait]
  rfl

/-- And of no other. -/
theorem view_addWait_ne (h : v.waiterId ≠ id) : (w.addWait v).view id = w.view id := by
  rw [view_addWait, alive_of_ne h]
  rfl

/-- A wait that goes on changes the count. -/
theorem view_setWait (w : Sso R T) (k : Nat) (v' : Wait R T) (id : WaiterId) :
    (w.setWait k v').view id =
      { w.view id with alive := (w.setWait k v').aliveWaits id } := rfl

/-- But that of no other id. -/
theorem view_setWait_ne (hk : w.waits[k]? = some v) (v' : Wait R T) (h : v.waiterId ≠ id)
    (h' : v'.waiterId ≠ id) : (w.setWait k v').view id = w.view id := by
  have := aliveWaits_setWait hk v' id
  rw [alive_of_ne h, alive_of_ne h'] at this
  rw [view_setWait, show (w.setWait k v').aliveWaits id = w.aliveWaits id from this]
  rfl

/-- A wait that stays changes nothing. -/
theorem setWait_self (h : w.waits[k]? = some v) : w.setWait k v = w := by
  obtain ⟨hlt, hget⟩ := List.getElem?_eq_some_iff.mp h
  have : w.waits.set k v = w.waits := by
    rw [← hget]
    exact List.set_getElem_self hlt
  unfold setWait
  rw [this]

/-- A future that is set concerns the session it was made for. -/
theorem view_setFuture_ne (h : Orderly w) {c : R × Nat} (hc : w.created id = some c)
    (hne : id' ≠ id) (f : Future T) :
    ({ w with futures := Function.update w.futures c.2 f } : Sso R T).view id' = w.view id' := by
  have hfuture : (w.created id').map (fun c' => Function.update w.futures c.2 f c'.2) =
      (w.created id').map (fun c' => w.futures c'.2) := by
    cases hc' : w.created id' with
    | none => rfl
    | some c' =>
      have : c'.2 ≠ c.2 := fun he => hne (h.inj _ _ _ _ hc' hc he)
      simp [this]
  unfold view
  dsimp only
  rw [hfuture]
  rfl

/-- A wait stays right while its waiter and its future do, and no other wait comes to life. -/
theorem WaitOk.mono {w' : Sso R T} (h : WaitOk w v)
    (hc : w'.created v.waiterId = w.created v.waiterId)
    (hf : w'.futures v.fut = w.futures v.fut)
    (ha : w'.aliveWaits v.waiterId ≤ w.aliveWaits v.waiterId) : WaitOk w' v where
  created         := hc.trans h.created
  cancelled hp hx := h.cancelled hp (hf.symm.trans hx)
  must hp hm      := by
    obtain ⟨hr, ⟨t, ht⟩, hz⟩ := h.must hp hm
    exact ⟨hr, ⟨t, hf.trans ht⟩, by omega⟩
  own             := h.own

/-- A wait of a session that the step leaves alone. -/
theorem WaitOk.of_view {w' : Sso R T} (h : WaitOk w v)
    (hv : w'.view v.waiterId = w.view v.waiterId) : WaitOk w' v := by
  have hc : w'.created v.waiterId = w.created v.waiterId := congrArg View.created hv
  have hf : (w'.created v.waiterId).map (fun c => w'.futures c.2) =
      (w.created v.waiterId).map (fun c => w.futures c.2) := congrArg View.future hv
  rw [hc, h.created] at hf
  have ha : w'.aliveWaits v.waiterId = w.aliveWaits v.waiterId := congrArg View.alive hv
  exact h.mono hc (Option.some.inj hf) (by omega)

/-- A step that concerns one session. -/
theorem Orderly.of_session {w' : Sso R T} (h : Orderly w) (id : WaiterId)
    (hc : w'.created = w.created) (hn : w'.next = w.next) (hs : (w'.view id).Ok)
    (hne : ∀ id', id' ≠ id → w'.view id' = w.view id')
    (hw : ∀ (k : Nat) v, w'.waits[k]? = some v → WaitOk w' v) : Orderly w' where
  session id' := by
    by_cases hid : id' = id
    · rw [hid]
      exact hs
    · rw [hne id' hid]
      exact h.session id'
  lt          := by rw [hc, hn]; exact h.lt
  inj         := by rw [hc]; exact h.inj
  wait        := hw

/-! ### Steps -/

/-- What a wait that goes on does: nothing, end cancelled, or log in. -/
theorem goOn_cases (w : Sso R T) (v : Wait R T) :
    (v.mustCancel = false ∧ w.futures v.fut = .pending ∧ w.goOn v = (w, v)) ∨
    ((v.mustCancel = true ∨ w.futures v.fut = .cancelled) ∧
      w.goOn v = (w.pop v.waiterId, { v with phase := .cancelled })) ∨
    ∃ t, v.mustCancel = false ∧ w.futures v.fut = .result t ∧
      w.goOn v = ((w.pop v.waiterId).doLogin v.waiterId v.req t,
        { v with phase := .loggingIn t }) := by
  cases hm : v.mustCancel with
  | true => exact .inr (.inl ⟨.inl rfl, by simp only [goOn, hm, awaited]⟩)
  | false =>
    cases hf : w.futures v.fut with
    | pending => exact .inl ⟨rfl, rfl, by simp only [goOn, hm, hf, awaited]⟩
    | cancelled => exact .inr (.inl ⟨.inr rfl, by simp only [goOn, hm, hf, awaited]⟩)
    | result t => exact .inr (.inr ⟨t, rfl, rfl, by simp only [goOn, hm, hf, awaited]⟩)

/-- A new id makes the server no less orderly. -/
theorem orderly_doSso (h : Orderly w) (req : R) (hid : w.created id = none) :
    Orderly (w.doSso id req) := by
  have hok := h.session id
  -- nothing of the session exists yet
  obtain ⟨ha, hl, hn⟩ : w.accepted id = [] ∧ w.logins id = [] ∧ w.aliveWaits id = 0 := by
    cases hok with
    | absent _ _ ha hl hn => exact ⟨ha, hl, hn⟩
    | opened c f hc => rw [show w.created id = some c from hc] at hid; cases hid
    | popped c f hc => rw [show w.created id = some c from hc] at hid; cases hid
  have hfut : ∀ id' c, w.created id' = some c →
      Function.update w.futures w.next .pending c.2 = w.futures c.2 := by
    intro id' c hc
    exact Function.update_of_ne (Nat.ne_of_lt (h.lt id' c hc)) _ _
  refine ⟨fun id' => ?_, fun id' c hc => ?_, fun i j c c' hc hc' he => ?_, fun k v hv => ?_⟩
  · by_cases hne : id' = id
    · subst hne
      refine .opened (req, w.next) .pending ?_ ?_ ?_ ha hl ?_ nofun
      · simp [view, doSso]
      · simp [view, doSso]
      · simp [view, doSso]
      · show w.aliveWaits id' ≤ 1
        omega
    · have hview : (w.doSso id req).view id' = w.view id' := by
        have : (w.created id').map (fun c => Function.update w.futures w.next .pending c.2) =
            (w.created id').map (fun c => w.futures c.2) := by
          cases hc : w.created id' with
          | none => rfl
          | some c => simp only [Option.map_some, hfut id' c hc]
        unfold view
        simp only [doSso, Function.update_of_ne hne, this]
        rfl
      rw [hview]
      exact h.session id'
  · show c.2 < w.next + 1
    by_cases hne : id' = id
    · subst hne
      obtain rfl : (req, w.next) = c := by simpa [doSso] using hc
      exact Nat.lt_succ_self _
    · have := h.lt id' c (by simpa [doSso, hne] using hc)
      omega
  · -- the new future is no other session's
    have hnew : ∀ i c, i ≠ id → (w.doSso id req).created i = some c → c.2 < w.next := by
      intro i c hi hc
      exact h.lt i c (by simpa [doSso, hi] using hc)
    by_cases hi : i = id
    · by_cases hj : j = id
      · rw [hi, hj]
      · obtain rfl : (req, w.next) = c := by simpa [doSso, hi] using hc
        have := hnew j c' hj hc'
        dsimp only at he
        omega
    · by_cases hj : j = id
      · obtain rfl : (req, w.next) = c' := by simpa [doSso, hj] using hc'
        have := hnew i c hi hc
        dsimp only at he
        omega
      · exact h.inj i j c c' (by simpa [doSso, hi] using hc) (by simpa [doSso, hj] using hc') he
  · have hv' := h.wait k v hv
    have hne : v.waiterId ≠ id := by
      rintro rfl
      rw [hv'.created] at hid
      cases hid
    exact hv'.mono (by simp [doSso, hne]) (hfut _ _ hv'.created) (Nat.le_refl _)

/-- The only change `complete_sso` makes: the first token of an open session. -/
theorem completeSso_cases (w : Sso R T) (id : WaiterId) (token : Option T) :
    (w.completeSso id token).1 = w ∨ ∃ c t, w.ssoWaiters id = some c ∧
      w.futures c.2 = .pending ∧ (w.completeSso id token).1 =
        { w with futures  := Function.update w.futures c.2 (.result t),
                 accepted := Function.update w.accepted id (w.accepted id ++ [t]) } := by
  unfold completeSso
  cases he : w.ssoWaiters id with
  | none => exact .inl rfl
  | some c =>
    cases hf : w.futures c.2 with
    | cancelled => left; simp only [hf]
    | result t => left; simp only [hf]
    | pending =>
      cases token with
      | none => left; simp only [hf]
      | some t => exact .inr ⟨c, t, rfl, hf, by simp only [hf]⟩

/-- Neither does a completion, with or without a token. -/
theorem orderly_complete (h : Orderly w) (id : WaiterId) (token : Option T) :
    Orderly (w.completeSso id token).1 := by
  rcases completeSso_cases w id token with he | ⟨c, t, hentry, hpending, he⟩
  · rw [he]
    exact h
  rw [he]
  -- the entry belongs to the session that created it
  have hc : w.created id = some c := (h.session id).created_of_entry hentry
  refine h.of_session id rfl rfl ?_ (fun id' hne => ?_) (fun k v hv => ?_)
  · cases h.session id with
    | absent _ he => rw [show w.ssoWaiters id = none from he] at hentry; cases hentry
    | popped _ _ _ _ he => rw [show w.ssoWaiters id = none from he] at hentry; cases hentry
    | opened c' f hc' hf hopen ha hl hn =>
      obtain rfl : c' = c := Option.some.inj (hc'.symm.trans hc)
      have hf' : some (w.futures c'.2) = some f := by
        rw [← hf]
        simp [view, hc]
      rw [hpending] at hf'
      obtain rfl := Option.some.inj hf'
      refine .opened c' (.result t) hc' ?_ hopen ?_ hl hn nofun
      · simp [view, hc]
      · simp [view, show w.accepted id = [] from ha, tokens]
  · rw [← view_setFuture_ne h hc hne (.result t)]
    simp [view, hne]
    rfl
  · have hv' := h.wait k v hv
    by_cases hid : v.waiterId = id
    · subst hid
      obtain rfl : (v.req, v.fut) = c := Option.some.inj (hv'.created.symm.trans hc)
      refine ⟨hv'.created, fun _ hx => ?_, fun hp hm => ?_, hv'.own⟩
      · simp at hx
      · obtain ⟨-, ⟨t', ht'⟩, -⟩ := hv'.must hp hm
        rw [show w.futures v.fut = .pending from hpending] at ht'
        cases ht'
    · refine hv'.of_view ?_
      rw [← view_setFuture_ne h hc hid (.result t)]
      simp [view, hid]
      rfl

/-- A wait of the session that the step leaves as it is. -/
theorem Orderly.wait_of_le {w' : Sso R T} (h : Orderly w) (id : WaiterId)
    (hc : w'.created = w.created) (hf : w'.futures = w.futures)
    (ha : w'.aliveWaits id ≤ w.aliveWaits id)
    (hne : ∀ id', id' ≠ id → w'.view id' = w.view id') (hv : w.waits[k]? = some v) :
    WaitOk w' v := by
  have hv' := h.wait k v hv
  by_cases hid : v.waiterId = id
  · exact hv'.mono (by rw [hc]) (by rw [hf]) (by rw [hid]; exact ha)
  · exact hv'.of_view (hne _ hid)

/-- The session of a wait, once that has ended without a login. -/
theorem View.Ok.popped_of {s : View R T} (h : s.Ok) (hc : s.created ≠ none)
    (n : Nat) (hn : n = 0) : ({ s with entry := none, alive := n } : View R T).Ok := by
  cases h with
  | absent hc' => exact absurd hc' hc
  | opened c f hc hf he ha hl => exact .popped c f hc hf rfl ha hn (.inl hl)
  | popped c f hc hf he ha hn' hl => exact .popped c f hc hf rfl ha hn hl

/-- The future that is seen is that of the waiter. -/
theorem view_future (hc : w.created id = some c) :
    (w.view id).future = some (w.futures c.2) := by
  unfold view
  dsimp only
  rw [hc]
  rfl

/-- The session of a wait that would go on with what the future gives. -/
theorem Orderly.opened_of_alive (h : Orderly w) (hk : w.waits[k]? = some v)
    (halive : v.alive v.waiterId = true) :
    w.ssoWaiters v.waiterId = some (v.req, v.fut) ∧
    w.accepted v.waiterId = tokens (w.futures v.fut) ∧ w.logins v.waiterId = [] ∧
    w.aliveWaits v.waiterId = 1 := by
  have hcreated := (h.wait k v hk).created
  obtain ⟨c, f, hc, hf, hentry, ha, hl, hone⟩ := (h.session v.waiterId).entry_of_alive
    (aliveWaits_pos hk halive)
  obtain rfl : (v.req, v.fut) = c := Option.some.inj (hcreated.symm.trans hc)
  obtain rfl : w.futures v.fut = f := Option.some.inj ((view_future hcreated).symm.trans hf)
  exact ⟨hentry, ha, hl, hone⟩

/-- A wait that no longer goes on with what the future gives: no wait of its session does. -/
theorem Orderly.aliveWaits_setWait_eq_zero (h : Orderly w) (hk : w.waits[k]? = some v)
    {w₁ : Sso R T} (hwaits : w₁.waits = w.waits) (hdead : v'.alive v.waiterId = false)
    (hz : v.alive v.waiterId = false → w.aliveWaits v.waiterId = 0) :
    (w₁.setWait k v').aliveWaits v.waiterId = 0 := by
  have hcount := aliveWaits_setWait (w := w₁) (by rw [hwaits]; exact hk) v' v.waiterId
  have hsame : w₁.aliveWaits v.waiterId = w.aliveWaits v.waiterId := by
    unfold aliveWaits
    rw [hwaits]
  rw [hdead, hsame] at hcount
  cases halive : v.alive v.waiterId with
  | false =>
    have := hz halive
    simp only [halive, Bool.toNat_false] at hcount
    omega
  | true =>
    obtain ⟨-, -, -, hone⟩ := h.opened_of_alive hk halive
    simp only [halive, Bool.toNat_true, Bool.toNat_false] at hcount
    omega

/-- An awaiting wait counts, but for one whose task is cancelled with the token there. -/
theorem WaitOk.zero_of_dead (h : WaitOk w v) (hp : v.phase = .awaiting)
    (hdead : v.alive v.waiterId = false) : w.aliveWaits v.waiterId = 0 := by
  by_cases hm : v.mustCancel = true
  · exact (h.must hp hm).2.2
  · rw [alive_of_awaiting hp (by simpa using hm)] at hdead
    cases hdead

/-- A wait that ends cancelled leaves no entry. -/
theorem orderly_endCancelled (h : Orderly w) (hk : w.waits[k]? = some v) (hp : v.phase = .awaiting)
    (hor : v.mustCancel = true ∨ w.futures v.fut = .cancelled) :
    Orderly ((w.pop v.waiterId).setWait k { v with phase := .cancelled }) := by
  have hv := h.wait k v hk
  let v' : Wait R T := { v with phase := .cancelled }
  let w' : Sso R T := (w.pop v.waiterId).setWait k v'
  have hrequested : v.requested = true := by
    rcases hor with hm | hx
    · exact (hv.must hp hm).1
    · exact hv.cancelled hp hx
  have hzero : w'.aliveWaits v.waiterId = 0 :=
    h.aliveWaits_setWait_eq_zero hk rfl (by simp [v', Wait.alive]) (hv.zero_of_dead hp)
  have hne : ∀ id', id' ≠ v.waiterId → w'.view id' = w.view id' := by
    intro id' hne
    exact (view_setWait_ne (w := w.pop v.waiterId) hk v' (Ne.symm hne) (Ne.symm hne)).trans
      (view_pop_ne hne)
  show Orderly w'
  refine h.of_session v.waiterId rfl rfl ?_ hne
    (Tasks.forall_getElem_set (fun j u _ hu => ?_) ?_)
  · have hview : w'.view v.waiterId =
        { w.view v.waiterId with entry := none, alive := w'.aliveWaits v.waiterId } := by
      rw [view_setWait, view_pop_self]
    rw [hview]
    refine (h.session v.waiterId).popped_of ?_ _ hzero
    rw [show (w.view v.waiterId).created = some (v.req, v.fut) from hv.created]
    nofun
  · exact h.wait_of_le v.waiterId rfl rfl (by omega) hne hu
  · exact ⟨hv.created, nofun, nofun, fun _ => hrequested⟩

/-- A wait that has its token logs in once. -/
theorem orderly_logIn (h : Orderly w) (hk : w.waits[k]? = some v) (hp : v.phase = .awaiting)
    (hm : v.mustCancel = false) {t : T} (hf : w.futures v.fut = .result t) :
    Orderly (((w.pop v.waiterId).doLogin v.waiterId v.req t).setWait k
      { v with phase := .loggingIn t }) := by
  have hv := h.wait k v hk
  let v' : Wait R T := { v with phase := .loggingIn t }
  let w₁ : Sso R T := (w.pop v.waiterId).doLogin v.waiterId v.req t
  let w' : Sso R T := w₁.setWait k v'
  obtain ⟨-, ha, hl, -⟩ := h.opened_of_alive hk (alive_of_awaiting hp hm)
  -- nobody else waits for the session any more
  have hzero : w'.aliveWaits v.waiterId = 0 :=
    h.aliveWaits_setWait_eq_zero hk rfl (by simp [v', Wait.alive]) (hv.zero_of_dead hp)
  -- and the other sessions are as they were
  have hne : ∀ id', id' ≠ v.waiterId → w'.view id' = w.view id' := by
    intro id' hne
    exact (view_setWait_ne (w := w₁) hk v' (Ne.symm hne) (Ne.symm hne)).trans
      ((view_doLogin_ne v.req t hne).trans (view_pop_ne hne))
  show Orderly w'
  refine h.of_session v.waiterId rfl rfl ?_ hne
    (Tasks.forall_getElem_set (fun j u _ hu => ?_) ?_)
  · have hview : w'.view v.waiterId =
        { w.view v.waiterId with entry := none, logins := w.logins v.waiterId ++ [(v.req, t)],
                                 alive := w'.aliveWaits v.waiterId } := by
      rw [view_setWait, view_doLogin_self, view_pop_self]
      rfl
    rw [hview]
    refine .popped (v.req, v.fut) (w.futures v.fut) hv.created (view_future hv.created) rfl ha
      hzero (.inr ⟨t, ?_, hf⟩)
    show w.logins v.waiterId ++ _ = _
    rw [hl]
    rfl
  · exact h.wait_of_le v.waiterId rfl rfl (by omega) hne hu
  · exact ⟨hv.created, nofun, nofun, nofun⟩

/-- Hence a wait that runs on keeps the server orderly. -/
theorem orderly_resume (h : Orderly w) (hk : w.waits[k]? = some v) (hp : v.phase = .awaiting) :
    Orderly ((w.goOn v).1.setWait k (w.goOn v).2) := by
  rcases goOn_cases w v with ⟨-, -, he⟩ | ⟨hor, he⟩ | ⟨t, hm, hf, he⟩
  · -- it waits on
    rw [he]
    show Orderly (w.setWait k v)
    rw [setWait_self hk]
    exact h
  · rw [he]
    exact orderly_endCancelled h hk hp hor
  · rw [he]
    exact orderly_logIn h hk hp hm hf

/-- A wait is not seen under other ids, whatever it does first. -/
theorem view_addWait_of_ne {w₁ : Sso R T} (h₁ : ∀ id', id' ≠ id → w₁.view id' = w.view id')
    (hid : v.waiterId = id) : ∀ id', id' ≠ id → (w₁.addWait v).view id' = w.view id' :=
  fun id' hne => (view_addWait_ne (by rw [hid]; exact Ne.symm hne)).trans (h₁ id' hne)

/-- The first wait of a session whose token has not come. -/
theorem orderly_await (h : Orderly w) {c : R × Nat} (hc : w.created id = some c)
    (hentry : w.ssoWaiters id = some c) (ha : w.accepted id = []) (hl : w.logins id = [])
    (hnone : w.aliveWaits id = 0) (hpending : w.futures c.2 = .pending) :
    Orderly (w.addWait { waiterId := id, req := c.1, fut := c.2 }) := by
  let v : Wait R T := { waiterId := id, req := c.1, fut := c.2 }
  have hother : ∀ id', id' ≠ id → (w.addWait v).view id' = w.view id' :=
    view_addWait_of_ne (fun _ _ => rfl) rfl
  refine h.of_session id rfl rfl ?_ hother (Tasks.forall_getElem_concat (fun j u hu => ?_) ?_)
  · rw [view_addWait, hnone]
    refine .opened c .pending hc ?_ hentry ha hl ?_ nofun
    · rw [← hpending]
      exact view_future hc
    · exact (Nat.zero_add _).trans_le (Bool.toNat_le _)
  · have hu' := h.wait j u hu
    -- an earlier request for the session waits for the same future, which is pending
    by_cases huid : u.waiterId = id
    · have hfut : (u.req, u.fut) = c :=
        Option.some.inj (hu'.created.symm.trans (by rw [huid]; exact hc))
      have hp : w.futures u.fut = .pending := by
        rw [show u.fut = c.2 from congrArg Prod.snd hfut]
        exact hpending
      refine ⟨hu'.created, fun _ hx => ?_, fun hpa hm => ?_, hu'.own⟩
      · rw [show w.futures u.fut = .cancelled from hx] at hp
        cases hp
      · obtain ⟨-, ⟨t, ht⟩, -⟩ := hu'.must hpa hm
        rw [ht] at hp
        cases hp
    · exact hu'.of_view (hother _ huid)
  · refine ⟨hc, fun _ hx => ?_, fun _ hm => ?_, nofun⟩
    · rw [show w.futures c.2 = .cancelled from hx] at hpending
      cases hpending
    · cases hm

/-- The first wait of a session whose token is there logs in at once. -/
theorem orderly_logInNow (h : Orderly w) {c : R × Nat} (hc : w.created id = some c) {t : T}
    (ha : w.accepted id = [t]) (hl : w.logins id = []) (hnone : w.aliveWaits id = 0)
    (hresult : w.futures c.2 = .result t) :
    Orderly (((w.pop id).doLogin id c.1 t).addWait
      { waiterId := id, req := c.1, fut := c.2, phase := .loggingIn t }) := by
  let v : Wait R T := { waiterId := id, req := c.1, fut := c.2, phase := .loggingIn t }
  let w₁ : Sso R T := (w.pop id).doLogin id c.1 t
  have hother : ∀ id', id' ≠ id → (w₁.addWait v).view id' = w.view id' :=
    view_addWait_of_ne (fun _ hne => (view_doLogin_ne c.1 t hne).trans (view_pop_ne hne)) rfl
  have hcount : (w₁.addWait v).aliveWaits id = 0 :=
    (aliveWaits_addWait w₁ v id).trans (by rw [show w₁.aliveWaits id = 0 from hnone]; rfl)
  have hview : w₁.view id =
      { w.view id with entry := none, logins := w.logins id ++ [(c.1, t)] } := by
    rw [view_doLogin_self, view_pop_self]
    rfl
  show Orderly (w₁.addWait v)
  refine h.of_session id rfl rfl ?_ hother (Tasks.forall_getElem_concat (fun j u hu => ?_) ?_)
  · rw [view_addWait, hview]
    refine .popped c (.result t) hc ?_ rfl ha ?_ (.inr ⟨t, ?_, rfl⟩)
    · rw [← hresult]
      exact view_future hc
    · exact (aliveWaits_addWait w₁ v id).symm.trans hcount
    · show w.logins id ++ _ = _
      rw [hl]
      rfl
  · exact h.wait_of_le id rfl rfl (by omega) hother hu
  · exact ⟨hc, nofun, nofun, nofun⟩

/-- A wait that starts alone awaits the token, or has it already. -/
theorem orderly_wait (h : Orderly w) {c : R × Nat} (hentry : w.ssoWaiters id = some c)
    (halone : ∀ v ∈ w.waits, v.alive id = false) :
    Orderly ((w.goOn { waiterId := id, req := c.1, fut := c.2 }).1.addWait
      (w.goOn { waiterId := id, req := c.1, fut := c.2 }).2) := by
  let v : Wait R T := { waiterId := id, req := c.1, fut := c.2 }
  have hc : w.created id = some c := (h.session id).created_of_entry hentry
  have hnone : w.aliveWaits id = 0 := aliveWaits_eq_zero halone
  cases h.session id with
  | absent _ he => rw [show w.ssoWaiters id = none from he] at hentry; cases hentry
  | popped _ _ _ _ he => rw [show w.ssoWaiters id = none from he] at hentry; cases hentry
  | opened c' f hc' hf hopen ha hl hn hx =>
    obtain rfl : c' = c := Option.some.inj (hc'.symm.trans hc)
    obtain rfl : w.futures c'.2 = f := Option.some.inj ((view_future hc).symm.trans hf)
    have ha' : w.accepted id = tokens (w.futures c'.2) := ha
    show Orderly ((w.goOn v).1.addWait (w.goOn v).2)
    rcases goOn_cases w v with ⟨-, hpending, he⟩ | ⟨hor, he⟩ | ⟨t, -, hresult, he⟩
    · rw [he]
      rw [show w.futures c'.2 = .pending from hpending] at ha'
      exact orderly_await h hc hentry ha' hl hnone hpending
    · -- the future is cancelled, so a cancelled wait of the session is still there
      have hcancelled : w.futures c'.2 = .cancelled := hor.resolve_left nofun
      have hone : w.aliveWaits id = 1 := hx hcancelled
      omega
    · rw [he]
      rw [show w.futures c'.2 = .result t from hresult] at ha'
      exact orderly_logInNow h hc ha' hl hnone hresult

/-- What `task.cancel()` changes. -/
theorem cancelWait_cases (w : Sso R T) (v : Wait R T) :
    (v.phase ≠ .awaiting ∧ w.cancelWait v = (w, v)) ∨ v.phase = .awaiting ∧
    ((w.futures v.fut = .pending ∧ w.cancelWait v =
        ({ w with futures := Function.update w.futures v.fut .cancelled },
         { v with requested := true })) ∨
      (w.futures v.fut = .cancelled ∧ w.cancelWait v = (w, { v with requested := true })) ∨
      ∃ t, w.futures v.fut = .result t ∧ w.cancelWait v =
        (w, { v with requested := true, mustCancel := true })) := by
  cases hp : v.phase with
  | awaiting =>
    right
    refine ⟨rfl, ?_⟩
    cases hf : w.futures v.fut with
    | pending => exact .inl ⟨rfl, by simp only [cancelWait, hp, hf]⟩
    | cancelled => exact .inr (.inl ⟨rfl, by simp only [cancelWait, hp, hf]⟩)
    | result t => exact .inr (.inr ⟨t, rfl, by simp only [cancelWait, hp, hf]⟩)
  | cancelled => exact .inl ⟨nofun, by simp only [cancelWait, hp]⟩
  | loggingIn t => exact .inl ⟨nofun, by simp only [cancelWait, hp]⟩

/-- Two waits that both await a future would both count. -/
theorem Orderly.not_awaiting (h : Orderly w) (hk : w.waits[k]? = some v)
    (halive : v.alive v.waiterId = true) (hf : w.futures v.fut = .pending) {j : Nat}
    (hj : w.waits[j]? = some v') (hne : j ≠ k) (hid : v'.waiterId = v.waiterId) :
    v'.phase ≠ .awaiting := by
  intro hp
  have hv' := h.wait j v' hj
  have hfut : v'.fut = v.fut := by
    have hc := hv'.created
    rw [hid, (h.wait k v hk).created] at hc
    exact congrArg Prod.snd (Option.some.inj hc).symm
  have hm : v'.mustCancel = false := by
    by_contra hm
    obtain ⟨-, ⟨t, ht⟩, -⟩ := hv'.must hp (by simpa using hm)
    rw [hfut, hf] at ht
    cases ht
  have halive' : v'.alive v.waiterId = true := by
    rw [← hid]
    exact alive_of_awaiting hp hm
  have htwo := Tasks.add_le_total (fun u : Wait R T => (u.alive v.waiterId).toNat) hj hk hne
  simp only [halive', halive, Bool.toNat_true] at htwo
  have hone : w.aliveWaits v.waiterId = 1 := (h.opened_of_alive hk halive).2.2.2
  unfold aliveWaits at hone
  omega

/-- The future is cancelled, and no other wait awaits it. -/
theorem orderly_cancelFuture (h : Orderly w) (hk : w.waits[k]? = some v) (hp : v.phase = .awaiting)
    (hf : w.futures v.fut = .pending) :
    Orderly (({ w with futures := Function.update w.futures v.fut .cancelled } : Sso R T).setWait k
      { v with requested := true }) := by
  have hv := h.wait k v hk
  let v' : Wait R T := { v with requested := true }
  let w₁ : Sso R T := { w with futures := Function.update w.futures v.fut .cancelled }
  have hm : v.mustCancel = false := by
    by_contra hm
    obtain ⟨-, ⟨t, ht⟩, -⟩ := hv.must hp (by simpa using hm)
    rw [hf] at ht
    cases ht
  have halive := alive_of_awaiting hp hm
  obtain ⟨hentry, ha, hl, hone⟩ := h.opened_of_alive hk halive
  rw [hf] at ha
  have hcount : (w₁.setWait k v').aliveWaits v.waiterId = 1 := by
    have hset := aliveWaits_setWait (w := w₁) hk v' v.waiterId
    rw [halive, show v'.alive v.waiterId = true from halive,
      show w₁.aliveWaits v.waiterId = 1 from hone] at hset
    exact Nat.succ.inj hset
  -- other waiter ids see neither the future nor the wait
  have hne : ∀ id', id' ≠ v.waiterId → (w₁.setWait k v').view id' = w.view id' := by
    intro id' hne
    exact (view_setWait_ne (w := w₁) hk v' (Ne.symm hne) (Ne.symm hne)).trans
      (view_setFuture_ne h hv.created hne .cancelled)
  show Orderly (w₁.setWait k v')
  refine h.of_session v.waiterId rfl rfl ?_ hne
    (Tasks.forall_getElem_set (fun j u hj hu => ?_) ?_)
  · refine .opened (v.req, v.fut) .cancelled hv.created ?_ hentry ha hl ?_ (fun _ => hcount)
    · simp [view, setWait, w₁, hv.created]
    · exact Nat.le_of_eq hcount
  · have hu' := h.wait j u hu
    by_cases huid : u.waiterId = v.waiterId
    · have hnot := h.not_awaiting hk halive hf hu hj huid
      exact ⟨hu'.created, fun hup => absurd hup hnot, fun hup => absurd hup hnot, hu'.own⟩
    · exact hu'.of_view (hne _ huid)
  · refine ⟨hv.created, fun _ _ => rfl, fun _ hm' => ?_, fun _ => rfl⟩
    rw [show v'.mustCancel = false from hm] at hm'
    cases hm'

/-- The future is cancelled already. -/
theorem orderly_cancelAgain (h : Orderly w) (hk : w.waits[k]? = some v) (hp : v.phase = .awaiting)
    (hf : w.futures v.fut = .cancelled) : Orderly (w.setWait k { v with requested := true }) := by
  have hv := h.wait k v hk
  let v' : Wait R T := { v with requested := true }
  have hsame : ∀ id, (w.setWait k v').aliveWaits id = w.aliveWaits id := by
    intro id
    have hcount := aliveWaits_setWait hk v' id
    rw [show v'.alive id = v.alive id from rfl] at hcount
    exact Nat.add_right_cancel hcount
  have hview : ∀ id, (w.setWait k v').view id = w.view id := by
    intro id
    rw [view_setWait, hsame]
    rfl
  show Orderly (w.setWait k v')
  refine h.of_session v.waiterId rfl rfl ?_ (fun id _ => hview id)
    (Tasks.forall_getElem_set (fun j u _ hu => (h.wait j u hu).of_view (hview _)) ?_)
  · rw [hview]
    exact h.session _
  · refine ⟨hv.created, fun _ _ => rfl, fun _ hm => ?_, fun _ => rfl⟩
    obtain ⟨-, ⟨t, ht⟩, -⟩ := hv.must hp hm
    rw [hf] at ht
    cases ht

/-- The token has arrived, but the task will end cancelled. -/
theorem orderly_cancelToken (h : Orderly w) (hk : w.waits[k]? = some v) (hp : v.phase = .awaiting)
    {t : T} (hf : w.futures v.fut = .result t) :
    Orderly (w.setWait k { v with requested := true, mustCancel := true }) := by
  have hv := h.wait k v hk
  let v' : Wait R T := { v with requested := true, mustCancel := true }
  let w' : Sso R T := w.setWait k v'
  -- this request is the one that waits, and it is cancelled
  have hzero : w'.aliveWaits v.waiterId = 0 :=
    h.aliveWaits_setWait_eq_zero hk rfl (by simp [v', Wait.alive, hp]) (hv.zero_of_dead hp)
  have hne : ∀ id', id' ≠ v.waiterId → w'.view id' = w.view id' := by
    intro id' hne
    exact view_setWait_ne hk v' (Ne.symm hne) (Ne.symm hne)
  show Orderly w'
  refine h.of_session v.waiterId rfl rfl ?_ hne (Tasks.forall_getElem_set
    (fun j u _ hu => h.wait_of_le v.waiterId rfl rfl (by omega) hne hu) ?_)
  · have hview : w'.view v.waiterId = { w.view v.waiterId with alive := 0 } := by
      rw [← hzero]
      rfl
    rw [hview]
    cases h.session v.waiterId with
    -- a session that a request waits for was created
    | absent hc =>
      have hcreated := hv.created
      rw [show w.created v.waiterId = none from hc] at hcreated
      cases hcreated
    | popped c f hc hf he ha hn hl => exact .popped c f hc hf he ha rfl hl
    | opened c f hc hf' he ha hl hn hx =>
      refine .opened c f hc hf' he ha hl (Nat.zero_le 1) (fun hcancelled => ?_)
      have hfuture := Option.some.inj ((view_future hv.created).symm.trans hf')
      rw [hf, hcancelled] at hfuture
      cases hfuture
  · exact ⟨hv.created, fun _ _ => rfl, fun _ _ => ⟨rfl, ⟨t, hf⟩, hzero⟩, fun _ => rfl⟩

/-- A wait may be cancelled at any time. -/
theorem orderly_cancel (h : Orderly w) (hk : w.waits[k]? = some v) :
    Orderly ((w.cancelWait v).1.setWait k (w.cancelWait v).2) := by
  rcases cancelWait_cases w v with ⟨-, he⟩ | ⟨hp, ⟨hf, he⟩ | ⟨hf, he⟩ | ⟨t, hf, he⟩⟩
  · rw [he]
    show Orderly (w.setWait k v)
    rw [setWait_self hk]
    exact h
  · rw [he]
    exact orderly_cancelFuture h hk hp hf
  · rw [he]
    exact orderly_cancelAgain h hk hp hf
  · rw [he]
    exact orderly_cancelToken h hk hp hf

/-- Every step that is distinct and alone keeps the server orderly. -/
theorem orderly_step (h : Orderly w) (e : Event R T) (hd : Distinct w e) (ha : Alone w e) :
    Orderly (step e w) := by
  cases e with
  | doSso id req supported =>
    cases supported with
    | true => exact orderly_doSso h req (hd id req rfl)
    | false => exact h
  | complete id token => exact orderly_complete h id token
  | wait id =>
    simp only [step]
    cases hentry : w.ssoWaiters id with
    | none => exact h
    | some c => exact orderly_wait h hentry (ha id rfl)
  | resume k =>
    simp only [step]
    cases hk : w.waits[k]? with
    | none => exact h
    | some v =>
      dsimp only
      cases hp : v.phase with
      | awaiting => exact orderly_resume h hk hp
      | cancelled => exact h
      | loggingIn t => exact h
  | cancel k =>
    simp only [step]
    cases hk : w.waits[k]? with
    | none => exact h
    | some v => exact orderly_cancel h hk

/-- The runs in which ids are distinct and every wait starts alone. -/
def AloneRun (w : Sso R T) : Prop := Reach step (fun w e => Distinct w e ∧ Alone w e) {} w

/-- So does a run of such steps. -/
theorem AloneRun.orderly (h : AloneRun w) : Orderly w :=
  Reach.invariant orderly_new (fun _ e hw he => orderly_step hw e he.1 he.2) h

/-- A wait that goes on sets no future. -/
theorem futures_goOn (w : Sso R T) (v : Wait R T) : (w.goOn v).1.futures = w.futures := by
  rcases goOn_cases w v with ⟨-, -, he⟩ | ⟨-, he⟩ | ⟨t, -, -, he⟩ <;> rw [he] <;> rfl

/-- A future keeps its token, whatever is requested later. -/
theorem futures_result_step (h : Orderly w) (e : Event R T) {c : R × Nat} {t : T}
    (hc : w.created id = some c) (hf : w.futures c.2 = .result t) :
    (step e w).futures c.2 = .result t := by
  -- nothing overwrites a future that is not pending
  have hupdate : ∀ fut, w.futures fut = .pending → ∀ f : Future T,
      Function.update w.futures fut f c.2 = .result t := by
    intro fut hpending f
    refine (Function.update_of_ne ?_ _ _).trans hf
    rintro rfl
    rw [hf] at hpending
    cases hpending
  cases e with
  | doSso id' req supported =>
    cases supported with
    | true => exact (Function.update_of_ne (Nat.ne_of_lt (h.lt id c hc)) _ _).trans hf
    | false => exact hf
  | complete id' token =>
    show (w.completeSso id' token).1.futures c.2 = _
    rcases completeSso_cases w id' token with he | ⟨c', t', -, hpending, he⟩
    · rw [he]
      exact hf
    · rw [he]
      exact hupdate c'.2 hpending _
  | wait id' =>
    simp only [step]
    cases w.ssoWaiters id' with
    | none => exact hf
    | some c' => exact (congrFun (futures_goOn w _) c.2).trans hf
  | resume k =>
    simp only [step]
    cases w.waits[k]? with
    | none => exact hf
    | some v =>
      dsimp only
      cases v.phase with
      | awaiting => exact (congrFun (futures_goOn w v) c.2).trans hf
      | cancelled => exact hf
      | loggingIn t => exact hf
  | cancel k =>
    simp only [step]
    cases w.waits[k]? with
    | none => exact hf
    | some v =>
      show (w.cancelWait v).1.futures c.2 = _
      rcases cancelWait_cases w v with ⟨-, he⟩ | ⟨-, ⟨hp, he⟩ | ⟨-, he⟩ | ⟨t', -, he⟩⟩
      · rw [he]
        exact hf
      · rw [he]
        exact hupdate v.fut hp _
      · rw [he]
        exact hf
      · rw [he]
        exact hf

/-! ### A wait that starts beside another -/

/-- A wait for a known id goes on at once, -/
theorem step_wait {c : R × Nat} (h : w.ssoWaiters id = some c) : step (.wait id) w =
    (w.goOn { waiterId := id, req := c.1, fut := c.2 }).1.addWait
      (w.goOn { waiterId := id, req := c.1, fut := c.2 }).2 := by
  simp only [step, h]

/-- or later, -/
theorem step_resume (hk : w.waits[k]? = some v) (hp : v.phase = .awaiting) :
    step (.resume k) w = (w.goOn v).1.setWait k (w.goOn v).2 := by
  simp only [step, hk, hp]

/-- or is cancelled. -/
theorem step_cancel (hk : w.waits[k]? = some v) :
    step (.cancel k) w = (w.cancelWait v).1.setWait k (w.cancelWait v).2 := by
  simp only [step, hk]

/-- Cancelling the earlier wait cancels the later one. -/
theorem cancel_spreads (w : Sso R T) (hk : w.waits[k]? = some v) (hp : v.phase = .awaiting)
    (hf : w.futures v.fut = .pending) {j : Nat} (hj : w.waits[j]? = some v') (hjk : k ≠ j)
    (hp' : v'.phase = .awaiting) (hfut : v'.fut = v.fut) (hr : v'.requested = false) :
    ¬ Kept (step (.resume j) (step (.cancel k) w)) := by
  intro hkept
  have hcancel : w.cancelWait v =
      ({ w with futures := Function.update w.futures v.fut .cancelled },
       { v with requested := true }) := by
    simp only [cancelWait, hp, hf]
  rw [step_cancel hk, hcancel] at hkept
  let w₁ : Sso R T := ({ w with futures := Function.update w.futures v.fut .cancelled } :
    Sso R T).setWait k { v with requested := true }
  have hj₁ : w₁.waits[j]? = some v' := (List.getElem?_set_ne hjk).trans hj
  -- the future that the other request waits for is cancelled,
  have hcancelled : w₁.futures v'.fut = .cancelled := by
    rw [hfut]
    exact Function.update_self _ _ _
  -- so it is cancelled when it goes on,
  have hgo : w₁.goOn v' = (w₁.pop v'.waiterId, { v' with phase := .cancelled }) := by
    rcases goOn_cases w₁ v' with ⟨-, hx, -⟩ | ⟨-, he⟩ | ⟨t, -, hx, -⟩
    · rw [hcancelled] at hx
      cases hx
    · exact he
    · rw [hcancelled] at hx
      cases hx
  rw [show step (.resume j) _ = (w₁.goOn v').1.setWait j (w₁.goOn v').2 from
    step_resume hj₁ hp', hgo] at hkept
  have hlt : j < w₁.waits.length := (List.getElem?_eq_some_iff.mp hj₁).1
  have hmem : ({ v' with phase := .cancelled } : Wait R T) ∈
      ((w₁.pop v'.waiterId).setWait j { v' with phase := .cancelled }).waits :=
    List.mem_iff_getElem?.mpr ⟨j, List.getElem?_set_self hlt⟩
  -- though nobody had asked for that
  have := hkept.own _ hmem rfl
  rw [show ({ v' with phase := .cancelled } : Wait R T).requested = false from hr] at this
  cases this

/-- **Beside another wait**, some continuation breaks the session. -/
theorem not_kept_of_not_alone (h : Orderly w) (hn : ¬ Alone w (.wait id)) :
    ∃ es : List (Event R T), ¬ Kept (es.foldl (fun w e => step e w) (step (.wait id) w)) := by
  obtain ⟨v, hv, halive⟩ : ∃ v ∈ w.waits, v.alive id = true := by
    by_contra hno
    refine hn fun id' he v hv => ?_
    obtain rfl : id = id' := by injection he
    by_contra halive
    exact hno ⟨v, hv, by simpa using halive⟩
  -- an earlier request waits for the same future
  obtain ⟨k, hk⟩ := List.mem_iff_getElem?.mp hv
  obtain ⟨rfl, hp, hm⟩ := alive_eq_true halive
  have hok := h.wait k v hk
  obtain ⟨c, f, hc, -, hentry, -, hl, -⟩ := (h.session v.waiterId).entry_of_alive
    (aliveWaits_pos hk halive)
  obtain rfl : (v.req, v.fut) = c := Option.some.inj (hok.created.symm.trans hc)
  let v₂ : Wait R T := { waiterId := v.waiterId, req := v.req, fut := v.fut }
  have hstep : step (.wait v.waiterId) w = (w.goOn v₂).1.addWait (w.goOn v₂).2 :=
    step_wait hentry
  have hlt : k < w.waits.length := (List.getElem?_eq_some_iff.mp hk).1
  -- what the new request finds decides how the two come into each other's way
  rcases goOn_cases w v₂ with ⟨-, hpending, he⟩ | ⟨hor, he⟩ | ⟨t, -, hresult, he⟩
  · -- the earlier wait is cancelled
    refine ⟨[.cancel k, .resume w.waits.length], ?_⟩
    rw [hstep, he]
    have hlast : (w.addWait v₂).waits[w.waits.length]? = some v₂ := by simp [addWait]
    refine cancel_spreads (w.addWait v₂) ?_ hp hpending hlast (Nat.ne_of_lt hlt) rfl rfl rfl
    exact (List.getElem?_append_left hlt).trans hk
  · -- the future is cancelled already
    refine ⟨[], fun hkept => ?_⟩
    rw [List.foldl_nil, hstep, he] at hkept
    have := hkept.own { v₂ with phase := .cancelled } (by simp [addWait, pop]) rfl
    cases this
  · -- both log in
    refine ⟨[.resume k], fun hkept => ?_⟩
    rw [List.foldl_cons, List.foldl_nil, hstep, he] at hkept
    let w₁ : Sso R T := ((w.pop v.waiterId).doLogin v.waiterId v.req t).addWait
      { v₂ with phase := .loggingIn t }
    have hk₁ : w₁.waits[k]? = some v := (List.getElem?_append_left hlt).trans hk
    have hgo : w₁.goOn v = ((w₁.pop v.waiterId).doLogin v.waiterId v.req t,
        { v with phase := .loggingIn t }) := by
      simp only [goOn, hm, show w₁.futures v.fut = .result t from hresult, awaited]
    rw [show step (.resume k) _ = (w₁.goOn v).1.setWait k (w₁.goOn v).2 from
      step_resume hk₁ hp, hgo] at hkept
    have := hkept.once v.waiterId
    simp [setWait, doLogin, pop, w₁, addWait] at this

/-- **SSO logins.**  In every run whose waits start alone, each session logs in at most once,
    with its own request and the first token that was accepted, which no later request
    replaces, and no wait cancels another.  And that is as far as it goes: once a wait
    starts beside another one of its session, some continuation breaks this. -/
theorem kept_of_aloneRun (w : Sso R T) (h : AloneRun w) :
    Kept w ∧
      (∀ id c t, w.created id = some c → w.futures c.2 = .result t →
        ∀ e, (step e w).futures c.2 = .result t) ∧
      ∀ id, ¬ Alone w (.wait id) →
        ∃ es : List (Event R T), ¬ Kept (es.foldl (fun w e => step e w) (step (.wait id) w)) :=
  ⟨h.orderly.kept, fun _ _ _ hc hf e => futures_result_step h.orderly e hc hf,
    fun _ hn => not_kept_of_not_alone h.orderly hn⟩

def session : WaiterId := "s"

/-- A session, its wait, and the redirect with the token: one login. -/
theorem kept_of_aloneRun_login :
    let w : Sso String String := [Event.doSso session "req" true, .wait session,
      .complete session (some "token"), .resume 0].foldl (fun w e => step e w) {}
    w.logins session = [("req", "token")] ∧ Kept w := by
  intro w
  have h₁ : AloneRun (R := String) (T := String) (step (.doSso session "req" true) {}) :=
    Reach.start.step _ ⟨fun _ _ _ => rfl, nofun⟩
  have h₂ : AloneRun (step (.wait session) (step (.doSso session "req" true) {})) :=
    h₁.step _ ⟨nofun, fun _ _ => nofun⟩
  have h₃ := Reach.step (.complete session (some "token")) h₂ ⟨nofun, nofun⟩
  exact ⟨by decide, (kept_of_aloneRun w (Reach.step (.resume 0) h₃ ⟨nofun, nofun⟩)).1⟩

/-- Two waits of one session: both log in; and cancelling one ends the other. -/
theorem two_waits_break :
    (∃ w : Sso String String, Reach step Distinct {} w ∧ (w.logins session).length = 2) ∧
    ∃ w : Sso String String, Reach step Distinct {} w ∧
      ∃ v ∈ w.waits, v.phase = .cancelled ∧ v.requested = false := by
  have h₁ : Reach step Distinct {} (step (.doSso session "req" true) ({} : Sso String String)) :=
    Reach.start.step _ (fun _ _ _ => rfl)
  have h₂ := (h₁.step (.wait session) nofun).step (.wait session) nofun
  refine ⟨⟨_, ((h₂.step (.complete session (some "token")) nofun).step (.resume 0) nofun).step
    (.resume 1) nofun, by decide⟩, ⟨_, (h₂.step (.cancel 0) nofun).step (.resume 1) nofun, ?_⟩⟩
  exact ⟨{ waiterId := session, req := "req", fut := 0, phase := .cancelled }, by decide, rfl, rfl⟩

end Sso

end Maubot.Management
