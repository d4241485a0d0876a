import Maubot.Client.Starts
import Maubot.Management.InstanceApi

namespace Maubot.Management

open Prog Client

/-!
# Management API — updating a client

`_update_client` of `management/api/client.py`.

* `Atomic` — a failed request changes nothing, and a failure of the access details is reported;
* `Contained` — the requests of which this holds; the others fail after the first change, or
  meet a `ValueError` that no clause knows;
* `atomic_iff_contained` — the two agree.
-/

variable {L : Type} (S : Setup L)

/-- The fields of the request body. -/
structure ClientData where
  homeserver  : Option String := none
  accessToken : Option String := none
  deviceId    : Option String := none
  avatarUrl   : Option String := none
  displayname : Option String := none
  started     : Option Bool := none
  enabled     : Option Bool := none
  autojoin    : Option Bool := none
  online      : Option Bool := none
  sync        : Option Bool := none
  deriving DecidableEq, Repr

/-- What the request meets.  Of a field of the profile: what the homeserver raises when it is
    set, and the answer to `get_profile` when it is not. -/
structure ClientEnv where
  access      : AccessEnv
  avatarUrl   : Option PyExc × ProfileAnswer := (none, .ok (none, none))
  displayname : Option PyExc × ProfileAnswer := (none, .ok (none, none))
  stop        : Ref → StopEnv := fun _ => {}
  start       : ClientStartEnv

/-! ### The handler -/

def mxidMismatch : String := "MXID mismatch: "

def deviceIdMismatch : String := "Device ID mismatch: "

/-- Python's `s.startswith(p)` -/
def startsWith (s p : String) : Bool := p.toList.isPrefixOf s.toList

/-- Python's `s[len(p):]` -/
def dropPrefix (s p : String) : String := String.ofList (s.toList.drop p.length)

/-- The `except` clauses: the answer to give, or `none` if the handler goes on. -/
def accessFailed (e : PyExc) : Except PyExc (Option Response) :=
  if e.isA .matrixInvalidToken then .ok (some Response.badClientAccessToken)
  else if e.isMatrixRequestError then .ok (some Response.badClientAccessDetails)
  else if e.isA .matrixConnectionError then .ok (some Response.badClientConnectionDetails)
  else if e.isA .valueError then
    if startsWith e.msg "MXID mismatch" then
      .ok (some (Response.mxidMismatch (dropPrefix e.msg mxidMismatch)))
    else if startsWith e.msg "Device ID mismatch" then
      .ok (some (Response.deviceIdMismatch (dropPrefix e.msg deviceIdMismatch)))
    else .ok none
  else .error e

/-- The steps after the access details. -/
def updateClientFields (c : Ref) (data : ClientData) (env : ClientEnv) : Action L Unit := do
  updateAvatarUrl c data.avatarUrl env.avatarUrl.1 env.avatarUrl.2 false
  updateDisplayname c data.displayname env.displayname.1 env.displayname.2 false
  updateStarted S c data.started env.stop env.start
  updateEnabled c data.enabled false
  updateAutojoin c data.autojoin false
  updateOnline c data.online false
  updateSync c data.sync false
  update c

/-- `_update_client` -/
def updateClient (c : Ref) (data : ClientData) (isLogin : Bool) (env : ClientEnv) :
    Action L Response := do
  let access ← attempt (fun _ => true) <|
    updateAccessDetails S c data.accessToken data.homeserver data.deviceId env.access
  let answer ← match access with
    | .ok _    => pure none
    | .error e => outcome (accessFailed e)
  match answer with
  | some r => pure r
  | none   => do
    updateClientFields S c data env
    pure (Response.updated isLogin)

/-! ### The steps on a view -/

variable {S} {c : Ref} {data : ClientData} {env : ClientEnv} {encrypted : Bool}

/-- The steps after the access details, on a view. -/
def ClientData.updateFields (data : ClientData) (env : ClientEnv) (encrypted : Bool) :
    ClientView.Step := do
  ClientView.updateProfile Client.avatarUrl data.avatarUrl env.avatarUrl.1 env.avatarUrl.2
  ClientView.updateProfile Client.displayname data.displayname env.displayname.1 env.displayname.2
  ClientView.updateStarted encrypted data.started env.start
  ClientView.updateEnabled data.enabled
  ClientView.updateAutojoin data.autojoin
  ClientView.updateOnline data.online
  ClientView.updateSync data.sync
  ClientView.update

/-- Plugins and their loaders raise only `Exception`s. -/
structure Tame (S : Setup L) (env : ClientEnv) : Prop where
  load  : ∀ l, Exceptions (S.loaders.load l)
  stop  : ∀ i, Proper (env.stop i).exceptions
  start : ∀ i, Proper (env.start.plugins i).exceptions

/-- The update of the fields is described by the one on the view. -/
theorem describes_updateClientFields (data : ClientData) (h : Tame S env) :
    Twin (SeeingCrypto c encrypted) (updateClientFields S c data env)
      (data.updateFields env encrypted) (fun _ => Seeing c) (Seeing c) := by
  have hprofile (field : ProfileField) (value : Option String) (refused : Option PyExc)
      (profile : ProfileAnswer) : Twin (SeeingCrypto c encrypted)
      (updateProfile field c value refused profile false : Action L Unit)
      (ClientView.updateProfile field value refused profile) (fun _ => SeeingCrypto c encrypted)
      (Seeing c) := (describes_updateProfile field value refused profile).post
        (fun _ _ _ h => h) fun _ _ h => h.1
  exact (hprofile _ _ _ _).bind fun _ => (hprofile _ _ _ _).bind fun _ =>
    (describes_updateStarted h.load data.started h.stop h.start).bind fun _ =>
    (describes_updateEnabled _).bind fun _ => (describes_updateAutojoin _).bind fun _ =>
    (describes_updateOnline _).bind fun _ => (describes_updateSync _).bind fun _ =>
    describes_of_crypto fun _ => describes_update

/-! ### What the steps do -/

/-- The field of the profile is to be changed, and that raises. -/
def Refuses (field : ProfileField) (value : Option String) (answer : Option PyExc × ProfileAnswer)
    (v : ClientView) : Prop :=
  ∃ x, value = some x ∧ x ≠ field.value v.row ∧
    if x = "disable" then Interrupts answer.2 else answer.1.isSome = true

/-- Writing the value that a field has changes nothing. -/
def Lawful (field : ProfileField) : Prop :=
  (∀ row, field.set (field.value row) row = row) ∧ ∀ x row, field.value (field.set x row) = x

/-- The avatar is a field of its own, -/
theorem lawful_avatarUrl : Lawful Client.avatarUrl := ⟨fun _ => rfl, fun _ _ => rfl⟩

/-- and so is the name. -/
theorem lawful_displayname : Lawful Client.displayname := ⟨fun _ => rfl, fun _ _ => rfl⟩

variable {v u : ClientView} {field : ProfileField} {value : Option String}
  {answer : Option PyExc × ProfileAnswer}

/-- A profile field that is refused is assigned and then raises. -/
theorem exec_updateProfile_of_refuses (h : Refuses field value answer v) :
    ∃ e x, value = some x ∧ x ≠ field.value v.row ∧
      (ClientView.updateProfile field value answer.1 answer.2).exec v =
        (.error e, { v with row := field.set x v.row }) := by
  obtain ⟨x, rfl, hne, hraise⟩ := h
  rw [ClientView.updateProfile, exec_get_bind]
  dsimp only
  rw [if_neg hne, ClientView.setRow, exec_modify_bind]
  by_cases hdisable : x = "disable"
  · rw [if_pos hdisable] at hraise
    rw [if_neg (by simpa using hdisable)]
    rcases ClientView.exec_updateRemoteProfile answer.2 { v with row := field.set x v.row } with
      ⟨e, -, -, hr⟩ | ⟨hnot, -⟩
    · exact ⟨e, x, rfl, hne, hr⟩
    · exact absurd hraise hnot
  · rw [if_neg hdisable] at hraise
    rw [if_pos hdisable]
    obtain ⟨e, he⟩ := Option.isSome_iff_exists.mp hraise
    exact ⟨e, x, rfl, hne, by rw [he, exec_raiseIf_some]⟩

/-- One that is not refused is assigned, if it is given. -/
theorem exec_updateProfile (hfield : Lawful field) (h : ¬ Refuses field value answer v) :
    (ClientView.updateProfile field value answer.1 answer.2).exec v =
      (.ok (), { v with row := field.set (value.getD (field.value v.row)) v.row }) := by
  rw [ClientView.updateProfile, exec_get_bind]
  cases value with
  | none =>
    show ((pure () : ClientView.Step)).exec v = _
    rw [Option.getD_none, hfield.1, exec_pure]
  | some x =>
    dsimp only
    by_cases hsame : x = field.value v.row
    · rw [if_pos hsame, Option.getD_some, hsame, hfield.1, exec_pure]
    rw [if_neg hsame, ClientView.setRow, exec_modify_bind, Option.getD_some]
    by_cases hdisable : x = "disable"
    · rw [if_neg (by simpa using hdisable)]
      rcases ClientView.exec_updateRemoteProfile answer.2 { v with row := field.set x v.row } with
        ⟨e, he, hno, -⟩ | ⟨-, hr⟩
      · exact absurd ⟨x, rfl, hsame, by rw [if_pos hdisable]; exact ⟨e, he, hno⟩⟩ h
      · exact hr
    · rw [if_pos hdisable]
      cases hraise : answer.1 with
      | none => rfl
      | some e =>
        exact absurd ⟨x, rfl, hsame, by rw [if_neg hdisable, hraise]; rfl⟩ h

/-- The profile cannot be set. -/
def ProfileRefused (data : ClientData) (env : ClientEnv) (v : ClientView) : Prop :=
  Refuses Client.avatarUrl data.avatarUrl env.avatarUrl v ∨
    Refuses Client.displayname data.displayname env.displayname v

namespace ClientData

/-- With the profile set. -/
def profiled (data : ClientData) (v : ClientView) : ClientView :=
  { v with row := { v.row with
      avatarUrl := data.avatarUrl.getD v.row.avatarUrl
      displayname := data.displayname.getD v.row.displayname } }

/-- How the start or stop ends that the request asks for, with the profile set. -/
def restarted (data : ClientData) (env : ClientEnv) (encrypted : Bool) (v : ClientView) :
    Except PyExc Unit × ClientView :=
  (ClientView.updateStarted encrypted data.started env.start).exec (data.profiled v)

/-- With the other fields set. -/
def settled (data : ClientData) (v : ClientView) : ClientView :=
  { v with
    syncing := ClientView.syncingAfter data.sync v
    row := { v.row with
      enabled := data.enabled.getD v.row.enabled
      autojoin := data.autojoin.getD v.row.autojoin
      online := data.online.getD v.row.online
      sync := data.sync.getD v.row.sync } }

end ClientData

/-- Where no profile field is refused, the fields are set, the client restarted as asked, and
    the row saved. -/
theorem exec_updateFields (h : ¬ ProfileRefused data env v) :
    (data.updateFields env encrypted).exec v = match data.restarted env encrypted v with
      | (.ok _, u)    => ClientView.update.exec (data.settled u)
      | (.error e, u) => (.error e, u) := by
  obtain ⟨havatar, hname⟩ := not_or.mp h
  let v₁ : ClientView := { v with row := { v.row with
    avatarUrl := data.avatarUrl.getD v.row.avatarUrl } }
  have hset : (ClientView.updateProfile Client.avatarUrl data.avatarUrl env.avatarUrl.1
      env.avatarUrl.2).exec v = (.ok (), v₁) := exec_updateProfile lawful_avatarUrl havatar
  have hset' : (ClientView.updateProfile Client.displayname data.displayname env.displayname.1
      env.displayname.2).exec v₁ = (.ok (), data.profiled v) :=
    exec_updateProfile (v := v₁) lawful_displayname hname
  rw [ClientData.updateFields, exec_bind_ok hset, exec_bind_ok hset', exec_bind]
  rcases hr : (ClientView.updateStarted encrypted data.started env.start).exec
    (data.profiled v) with
    ⟨e | _, u⟩
  · rw [ClientData.restarted, hr]
  · rw [ClientData.restarted, hr]
    rfl

/-- Where one is refused, the row of the object has changed and the update raises. -/
theorem exec_updateFields_of_refused (encrypted : Bool) (h : ProfileRefused data env v) :
    ∃ e u, (data.updateFields env encrypted).exec v = (.error e, u) ∧ u.client = v.client ∧
      u.row ≠ v.row := by
  by_cases havatar : Refuses Client.avatarUrl data.avatarUrl env.avatarUrl v
  · obtain ⟨e, x, -, hne, hr⟩ := exec_updateProfile_of_refuses havatar
    exact ⟨e, _, exec_bind_error hr, rfl, fun heq => hne (congrArg ClientRow.avatarUrl heq)⟩
  · have hname := h.resolve_left havatar
    let v₁ : ClientView := { v with row := { v.row with
      avatarUrl := data.avatarUrl.getD v.row.avatarUrl } }
    have hset : (ClientView.updateProfile Client.avatarUrl data.avatarUrl env.avatarUrl.1
        env.avatarUrl.2).exec v = (.ok (), v₁) := exec_updateProfile lawful_avatarUrl havatar
    have hname₁ : Refuses Client.displayname data.displayname env.displayname v₁ := hname
    obtain ⟨e, x, -, hne, hr⟩ := exec_updateProfile_of_refuses hname₁
    rw [ClientData.updateFields, exec_bind_ok hset]
    exact ⟨e, _, exec_bind_error hr, rfl, fun heq => hne (congrArg ClientRow.displayname heq)⟩

/-! ### How the steps can end -/

/-- The persistent fields, the Matrix client with its sync task, and the row are the same. -/
structure Untouched (v u : ClientView) : Prop where
  row     : u.row = v.row
  client  : u.client = v.client
  syncing : u.syncing = v.syncing
  stored  : u.stored = v.stored

/-- A start that the request asks for is interrupted. -/
def StartInterrupted (data : ClientData) (env : ClientEnv) (encrypted : Bool) (v : ClientView) :
    Prop :=
  data.started = some true ∧ ClientView.Interrupted env.start encrypted (data.profiled v)

/-- The fields can be set: the profile is, the start is not interrupted, and the row can be
    written. -/
structure Completes (data : ClientData) (env : ClientEnv) (encrypted : Bool) (v : ClientView) :
    Prop where
  profile : ¬ ProfileRefused data env v
  running : ¬ StartInterrupted data env encrypted v
  row     : Storable v

/-- What the request names besides the profile is what the client has.  Of a client that its
    start disables, `enabled` is named. -/
structure NamesRest (data : ClientData) (env : ClientEnv) (v : ClientView) : Prop where
  stopped  : data.started = some false → v.started = true → v.syncing = none
  rejected : data.started = some true → ClientView.Rejected env.start v → data.enabled = some true
  enabled  : ¬ (data.started = some true ∧ ClientView.Rejected env.start v) →
    data.enabled.getD v.row.enabled = v.row.enabled
  autojoin : data.autojoin.getD v.row.autojoin = v.row.autojoin
  online   : data.online.getD v.row.online = v.row.online
  sync     : data.sync.getD v.row.sync = v.row.sync

/-- The fields cannot be set, but nothing changes: the start is interrupted or the row cannot be
    written, and all that is set before is what the client has. -/
structure Harmless (data : ClientData) (env : ClientEnv) (encrypted : Bool) (v : ClientView) :
    Prop where
  profile     : ¬ ProfileRefused data env v
  fails       : StartInterrupted data env encrypted v ∨ ¬ Storable v
  avatarUrl   : data.avatarUrl.getD v.row.avatarUrl = v.row.avatarUrl
  displayname : data.displayname.getD v.row.displayname = v.row.displayname
  start       : data.started = some true → ClientView.Unnoticed env.start encrypted v
  rest        : ¬ StartInterrupted data env encrypted v → NamesRest data env v

/-- An update that harms nothing has not completed. -/
theorem Harmless.not_completes (h : Harmless data env encrypted v) :
    ¬ Completes data env encrypted v :=
  fun hc => h.fails.elim hc.running fun hno => hno hc.row

/-- The restart leaves the access details. -/
theorem sameAccess_restarted (data : ClientData) (env : ClientEnv) (encrypted : Bool)
    (v : ClientView) : ClientView.SameAccess.rel v (data.restarted env encrypted v).2 :=
  ClientView.sameAccess_updateStarted encrypted data.started env.start (data.profiled v)

/-- The row can be saved after it if it could before. -/
theorem storable_settled (data : ClientData) (env : ClientEnv) (encrypted : Bool) (v : ClientView) :
    Storable (data.settled (data.restarted env encrypted v).2) ↔ Storable v := by
  have h := sameAccess_restarted data env encrypted v
  simp only [ClientView.SameAccess, Frame.ofView, Prod.mk.injEq] at h
  obtain ⟨-, hstored, hhomeserver, htoken⟩ := h
  simp only [Storable, ClientData.settled, ClientRow.notNull, hstored, hhomeserver, htoken]

/-- How the start or stop ends that the request asks for. -/
theorem restarted_cases (data : ClientData) (env : ClientEnv) (encrypted : Bool)
    (v : ClientView) :
    (data.started = some true ∧ ClientView.Started env.start encrypted (data.profiled v)
      (data.restarted env encrypted v).1 (data.restarted env encrypted v).2) ∨
    (data.started ≠ some true ∧ (data.restarted env encrypted v).1 = .ok () ∧
      (data.restarted env encrypted v).2 =
        if data.started = some false ∧ v.started = true
        then { data.profiled v with started := false, syncing := none }
        else data.profiled v) := by
  have hstarted : (data.profiled v).started = v.started := rfl
  rw [ClientData.restarted, ClientView.updateStarted, exec_get_bind, hstarted]
  rcases hs : data.started with _ | _ | _
  · exact .inr ⟨nofun, rfl, (if_neg fun h => by cases h.1).symm⟩
  · refine .inr ⟨nofun, ?_⟩
    dsimp only
    cases hv : v.started with
    | false => exact ⟨rfl, (if_neg fun h => by cases h.2).symm⟩
    | true =>
      rw [if_neg Bool.false_ne_true, if_neg Bool.false_ne_true, ClientView.stop, exec_modify,
        hstarted, if_pos hv]
      exact ⟨rfl, (if_pos ⟨rfl, rfl⟩).symm⟩
  · refine .inl ⟨rfl, ?_⟩
    dsimp only
    cases hv : v.started with
    | false =>
      rw [if_neg Bool.false_ne_true.symm, if_pos rfl]
      exact ClientView.started_start env.start encrypted (data.profiled v)
    | true =>
      -- the client is started already
      have hidle : ¬ ClientView.Starting (data.profiled v) := fun h => by
        have hstopped := h.stopped
        rw [hstarted, hv] at hstopped
        cases hstopped
      rw [if_pos rfl, exec_pure]
      exact ClientView.Started.unseen ⟨fun _ h => hidle h.starting, fun _ => rfl⟩
        (fun h => hidle h.starting) (fun _ h => hidle h.starting)
        fun h => hidle h.filtered.starting

/-- It raises exactly if the start is interrupted. -/
theorem restarted_eq_ok_iff :
    (data.restarted env encrypted v).1 = .ok () ↔ ¬ StartInterrupted data env encrypted v := by
  rcases restarted_cases data env encrypted v with ⟨hs, h⟩ | ⟨hs, hok, -⟩
  · rw [h.result, StartInterrupted]
    exact not_congr ⟨fun hi => ⟨hs, hi⟩, fun hi => hi.2⟩
  · exact ⟨fun _ hi => hs hi.1, fun _ => hok⟩

/-- The start or stop leaves the profile alone. -/
theorem profile_restarted (data : ClientData) (env : ClientEnv) (encrypted : Bool)
    (v : ClientView) :
    (data.restarted env encrypted v).2.row = { (data.profiled v).row with
      enabled := (data.restarted env encrypted v).2.row.enabled
      filterId := (data.restarted env encrypted v).2.row.filterId } := by
  rcases restarted_cases data env encrypted v with ⟨-, h⟩ | ⟨-, -, h⟩
  · exact h.row
  · rw [h]
    split <;> rfl

/-- With the profile that it has, the client is as before. -/
theorem profiled_eq_self (havatar : data.avatarUrl.getD v.row.avatarUrl = v.row.avatarUrl)
    (hname : data.displayname.getD v.row.displayname = v.row.displayname) :
    data.profiled v = v := by
  rw [ClientData.profiled, havatar, hname]

/-- An interrupted start leaves the client untouched if and only if it set what the client has. -/
theorem untouched_iff_of_interrupted (hprofile : ¬ ProfileRefused data env v)
    (hi : StartInterrupted data env encrypted v) :
    Untouched v (data.restarted env encrypted v).2 ↔ Harmless data env encrypted v := by
  have hrow := profile_restarted data env encrypted v
  obtain ⟨hs, h⟩ := (restarted_cases data env encrypted v).resolve_right fun h => h.1 hi.1
  have hrejected := hi.2.not_rejected
  constructor
  · intro hu
    have havatar : data.avatarUrl.getD v.row.avatarUrl = v.row.avatarUrl :=
      (congrArg ClientRow.avatarUrl (hrow.symm.trans hu.row) :)
    have hname : data.displayname.getD v.row.displayname = v.row.displayname :=
      (congrArg ClientRow.displayname (hrow.symm.trans hu.row) :)
    rw [profiled_eq_self havatar hname] at h hrejected
    exact ⟨hprofile, .inl hi, havatar, hname, fun _ => (h.unnoticed_iff fun _ => hrejected).mp
      ⟨congrArg ClientRow.filterId hu.row, hu.syncing, hu.stored⟩, fun hno => absurd hi hno⟩
  · intro hh
    rw [profiled_eq_self hh.avatarUrl hh.displayname] at h hrejected
    obtain ⟨hfilter, hsyncing, hstored⟩ :=
      (h.unnoticed_iff fun _ => hrejected).mpr (hh.start hs)
    exact ⟨by rw [h.row, h.enabled hrejected, hfilter], h.client, hsyncing, hstored⟩

/-- What is set after the start or stop is what the client has. -/
theorem untouched_settled_iff {x : ClientView}
    (hrow : x.row = { v.row with enabled := x.row.enabled, filterId := x.row.filterId })
    (hclient : x.client = v.client) :
    Untouched v (data.settled x) ↔
      (data.enabled.getD x.row.enabled = v.row.enabled ∧
        data.autojoin.getD v.row.autojoin = v.row.autojoin ∧
        data.online.getD v.row.online = v.row.online ∧ data.sync.getD v.row.sync = v.row.sync) ∧
      x.row.filterId = v.row.filterId ∧ x.syncing = v.syncing ∧ x.stored = v.stored := by
  -- a start changes only two fields of the row
  have hautojoin : x.row.autojoin = v.row.autojoin := by rw [hrow]
  have honline : x.row.online = v.row.online := by rw [hrow]
  have hsync : x.row.sync = v.row.sync := by rw [hrow]
  constructor
  · rintro ⟨hu, -, hsyncing, hstored⟩
    have husync := congrArg ClientRow.sync hu
    have huautojoin := congrArg ClientRow.autojoin hu
    have huonline := congrArg ClientRow.online hu
    have hufilter := congrArg ClientRow.filterId hu
    dsimp only [ClientData.settled] at husync huautojoin huonline hufilter hsyncing
    rw [ClientView.syncingAfter_of_same (husync.trans hsync.symm)] at hsyncing
    rw [hautojoin] at huautojoin
    rw [honline] at huonline
    rw [hsync] at husync
    exact ⟨⟨congrArg ClientRow.enabled hu, huautojoin, huonline, husync⟩,
      hufilter, hsyncing, hstored⟩
  · rintro ⟨⟨henabled, huautojoin, huonline, husync⟩, hfilter, hsyncing, hstored⟩
    refine ⟨?_, hclient, ?_, hstored⟩
    · dsimp only [ClientData.settled]
      rw [henabled, hautojoin, huautojoin, honline, huonline, hsync, husync, hrow, hfilter]
    · dsimp only [ClientData.settled]
      rw [ClientView.syncingAfter_of_same (by rw [hsync]; exact husync), hsyncing]

/-- Where the row cannot be written, the client is untouched if and only if all that was set is
    what it has. -/
theorem untouched_iff_of_not_storable (hprofile : ¬ ProfileRefused data env v)
    (hno : ¬ StartInterrupted data env encrypted v) (hstorable : ¬ Storable v) :
    Untouched v (data.settled (data.restarted env encrypted v).2) ↔
      Harmless data env encrypted v := by
  -- the profile comes first
  suffices h : data.profiled v = v → (Untouched v (data.settled (data.restarted env encrypted v).2)
      ↔ (data.started = some true → ClientView.Unnoticed env.start encrypted v) ∧
        NamesRest data env v) by
    constructor
    · intro hu
      have hurow : { v.row with
          avatarUrl := data.avatarUrl.getD v.row.avatarUrl
          displayname := data.displayname.getD v.row.displayname } = { v.row with
          avatarUrl := v.row.avatarUrl, displayname := v.row.displayname } := by
        have hrow := hu.row
        dsimp only [ClientData.settled] at hrow
        rw [profile_restarted data env encrypted v] at hrow
        rw [ClientRow.mk.injEq] at hrow ⊢
        obtain ⟨-, -, -, -, -, -, -, -, -, hname, havatar⟩ := hrow
        exact ⟨rfl, rfl, rfl, rfl, rfl, rfl, rfl, rfl, rfl, hname, havatar⟩
      have havatar := congrArg ClientRow.avatarUrl hurow
      have hname := congrArg ClientRow.displayname hurow
      obtain ⟨hstart, hrest⟩ := (h (profiled_eq_self havatar hname)).mp hu
      exact ⟨hprofile, .inr hstorable, havatar, hname, hstart, fun _ => hrest⟩
    · intro hh
      exact (h (profiled_eq_self hh.avatarUrl hh.displayname)).mpr ⟨hh.start, hh.rest hno⟩
  intro hself
  have hrow := profile_restarted data env encrypted v
  have hcases := restarted_cases data env encrypted v
  rw [hself] at hrow hcases
  rcases hcases with ⟨hs, hx⟩ | ⟨hs, -, hx⟩
  · rw [untouched_settled_iff hrow hx.client, hx.unnoticed_iff fun h => absurd h hstorable]
    constructor
    · rintro ⟨⟨henabled, hautojoin, honline, hsync⟩, hunnoticed⟩
      refine ⟨fun _ => hunnoticed, fun hstop => ?_, fun _ hrejected => ?_, fun hkept => ?_,
        hautojoin, honline, hsync⟩
      · rw [hs] at hstop
        cases hstop
      · rw [hx.rejected hrejected, hrejected.starting.enabled] at henabled
        cases hnamed : data.enabled with
        | none => rw [hnamed] at henabled; cases henabled
        | some b => rw [hnamed] at henabled; exact congrArg some henabled
      · rwa [hx.enabled fun hrejected => hkept ⟨hs, hrejected⟩] at henabled
    · rintro ⟨hunnoticed, hrest⟩
      refine ⟨⟨?_, hrest.autojoin, hrest.online, hrest.sync⟩, hunnoticed hs⟩
      by_cases hrejected : ClientView.Rejected env.start v
      · rw [hrest.rejected hs hrejected, hrejected.starting.enabled]
        rfl
      · rw [hx.enabled hrejected]
        exact hrest.enabled fun h => hrejected h.2
  · have hkept : ¬ (data.started = some true ∧ ClientView.Rejected env.start v) := fun h => hs h.1
    by_cases hstop : data.started = some false ∧ v.started = true
    · rw [if_pos hstop] at hx
      rw [hx, untouched_settled_iff (x := { v with started := false, syncing := none }) rfl rfl]
      constructor
      · rintro ⟨⟨henabled, hautojoin, honline, hsync⟩, -, hsyncing, -⟩
        exact ⟨fun h => absurd h hs, fun _ _ => hsyncing.symm, fun h => absurd h hs,
          fun _ => henabled, hautojoin, honline, hsync⟩
      · rintro ⟨-, hrest⟩
        exact ⟨⟨hrest.enabled hkept, hrest.autojoin, hrest.online, hrest.sync⟩, rfl,
          (hrest.stopped hstop.1 hstop.2).symm, rfl⟩
    · rw [if_neg hstop] at hx
      rw [hx, untouched_settled_iff rfl rfl]
      constructor
      · rintro ⟨⟨henabled, hautojoin, honline, hsync⟩, -⟩
        exact ⟨fun h => absurd h hs, fun h h' => absurd ⟨h, h'⟩ hstop, fun h => absurd h hs,
          fun _ => henabled, hautojoin, honline, hsync⟩
      · rintro ⟨-, hrest⟩
        exact ⟨⟨hrest.enabled hkept, hrest.autojoin, hrest.online, hrest.sync⟩, rfl, rfl, rfl⟩

/-- An update that completes returns. -/
theorem exec_updateFields_of_completes (h : Completes data env encrypted v) :
    ∃ u, (data.updateFields env encrypted).exec v = (.ok (), u) := by
  have hrow := (storable_settled data env encrypted v).mpr h.row
  have hok := restarted_eq_ok_iff.mpr h.running
  rw [exec_updateFields h.profile]
  rcases hr : data.restarted env encrypted v with ⟨e | _, u⟩
  · rw [hr] at hok
    cases hok
  · rw [hr] at hrow
    exact ⟨_, exec_update_of_storable hrow⟩

/-- One that does not raises, and leaves the client untouched exactly if it is harmless. -/
theorem exec_updateFields_of_not_completes (h : ¬ Completes data env encrypted v) :
    ∃ e u, (data.updateFields env encrypted).exec v = (.error e, u) ∧ u.client = v.client ∧
      (Untouched v u ↔ Harmless data env encrypted v) := by
  by_cases hprofile : ProfileRefused data env v
  · obtain ⟨e, u, hr, hclient, hrow⟩ := exec_updateFields_of_refused encrypted hprofile
    exact ⟨e, u, hr, hclient, fun hu => absurd hu.row hrow, fun hh => absurd hprofile hh.profile⟩
  have hsame := sameAccess_restarted data env encrypted v
  rw [exec_updateFields hprofile]
  by_cases hi : StartInterrupted data env encrypted v
  · have hiff := untouched_iff_of_interrupted hprofile hi
    have hraise : (data.restarted env encrypted v).1 ≠ .ok () := fun hok =>
      restarted_eq_ok_iff.mp hok hi
    rcases hr : data.restarted env encrypted v with ⟨e | _, u⟩ <;> rw [hr] at hsame hiff hraise
    · exact ⟨e, u, rfl, congrArg Prod.fst hsame, hiff⟩
    · exact absurd rfl hraise
  · have hrow : ¬ Storable v := fun hrow => h ⟨hprofile, hi, hrow⟩
    have hiff := untouched_iff_of_not_storable hprofile hi hrow
    have hstorable := storable_settled data env encrypted v
    have hok := restarted_eq_ok_iff.mpr hi
    rcases hr : data.restarted env encrypted v with ⟨e | _, u⟩ <;>
      rw [hr] at hsame hiff hstorable hok
    · cases hok
    · exact ⟨_, _, exec_update_of_not_storable (mt hstorable.mp hrow), congrArg Prod.fst hsame,
        hiff⟩

/-! ### The property -/

/-- If the request is answered with an error or raises, what one sees of the client is the same;
    if the access details fail, it is. -/
structure Atomic (S : Setup L) (c : Ref) (data : ClientData) (isLogin : Bool) (env : ClientEnv)
    (w : World L) : Prop where
  unchanged : isError ((updateClient S c data isLogin env).exec w).1 = true →
    Untouched (view c w) (view c ((updateClient S c data isLogin env).exec w).2)
  reported  : ∀ e, ((updateAccessDetails S c data.accessToken data.homeserver data.deviceId
    env.access).exec w).1 = .error e → isError ((updateClient S c data isLogin env).exec w).1 = true

/-- The exception is a `ValueError` that is no mismatch: the handler goes on. -/
structure FallsThrough (e : PyExc) : Prop where
  cls    : e.cls = .valueError
  mxid   : startsWith e.msg "MXID mismatch" = false
  device : startsWith e.msg "Device ID mismatch" = false

/-- The device that the request leaves the client with. -/
def ClientData.device (data : ClientData) (v : ClientView) : String :=
  data.deviceId.getD v.row.deviceId

/-- The client with the access details of the request. -/
def ClientData.asked (data : ClientData) (v : ClientView) : ClientView :=
  { v with row := { v.row with
      homeserver := data.homeserver
      accessToken := data.accessToken
      deviceId := data.device v } }

/-- The request names access details that the client does not have. -/
abbrev ClientData.AsksFor (data : ClientData) (v : ClientView) : Prop :=
  Asks data.accessToken data.homeserver data.deviceId v

/-- Without new access details, the fields can be set, or nothing changes.  If the new ones are
    refused, a clause answers why, or nothing changes.  If they are accepted, the encryption
    starts and the fields can be set. -/
structure Contained (S : Setup L) (c : Ref) (data : ClientData) (env : ClientEnv) (w : World L) :
    Prop where
  kept     : ¬ data.AsksFor (view c w) →
    Completes data env (w.clients.get c).crypto.isSome (view c w) ∨
      Harmless data env (w.clients.get c).crypto.isSome (view c w)
  refused  : data.AsksFor (view c w) → ∀ e,
    refusal env.access.whoami (data.device (view c w)) (view c w) = some e → FallsThrough e →
      Harmless data env (w.clients.get c).crypto.isSome (view c w)
  switched : data.AsksFor (view c w) →
    refusal env.access.whoami (data.device (view c w)) (view c w) = none →
      cryptoFailure S env.access.crypto (data.device (view c w)) = none ∧
        Completes data env (data.device (view c w) != "" && S.cryptoDb) (data.asked (view c w))

/-- With another Matrix client, the fields can be set as well. -/
theorem completes_congr (m : Ref) (filter : Option String) :
    Completes data env encrypted { v with client := m, syncing := filter } ↔
      Completes data env encrypted v :=
  ⟨fun h => ⟨h.profile, fun hi => h.running ⟨hi.1, hi.2.congr m filter⟩, h.row⟩,
    fun h => ⟨h.profile, fun hi => h.running ⟨hi.1, hi.2.congr v.client v.syncing⟩, h.row⟩⟩

/-- Whether an update completes does not depend on the Matrix client. -/
theorem completes_switched (m : Ref) :
    Completes data env encrypted
        (v.switched m data.accessToken data.homeserver (data.device v)).synced ↔
      Completes data env encrypted (data.asked v) :=
  completes_congr (v := data.asked v) m _

/-- Of the exceptions, no other comes past the `except` clauses. -/
theorem fallsThrough_iff {e : PyExc} : FallsThrough e ↔ accessFailed e = .ok none := by
  constructor
  · rintro ⟨hcls, hmxid, hdevice⟩
    simp [accessFailed, PyExc.isA, PyExc.isMatrixRequestError, hcls, hmxid, hdevice]
  · intro h
    unfold accessFailed at h
    split_ifs at h with htoken hrequest hconnection hvalue hmxid hdevice <;> cases h
    exact ⟨by simpa [PyExc.isA] using hvalue, by simpa using hmxid, by simpa using hdevice⟩

/-! ### Runs of the handler -/

variable {w w' : World L}

/-- The answer after the fields. -/
def answered (isLogin : Bool) (r : Except PyExc Unit × World L) : Except PyExc Response × World L :=
  match r with
  | (.ok _, w)    => (.ok (Response.updated isLogin), w)
  | (.error e, w) => (.error e, w)

/-- The update of a client is that of its access details and then that of its fields. -/
theorem exec_updateClient (c : Ref) (data : ClientData) (isLogin : Bool) (env : ClientEnv)
    (w : World L) :
    (updateClient S c data isLogin env).exec w =
      match (updateAccessDetails S c data.accessToken data.homeserver data.deviceId
        env.access).exec w with
      | (.ok _, w')    => answered isLogin ((updateClientFields S c data env).exec w')
      | (.error e, w') => match accessFailed e with
        | .error e       => (.error e, w')
        | .ok (some r)   => (.ok r, w')
        | .ok none       => answered isLogin ((updateClientFields S c data env).exec w') := by
  have hrest (w' : World L) : (do
      updateClientFields S c data env
      pure (Response.updated isLogin) : Action L Response).exec w' =
        answered isLogin ((updateClientFields S c data env).exec w') := by
    rw [exec_bind]
    rcases (updateClientFields S c data env).exec w' with ⟨_ | _, _⟩ <;> rfl
  rw [updateClient, exec_bind, exec_attempt]
  rcases (updateAccessDetails S c data.accessToken data.homeserver data.deviceId
    env.access).exec w with ⟨e | _, w'⟩
  · dsimp only
    rw [if_pos rfl]
    dsimp only
    rw [exec_bind, exec_outcome]
    rcases accessFailed e with e | _ | r
    · rfl
    · exact hrest w'
    · rfl
  · exact hrest w'

/-- A clause that knows the exception answers with an error. -/
theorem isError_accessFailed {e : PyExc} {r : Response} (h : accessFailed e = .ok (some r)) :
    r.isError = true := by
  unfold accessFailed at h
  split_ifs at h <;> cases h <;> rfl

/-- The fields, from a world in which the client looks like `v`. -/
theorem exec_updateClientFields (data : ClientData) (h : Tame S env) (hv : Sees c v w)
    (hcrypto : (w.clients.get c).crypto.isSome = encrypted) :
    ((updateClientFields S c data env).exec w).1 = ((data.updateFields env encrypted).exec v).1 ∧
      Sees c ((data.updateFields env encrypted).exec v).2
        ((updateClientFields S c data env).exec w).2 :=
  (describes_updateClientFields data h).final ⟨hv, hcrypto⟩

/-- The fields are set. -/
theorem answered_of_completes (isLogin : Bool) (h : Tame S env) (hv : Sees c v w)
    (hcrypto : (w.clients.get c).crypto.isSome = encrypted)
    (hc : Completes data env encrypted v) :
    isError (answered isLogin ((updateClientFields S c data env).exec w)).1 = false := by
  obtain ⟨u, hview⟩ := exec_updateFields_of_completes hc
  obtain ⟨hresult, -⟩ := exec_updateClientFields data h hv hcrypto
  rw [hview] at hresult
  rcases hr : (updateClientFields S c data env).exec w with ⟨e | _, w'⟩ <;> rw [hr] at hresult
  · cases hresult
  · exact Response.isError_updated isLogin

/-- The fields are not set. -/
theorem answered_of_not_completes (isLogin : Bool) (h : Tame S env) (hv : Sees c v w)
    (hcrypto : (w.clients.get c).crypto.isSome = encrypted)
    (hc : ¬ Completes data env encrypted v) :
    let r := answered isLogin ((updateClientFields S c data env).exec w)
    isError r.1 = true ∧ (view c r.2).client = v.client ∧
      (Untouched v (view c r.2) ↔ Harmless data env encrypted v) := by
  obtain ⟨e, u, hview, hclient, hiff⟩ := exec_updateFields_of_not_completes hc
  obtain ⟨hresult, hsees⟩ := exec_updateClientFields data h hv hcrypto
  rw [hview] at hresult hsees
  rcases hr : (updateClientFields S c data env).exec w with ⟨e' | _, w'⟩ <;>
    rw [hr] at hresult hsees
  · have hu : view c w' = u := hsees.view
    refine ⟨rfl, ?_, ?_⟩
    · show (view c w').client = v.client
      rw [hu, hclient]
    · show Untouched v (view c w') ↔ _
      rw [hu, hiff]
  · cases hresult

/-! ### The property holds of the contained requests -/

/-- Without new access details. -/
theorem atomic_iff_of_same (h : Tame S env) (isLogin : Bool) (hasks : ¬ data.AsksFor (view c w))
    (hr : (updateAccessDetails S c data.accessToken data.homeserver data.deviceId env.access).exec
      w = (.ok (), w'))
    (hv' : Sees c (view c w) w')
    (hsame : (w'.clients.get c).crypto.isSome = (w.clients.get c).crypto.isSome) :
    Atomic S c data isLogin env w ↔ Contained S c data env w := by
  have hrun := exec_updateClient (S := S) c data isLogin env w
  rw [hr] at hrun
  constructor
  · intro ha
    refine ⟨fun _ => ?_, fun hyes => absurd hyes hasks, fun hyes => absurd hyes hasks⟩
    by_cases hc : Completes data env (w.clients.get c).crypto.isSome (view c w)
    · exact .inl hc
    · obtain ⟨herror, -, hiff⟩ := answered_of_not_completes isLogin h hv' hsame hc
      have hu := ha.unchanged
      rw [hrun] at hu
      exact .inr (hiff.mp (hu herror))
  · intro hcontained
    refine ⟨fun herror => ?_, fun e he => by rw [hr] at he; cases he⟩
    rw [hrun] at herror ⊢
    rcases hcontained.kept hasks with hc | hh
    · have hok := answered_of_completes isLogin h hv' hsame hc
      exact absurd (herror.symm.trans hok) (by decide)
    · exact (answered_of_not_completes isLogin h hv' hsame hh.not_completes).2.2.mpr hh

/-- The access details are refused, and a clause answers or the exception goes through. -/
theorem atomic_iff_of_ends (isLogin : Bool) (hasks : data.AsksFor (view c w)) {e : PyExc}
    (he : refusal env.access.whoami (data.device (view c w)) (view c w) = some e)
    (hno : ¬ FallsThrough e) (hv' : Sees c (view c w) w') {r : Except PyExc Response}
    (hrun : (updateClient S c data isLogin env).exec w = (r, w')) (herror : isError r = true) :
    Atomic S c data isLogin env w ↔ Contained S c data env w := by
  refine ⟨fun _ => ⟨fun hn => absurd hasks hn, fun _ d hd hfalls => ?_, fun _ hn => ?_⟩,
    fun _ => ⟨fun _ => ?_, fun _ _ => ?_⟩⟩
  · rw [he, Option.some.injEq] at hd
    exact absurd (hd ▸ hfalls) hno
  · rw [he] at hn
    cases hn
  · rw [hrun, hv'.view]
    exact ⟨rfl, rfl, rfl, rfl⟩
  · rw [hrun]
    exact herror

/-- The access details are refused, and the handler goes on. -/
theorem atomic_iff_of_fallsThrough (h : Tame S env) (isLogin : Bool)
    (hasks : data.AsksFor (view c w)) {e : PyExc}
    (he : refusal env.access.whoami (data.device (view c w)) (view c w) = some e)
    (hr : (updateAccessDetails S c data.accessToken data.homeserver data.deviceId env.access).exec
      w = (.error e, w'))
    (hfalls : FallsThrough e) (hv' : Sees c (view c w) w')
    (hsame : (w'.clients.get c).crypto.isSome = (w.clients.get c).crypto.isSome) :
    Atomic S c data isLogin env w ↔ Contained S c data env w := by
  have hrun := exec_updateClient (S := S) c data isLogin env w
  rw [hr] at hrun
  dsimp only at hrun
  rw [fallsThrough_iff.mp hfalls] at hrun
  constructor
  · -- the answer has to be an error, so something later must have failed
    intro ha
    have hreport := ha.reported e (by rw [hr])
    rw [hrun] at hreport
    have hc : ¬ Completes data env (w.clients.get c).crypto.isSome (view c w) := fun hc =>
      absurd (hreport.symm.trans (answered_of_completes isLogin h hv' hsame hc)) (by decide)
    obtain ⟨herror, -, hiff⟩ := answered_of_not_completes isLogin h hv' hsame hc
    refine ⟨fun hn => absurd hasks hn, fun _ _ _ _ => hiff.mp ?_, fun _ hn => ?_⟩
    · have hu := ha.unchanged
      rw [hrun] at hu
      exact hu herror
    · rw [he] at hn
      cases hn
  · intro hcontained
    have hh := hcontained.refused hasks e he hfalls
    obtain ⟨herror, -, hiff⟩ := answered_of_not_completes isLogin h hv' hsame hh.not_completes
    refine ⟨fun _ => ?_, fun _ _ => ?_⟩ <;> rw [hrun]
    · exact hiff.mpr hh
    · exact herror

/-- The encryption does not start: the client has another Matrix client, whatever the answer. -/
theorem not_atomic_of_unencrypted (h : Tame S env) (isLogin : Bool) {e : PyExc} {v : ClientView}
    (hr : (updateAccessDetails S c data.accessToken data.homeserver data.deviceId env.access).exec
      w = (.error e, w'))
    (hv' : Sees c v w') (hm : v.client ≠ (view c w).client) : ¬ Atomic S c data isLogin env w := by
  intro ha
  have hrun := exec_updateClient (S := S) c data isLogin env w
  rw [hr] at hrun
  have hu := ha.unchanged
  have hreported := ha.reported e (by rw [hr])
  dsimp only at hrun
  refine hm ?_
  rcases hanswer : accessFailed e with d | _ | r <;> rw [hanswer] at hrun <;>
    rw [hrun] at hu hreported
  · have hclient := (hu rfl).client
    rwa [hv'.view] at hclient
  · have hc : ¬ Completes data env (w'.clients.get c).crypto.isSome _ := fun hc =>
      absurd (hreported.symm.trans (answered_of_completes isLogin h hv' rfl hc)) (by decide)
    obtain ⟨-, hclient, -⟩ := answered_of_not_completes isLogin h hv' rfl hc
    exact hclient.symm.trans (hu hreported).client
  · have hclient := (hu (isError_accessFailed hanswer)).client
    rwa [hv'.view] at hclient

/-- The access details are accepted. -/
theorem atomic_iff_of_switched (h : Tame S env) (isLogin : Bool) (hasks : data.AsksFor (view c w))
    (hnone : refusal env.access.whoami (data.device (view c w)) (view c w) = none)
    (hcrypt : cryptoFailure S env.access.crypto (data.device (view c w)) = none) {m : Ref}
    (hm : m ≠ (view c w).client)
    (hr : (updateAccessDetails S c data.accessToken data.homeserver data.deviceId env.access).exec
      w = (.ok (), w'))
    (hv' : Sees c ((view c w).switched m data.accessToken data.homeserver
      (data.device (view c w))).synced w') :
    Atomic S c data isLogin env w ↔ Contained S c data env w := by
  have hrun := exec_updateClient (S := S) c data isLogin env w
  rw [hr] at hrun
  obtain ⟨hclient, hmachine⟩ := machine_updateAccessDetails (S := S) ⟨hasks, hnone⟩ (by rw [hr])
  rw [hr] at hclient hmachine
  obtain rfl : w.matrixClients.next = m := hclient.symm.trans hv'.client
  constructor
  · intro ha
    refine ⟨fun hn => absurd hasks hn, fun _ e he => ?_, fun _ _ => ⟨hcrypt, ?_⟩⟩
    · rw [hnone] at he
      cases he
    · by_contra hc
      obtain ⟨herror, hclient, -⟩ := answered_of_not_completes isLogin h hv' hmachine
        (mt (completes_switched _).mp hc)
      have hu := ha.unchanged
      rw [hrun] at hu
      exact hm (hclient.symm.trans (hu herror).client)
  · intro hcontained
    have hok := answered_of_completes isLogin h hv' hmachine
      ((completes_switched _).mpr (hcontained.switched hasks hnone).2)
    refine ⟨fun herror => ?_, fun e he => by rw [hr] at he; cases he⟩
    rw [hrun] at herror
    exact absurd (herror.symm.trans hok) (by decide)

/-- **Updating a client.**  It is atomic exactly if the request is contained. -/
theorem atomic_iff_contained (h : Tame S env) (hv : Sees c (view c w) w) (isLogin : Bool) :
    Atomic S c data isLogin env w ↔ Contained S c data env w := by
  obtain ⟨r, w', v', hr, hv', hout⟩ := exec_updateAccessDetails (S := S) hv data.accessToken
    data.homeserver data.deviceId env.access
  have hcrypto
      (hno : ¬ Swaps data.accessToken data.homeserver data.deviceId env.access (view c w)) :
      (w'.clients.get c).crypto.isSome = (w.clients.get c).crypto.isSome := by
    have hclients := clients_updateAccessDetails (S := S) hno
    rw [hr] at hclients
    rw [hclients]
  -- what `update_access_details` does, in its cases; then what the fields do after it
  cases hout with
  | same hasks => exact atomic_iff_of_same h isLogin hasks hr hv' (hcrypto fun hs => hasks hs.asks)
  | refused hasks he =>
    next e =>
    have hsame := hcrypto fun hs => by
      have hnone := hs.whoami
      rw [he] at hnone
      cases hnone
    have hrun := exec_updateClient (S := S) c data isLogin env w
    rw [hr] at hrun
    dsimp only at hrun
    rcases hanswer : accessFailed e with d | _ | r <;> rw [hanswer] at hrun
    · exact atomic_iff_of_ends isLogin hasks he (by rw [fallsThrough_iff, hanswer]; nofun) hv' hrun rfl
    · exact atomic_iff_of_fallsThrough h isLogin hasks he hr (fallsThrough_iff.mpr hanswer) hv' hsame
    · exact atomic_iff_of_ends isLogin hasks he (by rw [fallsThrough_iff, hanswer]; nofun) hv' hrun
        (isError_accessFailed hanswer)
  | unencrypted hasks hnone he hm =>
    refine ⟨fun ha => absurd ha (not_atomic_of_unencrypted h isLogin hr hv' hm),
      fun hcontained => ?_⟩
    have hcrypt := (hcontained.switched hasks hnone).1
    rw [ClientData.device, he] at hcrypt
    cases hcrypt
  | switched hasks hnone hcrypt hm =>
    exact atomic_iff_of_switched h isLogin hasks hnone hcrypt hm hr hv'

/-! ### A homeserver that accepts every call -/

/-- The homeserver accepts the calls of a start of the client. -/
structure AcceptsStart (env : ClientStartEnv) (id deviceId : String) : Prop where
  versions       : env.versions = none
  whoami         : ∃ me, env.whoami = .ok me ∧ me.userId = id ∧ otherDevice me deviceId = false
  createFilter   : ∃ f, env.createFilter = .ok f
  setDisplayname : env.setDisplayname = none
  setAvatarUrl   : env.setAvatarUrl = none
  crypto         : ∃ t, env.crypto.run deviceId = .ok t
  profile        : ∃ p, env.profile = .ok p

/-- With the filter that a start asks for, if there is none. -/
theorem exec_createFilter {f : String} (hrow : Storable v) :
    ∃ u g, (ClientView.createFilter (.ok f)).exec v = (.ok (), u) ∧
      u.row = { v.row with filterId := g } ∧ (v.row.filterId ≠ "" → g = v.row.filterId) := by
  rw [ClientView.createFilter, exec_get_bind, when]
  split
  · next hempty =>
    let v₁ : ClientView := { v with row := { v.row with filterId := f } }
    have hrow₁ : Storable v₁ := hrow
    refine ⟨v₁.saved, f, exec_update_of_storable hrow₁, ClientView.saved_row v₁, fun hne => ?_⟩
    exact absurd hempty hne
  · exact ⟨v, v.row.filterId, rfl, rfl, fun _ => rfl⟩

/-- Such a start brings up the client, and sets the filter at most. -/
theorem exec_start_of_accepts (encrypted : Bool) {env : ClientStartEnv}
    (h : AcceptsStart env v.id v.row.deviceId)
    (hrow : Storable v) (henabled : v.row.enabled = true) (hstopped : v.started = false)
    (tryN : Nat) :
    ∃ u g, (ClientView.start encrypted tryN env).exec v = (.ok (), u) ∧ u.started = true ∧
      u.row = { v.row with filterId := g } ∧ (v.row.filterId ≠ "" → g = v.row.filterId) := by
  obtain ⟨f, hfilter⟩ := h.createFilter
  obtain ⟨me, hwhoami, hid, hdevice⟩ := h.whoami
  obtain ⟨t, hcrypto⟩ := h.crypto
  obtain ⟨p, hprofile⟩ := h.profile
  obtain ⟨u, g, hcreate, hurow, hg⟩ := exec_createFilter (f := f) hrow
  -- what the homeserver accepts goes through, and changes nothing in the client
  have hskip {P : Prop} [Decidable P] : (when P (raiseIf none) : ClientView.Step).exec u =
      (.ok (), u) := by
    rw [when]
    split <;> rfl
  have hmachine : (when (encrypted = true) (ClientView.startCrypto env.crypto)).exec u =
      (.ok (), u) := by
    have hdevice : u.row.deviceId = v.row.deviceId := by rw [hurow]
    rw [when]
    split
    · rw [ClientView.startCrypto, exec_get_bind, hdevice, hcrypto]
      rfl
    · rfl
  -- so the start comes to its end,
  have hup : (ClientView.bringUp encrypted env).exec v =
      (.ok (), { u.synced with started := true }) := by
    rw [ClientView.bringUp, hfilter, h.setDisplayname, h.setAvatarUrl, hprofile,
      exec_bind_ok hcreate, exec_get_bind, exec_bind_ok hskip, exec_bind_ok hskip,
      exec_bind_ok hmachine]
    rfl
  refine ⟨{ u.synced with started := true }, g, ?_, rfl, hurow, hg⟩
  have hrequests : (attempt PyExc.isException do
      raiseIf env.versions
      outcome env.whoami : Prog ClientView PyExc _).exec v = (.ok (.ok me), v) := by
    rw [h.versions, hwhoami]
    rfl
  -- behind the requests, which name the right user and device
  have htry : (ClientView.tryStart encrypted tryN env).exec v =
      (.ok (), { u.synced with started := true }) := by
    rw [ClientView.tryStart, exec_get_bind, henabled, hstopped]
    refine (exec_bind_ok hrequests).trans ?_
    dsimp only
    rw [if_neg (by simpa using hid), if_neg (by rw [hdevice]; exact Bool.false_ne_true), hup]
  rw [ClientView.start, exec_bind, exec_attempt, htry]
  rfl

namespace ClientData

/-- The row with the named fields. -/
def requested (data : ClientData) (row : ClientRow) : ClientRow :=
  { row with
    homeserver := data.homeserver <|> row.homeserver
    accessToken := data.accessToken <|> row.accessToken
    deviceId := data.deviceId.getD row.deviceId
    enabled := data.enabled.getD row.enabled
    sync := data.sync.getD row.sync
    autojoin := data.autojoin.getD row.autojoin
    online := data.online.getD row.online
    displayname := data.displayname.getD row.displayname
    avatarUrl := data.avatarUrl.getD row.avatarUrl }

/-- The request as the source heeds it: access details need a homeserver or a token. -/
def heeded (data : ClientData) : ClientData :=
  if truthy data.accessToken || truthy data.homeserver then data
  else { data with homeserver := none, accessToken := none, deviceId := none }

end ClientData

/-- The homeserver accepts the calls of the request. -/
structure Accepts (data : ClientData) (env : ClientEnv) (v : ClientView) : Prop where
  whoami      : ∃ me, env.access.whoami = .ok me
  crypto      : ∃ t, env.access.crypto.run (data.device v) = .ok t
  avatarUrl   : env.avatarUrl.1 = none ∧ ∃ p, env.avatarUrl.2 = .ok p
  displayname : env.displayname.1 = none ∧ ∃ p, env.displayname.2 = .ok p
  start       : AcceptsStart env.start v.id (data.heeded.requested v.row).deviceId

/-- All that the request names holds, and of the rest, nothing has changed. -/
structure Granted (data : ClientData) (v u : ClientView) : Prop where
  row     : u.row = data.requested v.row
  started : ∀ b, data.started = some b → u.row.enabled = true → u.started = b
  stored  : u.stored = some u.row

/-- The request holds as the source heeds it.  A start may set the filter, and comes before
    `enabled` is set. -/
structure Updated (data : ClientData) (v u : ClientView) : Prop where
  row     : ∃ g, u.row = { data.heeded.requested v.row with filterId := g } ∧
    (g = v.row.filterId ∨ v.row.filterId = "" ∧ data.started = some true)
  started : data.started = none → u.started = v.started
  stopped : data.started = some false → u.started = false
  running : data.started = some true → v.row.enabled = true → u.started = true
  stored  : u.stored = some u.row

/-- Who accepts does not refuse. -/
theorem not_refuses_of_accepts (h : answer.1 = none ∧ ∃ p, answer.2 = .ok p) :
    ¬ Refuses field value answer v := by
  obtain ⟨hset, p, hget⟩ := h
  rintro ⟨x, -, -, hraise⟩
  split at hraise
  · obtain ⟨e, he, -⟩ := hraise
    rw [hget] at he
    cases he
  · rw [hset] at hraise
    cases hraise

/-- The start or stop has been made as asked. -/
structure Restarted (started : Option Bool) (v u : ClientView) : Prop where
  row     : ∃ g, u.row = { v.row with filterId := g } ∧
    (g = v.row.filterId ∨ v.row.filterId = "" ∧ started = some true)
  unnamed : started = none → u.started = v.started
  stopped : started = some false → u.started = false
  running : started = some true → v.row.enabled = true → u.started = true

/-- A start that the homeserver accepts goes through. -/
theorem exec_updateStarted_of_accepts (encrypted : Bool) {env : ClientStartEnv}
    (h : AcceptsStart env v.id v.row.deviceId) (hrow : Storable v) (started : Option Bool) :
    ∃ u, (ClientView.updateStarted encrypted started env).exec v = (.ok (), u) ∧
      Restarted started v u := by
  have hsame : ∃ g, v.row = { v.row with filterId := g } ∧
      (g = v.row.filterId ∨ v.row.filterId = "" ∧ started = some true) :=
    ⟨v.row.filterId, rfl, .inl rfl⟩
  rw [ClientView.updateStarted, exec_get_bind]
  cases started with
  | none =>
    refine ⟨v, rfl, hsame, fun _ => rfl, fun hs => ?_, fun hs => ?_⟩
    · cases hs
    · cases hs
  | some b =>
    dsimp only
    by_cases hb : b = v.started
    · rw [if_pos hb]
      refine ⟨v, rfl, hsame, fun hs => ?_, fun hs => ?_, fun hs _ => ?_⟩
      · cases hs
      · rw [← hb, Option.some.inj hs]
      · rw [← hb, Option.some.inj hs]
    rw [if_neg hb]
    cases b with
    | false =>
      have hstarted : v.started = true := by simpa using hb
      refine ⟨{ v with started := false, syncing := none }, ?_, hsame, fun hs => ?_, fun _ => rfl,
        fun hs => ?_⟩
      · rw [if_neg Bool.false_ne_true, ClientView.stop, exec_modify, if_pos hstarted]
      · cases hs
      · cases hs
    | true =>
      have hstopped : v.started = false := by simpa using hb
      rw [if_pos rfl]
      cases henabled : v.row.enabled with
      | false =>
        -- a client that is not enabled does not start
        refine ⟨v, ?_, hsame, fun hs => ?_, fun hs => ?_, fun _ he => ?_⟩
        · rw [ClientView.start, exec_bind, exec_attempt, ClientView.tryStart, exec_get_bind,
            henabled]
          rfl
        · cases hs
        · cases hs
        · rw [henabled] at he
          cases he
      | true =>
        obtain ⟨u, g, hr, hstarted, hurow, hg⟩ := exec_start_of_accepts encrypted h hrow
          henabled hstopped 0
        refine ⟨u, hr, ⟨g, hurow, ?_⟩, fun hs => ?_, fun hs => ?_, fun _ _ => hstarted⟩
        · by_cases hempty : v.row.filterId = ""
          · exact .inr ⟨hempty, rfl⟩
          · exact .inl (hg hempty)
        · cases hs
        · cases hs

/-- If the steps return, the row could be written. -/
theorem storable_of_returns (hr : (data.updateFields env encrypted).exec v = (.ok (), u)) :
    Storable v := by
  by_contra hno
  obtain ⟨e, _, hfail, -⟩ := exec_updateFields_of_not_completes
    fun hc : Completes data env encrypted v => hno hc.row
  rw [hr] at hfail
  cases hfail

/-- What the steps after the access details do, when the homeserver accepts them. -/
theorem updateFields_of_accepts (hstored : v.stored.isSome = true)
    (havatar : env.avatarUrl.1 = none ∧ ∃ p, env.avatarUrl.2 = .ok p)
    (hname : env.displayname.1 = none ∧ ∃ p, env.displayname.2 = .ok p)
    (hstart : AcceptsStart env.start v.id v.row.deviceId)
    (hr : (data.updateFields env encrypted).exec v = (.ok (), u)) :
    u.stored = some u.row ∧ ∃ x, Restarted data.started (data.profiled v) x ∧
      u.row = (data.settled x).row ∧ u.started = x.started := by
  have hprofile : ¬ ProfileRefused data env v := fun h => h.elim (not_refuses_of_accepts havatar)
    (not_refuses_of_accepts hname)
  have hrow := storable_of_returns hr
  obtain ⟨x, hx, hrestarted⟩ := exec_updateStarted_of_accepts encrypted
    (v := data.profiled v) hstart hrow data.started
  have hsettled := (storable_settled data env encrypted v).mpr hrow
  have hkeep := sameAccess_restarted data env encrypted v
  rw [exec_updateFields hprofile, ClientData.restarted, hx] at hr
  rw [ClientData.restarted, hx] at hsettled hkeep
  have hxstored : x.stored.isSome = true := by
    simp only [ClientView.SameAccess, Frame.ofView, Prod.mk.injEq] at hkeep
    rw [hkeep.2.1]
    exact hstored
  obtain rfl : (data.settled x).saved = u :=
    congrArg Prod.snd ((exec_update_of_storable hsettled).symm.trans hr)
  have hsaved :
      (data.settled x).saved = { data.settled x with stored := some (data.settled x).row } :=
    if_pos hxstored
  rw [hsaved]
  exact ⟨rfl, x, hrestarted, rfl, rfl⟩

/-- The credentials that the client has after the access details. -/
structure Credentials (data : ClientData) (row row' : ClientRow) : Prop where
  homeserver  : row'.homeserver = (data.heeded.requested row).homeserver
  accessToken : row'.accessToken = (data.heeded.requested row).accessToken
  deviceId    : row'.deviceId = (data.heeded.requested row).deviceId

/-- Details that are not asked for are not given, or the client has them. -/
theorem credentials_same (h : ¬ data.AsksFor v) : Credentials data v.row v.row := by
  by_cases hgiven : (truthy data.accessToken || truthy data.homeserver) = true
  · -- they are the ones that the client has
    have hsame : data.accessToken = v.row.accessToken ∧ data.homeserver = v.row.homeserver ∧
        data.deviceId.getD v.row.deviceId = v.row.deviceId := by
      by_contra hother
      exact h ⟨by simpa using hgiven, hother⟩
    obtain ⟨htoken, hhomeserver, hdevice⟩ := hsame
    constructor <;> rw [ClientData.heeded, if_pos hgiven]
    · show v.row.homeserver = (data.homeserver <|> v.row.homeserver)
      rw [hhomeserver]
      cases v.row.homeserver <;> rfl
    · show v.row.accessToken = (data.accessToken <|> v.row.accessToken)
      rw [htoken]
      cases v.row.accessToken <;> rfl
    · exact hdevice.symm
  · constructor <;> rw [ClientData.heeded, if_neg hgiven] <;> rfl

/-- After a switch, a row that can be written has both of them. -/
theorem credentials_switched {m : Ref} (h : data.AsksFor v) (hstored : v.stored.isSome = true)
    (hrow : Storable (v.switched m data.accessToken data.homeserver (data.device v)).synced) :
    Credentials data v.row
      (v.switched m data.accessToken data.homeserver (data.device v)).synced.row := by
  have hgiven : (truthy data.accessToken || truthy data.homeserver) = true := by
    simpa using h.given
  have hboth : (data.homeserver.isSome && data.accessToken.isSome) = true := hrow hstored
  rw [Bool.and_eq_true] at hboth
  obtain ⟨x, hx⟩ := Option.isSome_iff_exists.mp hboth.1
  obtain ⟨t, ht⟩ := Option.isSome_iff_exists.mp hboth.2
  constructor <;> rw [ClientData.heeded, if_pos hgiven]
  · show data.homeserver = (data.homeserver <|> v.row.homeserver)
    rw [hx]
    rfl
  · show data.accessToken = (data.accessToken <|> v.row.accessToken)
    rw [ht]
    rfl
  · rfl

/-- The view at the end, from the one after the access details. -/
theorem updated_of_restarted {v' x : ClientView} (hcredentials : Credentials data v.row v'.row)
    (hrow : v'.row = { v.row with
      homeserver := v'.row.homeserver, accessToken := v'.row.accessToken
      deviceId := v'.row.deviceId })
    (hstarted : v'.started = v.started) (hx : Restarted data.started (data.profiled v') x)
    (hu : u.row = (data.settled x).row) (hustarted : u.started = x.started)
    (hustored : u.stored = some u.row) : Updated data v u := by
  obtain ⟨g, hxrow, hg⟩ := hx.row
  have henabled : v'.row.enabled = v.row.enabled := by rw [hrow]
  have hfilter : v'.row.filterId = v.row.filterId := by rw [hrow]
  have hrow' : v'.row = { v.row with
      homeserver := (data.heeded.requested v.row).homeserver
      accessToken := (data.heeded.requested v.row).accessToken
      deviceId := (data.heeded.requested v.row).deviceId } := by
    rw [hrow, hcredentials.homeserver, hcredentials.accessToken, hcredentials.deviceId]
  refine ⟨⟨g, ?_, ?_⟩, fun hs => ?_, fun hs => ?_, fun hs he => ?_, hustored⟩
  · rw [hu]
    simp only [ClientData.settled, hxrow, ClientData.profiled, hrow']
    rw [ClientData.heeded]
    split <;> rfl
  · rw [← hfilter]
    exact hg
  · rw [hustarted, hx.unnamed hs]
    exact hstarted
  · rw [hustarted, hx.stopped hs]
  · rw [hustarted, hx.running hs (henabled.trans he)]

/-- A mismatch is known to a clause. -/
theorem not_fallsThrough_mismatch {me : Whoami} {deviceId : String} {e : PyExc}
    (h : refusal (.ok me) deviceId v = some e) : ¬ FallsThrough e := by
  have hknown (p s : String) (x : String) (hp : p.toList <+: s.toList) :
      startsWith (s ++ x) p = true := by
    rw [startsWith, List.isPrefixOf_iff_prefix, String.toList_append]
    exact hp.trans (List.prefix_append _ _)
  rintro ⟨-, hmxid, hdevice⟩
  rw [refusal] at h
  split_ifs at h <;> cases h
  · rw [hknown _ _ _ (by decide)] at hmxid
    cases hmxid
  · rw [hknown _ _ _ (by decide)] at hdevice
    cases hdevice

/-- **Updating a client.**  If the homeserver accepts every call and the answer is the updated
    client, the request holds as the source heeds it. -/
theorem updated_of_accepts {isLogin : Bool} (h : Tame S env) (hv : Sees c (view c w) w)
    (hstored : (view c w).stored.isSome = true) (ha : Accepts data env (view c w))
    (hok : ((updateClient S c data isLogin env).exec w).1 = .ok (Response.updated isLogin)) :
    Updated data (view c w) (view c ((updateClient S c data isLogin env).exec w).2) := by
  obtain ⟨r, w', v', hr, hv', hout⟩ := exec_updateAccessDetails (S := S) hv data.accessToken
    data.homeserver data.deviceId env.access
  have hrun := exec_updateClient (S := S) c data isLogin env w
  rw [hr] at hrun
  -- the fields, from the view `v'`
  have hfields (hcredentials : Storable v' → Credentials data (view c w).row v'.row)
      (hrow : v'.row = { (view c w).row with
        homeserver := v'.row.homeserver, accessToken := v'.row.accessToken
        deviceId := v'.row.deviceId })
      (hid : v'.id = (view c w).id) (hstarted : v'.started = (view c w).started)
      (hstored' : v'.stored.isSome = true)
      (hrun : (updateClient S c data isLogin env).exec w =
        answered isLogin ((updateClientFields S c data env).exec w')) :
      Updated data (view c w) (view c ((updateClient S c data isLogin env).exec w).2) := by
    obtain ⟨hresult, hsees⟩ := exec_updateClientFields data h hv' rfl
    rw [hrun] at hok ⊢
    rcases hf : (updateClientFields S c data env).exec w' with ⟨e | _, w''⟩ <;>
      rw [hf] at hok hresult hsees
    · cases hok
    obtain ⟨u, hview⟩ : ∃ u, (data.updateFields env (w'.clients.get c).crypto.isSome).exec v' =
      (.ok (), u) := ⟨_, Prod.ext hresult.symm rfl⟩
    rw [hview] at hsees
    have hcred := hcredentials (storable_of_returns hview)
    have hstart : AcceptsStart env.start v'.id v'.row.deviceId := by
      rw [hid, hcred.deviceId]
      exact ha.start
    obtain ⟨hustored, x, hx, hurow, hustarted⟩ := updateFields_of_accepts hstored' ha.avatarUrl
      ha.displayname hstart hview
    show Updated data (view c w) (view c w'')
    rw [hsees.view]
    exact updated_of_restarted hcred hrow hstarted hx hurow hustarted hustored
  cases hout with
  | same hasks =>
    exact hfields (fun _ => credentials_same hasks) rfl rfl rfl hstored hrun
  | refused hasks he =>
    next e =>
    obtain ⟨me, hme⟩ := ha.whoami
    rw [hme] at he
    have hknown := not_fallsThrough_mismatch he
    dsimp only at hrun
    rw [fallsThrough_iff] at hknown
    rcases hanswer : accessFailed e with d | _ | resp <;> rw [hanswer] at hrun hknown
    · rw [hrun] at hok
      cases hok
    · exact absurd rfl hknown
    · rw [hrun] at hok
      have herror := isError_accessFailed hanswer
      rw [Except.ok.inj hok, Response.isError_updated] at herror
      cases herror
  | unencrypted hasks hnone he hm =>
    next e' m =>
    obtain ⟨t, ht⟩ := ha.crypto
    rw [cryptoFailure] at he
    rw [ClientData.device] at ht
    split at he
    · rw [ht] at he
      cases he
    · cases he
  | switched hasks hnone hcrypt hm =>
    next m =>
    exact hfields (fun hrow => credentials_switched hasks hstored hrow) rfl rfl rfl hstored hrun

/-! ### Requests to a running client -/

section Test

open InstanceTest

/-- Plugins that do nothing are tame. -/
theorem tame_of_plain (h : env.stop = fun _ => {}) (h' : env.start.plugins = fun _ => {}) :
    Tame setup env where
  load _ := raises_pure _
  stop i e he := by
    rw [h] at he
    cases he
  start i e he := by
    rw [h'] at he
    cases he

/-- The homeserver does not set the display name, and the client keeps it all the same. -/
def refusedName : ClientEnv where
  access := { whoami := .ok { userId := "@bot:example.com" } }
  displayname := (some { cls := .matrixRequestError }, .ok (none, none))
  start := accepts

/-- A display name that is refused leaves the other fields changed. -/
theorem refusedName_not_atomic :
    ¬ ∀ (c : Ref) (data : ClientData) (isLogin : Bool) (env : ClientEnv) (w : World Unit),
      Tame setup env → Sees c (view c w) w → Atomic setup c data isLogin env w := by
  intro h
  have hatomic := h 0 { displayname := some "Bot" } false refusedName running
    (tame_of_plain rfl rfl) ⟨by decide +kernel, by decide +kernel, rfl⟩
  have hrow := (hatomic.unchanged (by decide +kernel)).row
  exact absurd (congrArg ClientRow.displayname hrow) (by decide +kernel)

/-- The token of another user. -/
def otherUser : ClientEnv where
  access := { whoami := .ok { userId := "@other:example.com" } }
  start := accepts

/-- A token of another user leaves everything. -/
theorem otherUser_atomic :
    Atomic setup 0 { accessToken := some "other" } false otherUser running := by
  have hrefused : refusal otherUser.access.whoami "" (view 0 running) =
      some { cls := .valueError, msg := "MXID mismatch: @other:example.com" } := by
    decide +kernel
  have hdevice : ({ accessToken := some "other" } : ClientData).device (view 0 running) = "" := by
    decide +kernel
  refine (atomic_iff_contained (tame_of_plain rfl rfl)
    ⟨by decide +kernel, by decide +kernel, rfl⟩ false).mpr ⟨fun h => ?_, fun _ e he hfalls => ?_,
      fun _ h => ?_⟩
  · exact absurd ⟨.inl (by decide), by decide +kernel⟩ h
  · rw [hdevice, hrefused, Option.some.injEq] at he
    have hmxid := hfalls.mxid
    rw [← he] at hmxid
    exact absurd hmxid (by decide +kernel)
  · rw [hdevice, hrefused] at h
    cases h

/-- The homeserver accepts everything. -/
def friendly : ClientEnv where
  access := { whoami := .ok { userId := "@bot:example.com" } }
  start := accepts

/-- The homeserver of the witness accepts everything. -/
theorem friendly_accepts {data : ClientData} {v : ClientView} (hid : v.id = "@bot:example.com") :
    Accepts data friendly v where
  whoami := ⟨_, rfl⟩
  crypto := ⟨"", rfl⟩
  avatarUrl := ⟨rfl, _, rfl⟩
  displayname := ⟨rfl, _, rfl⟩
  start :=
    { versions := rfl
      whoami := ⟨_, rfl, hid.symm, rfl⟩
      createFilter := ⟨_, rfl⟩
      setDisplayname := rfl
      setAvatarUrl := rfl
      crypto := ⟨"", rfl⟩
      profile := ⟨_, rfl⟩ }

/-- A device alone is not looked at. -/
theorem deviceAlone_not_granted :
    ¬ ∀ (c : Ref) (data : ClientData) (isLogin : Bool) (env : ClientEnv) (w : World Unit),
      Tame setup env → Sees c (view c w) w → (view c w).stored.isSome = true →
      Accepts data env (view c w) →
      ((updateClient setup c data isLogin env).exec w).1 = .ok (Response.updated isLogin) →
      Granted data (view c w) (view c ((updateClient setup c data isLogin env).exec w).2) := by
  intro h
  have hgranted := h 0 { deviceId := some "DEVICE" } false friendly running (tame_of_plain rfl rfl)
    ⟨by decide +kernel, by decide +kernel, rfl⟩ (by decide +kernel)
    (friendly_accepts (by decide +kernel)) (by rfl)
  exact absurd (congrArg ClientRow.deviceId hgranted.row) (by decide +kernel)

/-- The update of the witness does what was asked for. -/
theorem renamed_updated :
    Updated { displayname := some "Bot", started := some false } (view 0 running)
      (view 0 ((updateClient setup 0 { displayname := some "Bot", started := some false } false
        friendly).exec running).2) :=
  updated_of_accepts (tame_of_plain rfl rfl) ⟨by decide +kernel, by decide +kernel, rfl⟩
    (by decide +kernel) (friendly_accepts (by decide +kernel)) (by rfl)

end Test

end Maubot.Management
