import Maubot.Client.Fields

namespace Maubot

open Prog

/-!
# Clients — what a start meets

A start in terms of what the client has before it and of what the calls that it makes are
answered.

* `Rejected`, `Filters`, `Syncs` — the starts that disable the client, that give it a filter,
  and that come to the sync task;
* `Interrupted` — the starts that end with an exception that the source does not handle;
* `Started` — the end of a start, said with these, and `started_start`: every start ends so.
-/

/-- What the call raises. -/
def failure {α : Type} (x : Except PyExc α) : Option PyExc :=
  match x with
  | .ok _    => none
  | .error e => some e

/-- What the first of the calls raises that fails. -/
def firstFailure (calls : List (Option PyExc)) : Option PyExc := calls.findSome? id

namespace ClientStartEnv

/-- What the requests raise before the first step. -/
def requests (env : ClientStartEnv) : Option PyExc :=
  firstFailure [env.versions, failure env.whoami]

/-- What the calls raise between the filter and the sync task, for a client with the row. -/
def profile? (env : ClientStartEnv) (encrypted : Bool) (row : ClientRow) : Option PyExc :=
  firstFailure [
    if row.displayname ≠ "disable" then env.setDisplayname else none,
    if row.avatarUrl ≠ "disable" then env.setAvatarUrl else none,
    if encrypted then failure (env.crypto.run row.deviceId) else none]

end ClientStartEnv

/-- Reading the profile raises what the source does not handle. -/
def Interrupts (profile : ProfileAnswer) : Prop := ∃ e, profile = .error e ∧ e.isException = false

/-- The row of the client can be written, if there is one. -/
def Storable (v : ClientView) : Prop := v.stored.isSome = true → v.row.notNull = true

variable {env : ClientStartEnv} {encrypted : Bool} {v u : ClientView}

/-- A row that can be stored is. -/
theorem exec_update_of_storable (h : Storable v) :
    ClientView.update.exec v = (.ok (), v.saved) := by
  rw [ClientView.update, exec_get_bind]
  cases hs : v.stored with
  | none =>
    rw [ClientView.saved, hs]
    rfl
  | some r =>
    rw [h (by rw [hs]; rfl)]
    rfl

/-- One that cannot is refused. -/
theorem exec_update_of_not_storable (h : ¬ Storable v) :
    ClientView.update.exec v = (.error { cls := .integrityError }, v) := by
  rw [Storable, Classical.not_imp, Bool.not_eq_true] at h
  obtain ⟨hs, hnull⟩ := h
  rw [ClientView.update, exec_get_bind, hnull]
  cases hv : v.stored with
  | none =>
    rw [hv] at hs
    cases hs
  | some r => rfl

namespace ClientView

/-! ### Starts, by what they meet -/

/-- The start makes requests. -/
structure Starting (v : ClientView) : Prop where
  enabled : v.row.enabled = true
  stopped : v.started = false

/-- The homeserver knows the client, with the user and the device that it has. -/
structure Known (env : ClientStartEnv) (v : ClientView) : Prop where
  versions : env.versions = none
  whoami   : ∃ me, env.whoami = .ok me ∧ me.userId = v.id ∧
    Client.otherDevice me v.row.deviceId = false

/-- The start disables the client: the token is not valid, or `whoami` names another user or
    device. -/
structure Rejected (env : ClientStartEnv) (v : ClientView) : Prop where
  starting : Starting v
  requests : (∃ e, env.requests = some e ∧ e.cls = .matrixInvalidToken) ∨
    ∃ me, env.requests = none ∧ env.whoami = .ok me ∧
      (me.userId ≠ v.id ∨ Client.otherDevice me v.row.deviceId = true)

/-- The start gives the client, which has no filter, the filter `f`. -/
structure Filters (env : ClientStartEnv) (v : ClientView) (f : String) : Prop where
  starting : Starting v
  known    : Known env v
  missing  : v.row.filterId = ""
  created  : env.createFilter = .ok f

/-- The start goes on after the filter: a new one is created and stored. -/
structure Filtered (env : ClientStartEnv) (v : ClientView) : Prop where
  starting : Starting v
  known    : Known env v
  created  : v.row.filterId = "" → (∃ f, env.createFilter = .ok f) ∧ Storable v

/-- The start comes to the sync task. -/
structure Syncs (env : ClientStartEnv) (encrypted : Bool) (v : ClientView) : Prop where
  filtered : Filtered env v
  profile? : env.profile? encrypted v.row = none

/-- The start ends with an exception that is no `Exception`: of a request, of the creation of a
    filter, of a call before the sync task, or of the profile after it. -/
inductive Interrupted (env : ClientStartEnv) (encrypted : Bool) (v : ClientView) : Prop
  | requests {e : PyExc} (hstarting : Starting v) (he : env.requests = some e)
      (hno : e.isException = false)
  | createFilter {e : PyExc} (hstarting : Starting v) (hknown : Known env v)
      (hmissing : v.row.filterId = "") (he : env.createFilter = .error e)
      (hno : e.isException = false)
  | profile? {e : PyExc} (hfiltered : Filtered env v) (he : env.profile? encrypted v.row = some e)
      (hno : e.isException = false)
  | profile (hsyncs : Syncs env encrypted v) (he : Interrupts env.profile)

/-- How a start ends, and what one sees then. -/
structure Started (env : ClientStartEnv) (encrypted : Bool) (v : ClientView)
    (r : Except PyExc Unit) (u : ClientView) : Prop where
  result   : r = .ok () ↔ ¬ Interrupted env encrypted v
  row      : u.row = { v.row with enabled := u.row.enabled, filterId := u.row.filterId }
  client   : u.client = v.client
  rejected : Rejected env v → u.row.enabled = false
  enabled  : ¬ Rejected env v → u.row.enabled = v.row.enabled
  filtered : ∀ f, Filters env v f → u.row.filterId = f
  filter   : (∀ f, ¬ Filters env v f) → u.row.filterId = v.row.filterId
  syncs    : Syncs env encrypted v →
    u.syncing = if v.row.sync then some u.row.filterId else v.syncing
  syncing  : ¬ Syncs env encrypted v → u.syncing = v.syncing
  written  : Storable v → (∃ f, Filters env v f) → u.stored = v.stored.map fun _ => u.row
  stored   : (Storable v → ¬ Rejected env v ∧ ∀ f, ¬ Filters env v f) → u.stored = v.stored

/-! ### The calls of a start -/

/-- A call that raises what it is answered. -/
def raising (x : Option PyExc) : Except PyExc Unit :=
  match x with
  | none   => .ok ()
  | some e => .error e

/-- The requests, to the first that fails. -/
theorem exec_requests (env : ClientStartEnv) :
    (∃ e, env.requests = some e ∧ ∀ v, (do raiseIf env.versions; outcome env.whoami :
      Prog ClientView PyExc Whoami).exec v = (.error e, v)) ∨
      env.requests = none ∧ env.versions = none ∧ ∃ me, env.whoami = .ok me ∧
        ∀ v, (do raiseIf env.versions; outcome env.whoami :
          Prog ClientView PyExc Whoami).exec v = (.ok me, v) := by
  rw [ClientStartEnv.requests]
  cases env.versions with
  | some e => exact .inl ⟨e, rfl, fun _ => rfl⟩
  | none =>
    cases env.whoami with
    | error e => exact .inl ⟨e, rfl, fun _ => rfl⟩
    | ok me => exact .inr ⟨rfl, rfl, me, rfl, fun _ => rfl⟩

/-- An exception that may be raised, under a condition. -/
theorem exec_when_raiseIf (p : Prop) [Decidable p] (x : Option PyExc) (v : ClientView) :
    (when p (raiseIf x) : Step).exec v = (raising (if p then x else none), v) := by
  rw [when]
  split
  · cases x <;> rfl
  · rfl

/-- The crypto machine is started where there is one. -/
theorem exec_when_startCrypto (encrypted : Bool) (env : CryptoEnv) (v : ClientView) :
    (when (encrypted = true) (startCrypto env)).exec v =
      (raising (if encrypted then failure (env.run v.row.deviceId) else none), v) := by
  rw [when]
  split
  · rw [startCrypto, exec_get_bind]
    cases env.run v.row.deviceId <;> rfl
  · rfl

/-- Three calls that change nothing, and what comes after them. -/
theorem exec_calls {a b c m : Step} {x y z : Option PyExc} {v : ClientView}
    (ha : a.exec v = (raising x, v)) (hb : b.exec v = (raising y, v))
    (hc : c.exec v = (raising z, v)) :
    (do a; b; c; m : Step).exec v = match firstFailure [x, y, z] with
      | some e => (.error e, v)
      | none   => m.exec v := by
  cases x with
  | some e => exact exec_bind_error ha
  | none =>
    rw [exec_bind_ok ha]
    cases y with
    | some e => exact exec_bind_error hb
    | none =>
      rw [exec_bind_ok hb]
      cases z with
      | some e => exact exec_bind_error hc
      | none => exact exec_bind_ok hc

/-- The profile is asked for, and its failure matters only if it is no `Exception`. -/
theorem exec_updateRemoteProfile (profile : ProfileAnswer) (v : ClientView) :
    (∃ e, profile = .error e ∧ e.isException = false ∧
      (updateRemoteProfile profile).exec v = (.error e, v)) ∨
      ¬ Interrupts profile ∧ (updateRemoteProfile profile).exec v = (.ok (), v) := by
  rw [updateRemoteProfile, exec_bind, exec_attempt, exec_outcome]
  cases profile with
  | ok p =>
    refine .inr ⟨?_, rfl⟩
    rintro ⟨e, he, -⟩
    cases he
  | error e =>
    by_cases he : e.isException = true
    · refine .inr ⟨?_, by simp only [he, if_true, exec_pure]⟩
      rintro ⟨_, ⟨⟩, hno⟩
      rw [he] at hno
      cases hno
    · refine .inl ⟨e, rfl, by simpa using he, ?_⟩
      simp only [he, Bool.false_eq_true, if_false]

/-- The last `except` clause of a start. -/
def handled (r : Except PyExc Unit) : Except PyExc Unit :=
  match r with
  | .ok _    => .ok ()
  | .error e => if e.isException then .ok () else .error e

/-- A start handles every `Exception`. -/
theorem handled_of_exceptions {r : Except PyExc Unit}
    (h : ∀ e, r = .error e → e.isException = true) : handled r = .ok () := by
  cases r with
  | ok _ => rfl
  | error e => exact if_pos (h e rfl)

/-- `start` is one try whose exceptions are handled. -/
theorem exec_start (encrypted : Bool) (tryN : Nat) (env : ClientStartEnv) (v : ClientView) :
    (start encrypted tryN env).exec v = (handled ((tryStart encrypted tryN env).exec v).1,
      ((tryStart encrypted tryN env).exec v).2) := by
  rw [start, exec_bind, exec_attempt]
  rcases (tryStart encrypted tryN env).exec v with ⟨e | _, u⟩
  · dsimp only [handled]
    cases e.isException <;> rfl
  · rfl

/-- A client is disabled in its row, and the row may be refused. -/
theorem exec_disable (v : ClientView) : ∃ r u, disable.exec v = (r, u) ∧
    (∀ e, r = .error e → e.isException = true) ∧
    u.row = { v.row with enabled := false } ∧ u.client = v.client ∧ u.syncing = v.syncing ∧
    (¬ Storable v → u.stored = v.stored) := by
  let v₁ : ClientView := { v with row := { v.row with enabled := false } }
  rw [disable, setRow, exec_modify_bind]
  by_cases h : Storable v
  · have h₁ : Storable v₁ := h
    refine ⟨_, _, exec_update_of_storable h₁, fun _ => nofun, saved_row v₁, ?_,
      saved_syncing v₁, fun hno => absurd h hno⟩
    rw [saved]
    split <;> rfl
  · have h₁ : ¬ Storable v₁ := h
    refine ⟨_, v₁, exec_update_of_not_storable h₁, ?_, rfl, rfl, rfl, fun _ => rfl⟩
    rintro _ ⟨⟩
    rfl

/-- What one sees of the client after the filter. -/
structure AfterFilter (env : ClientStartEnv) (v x : ClientView) : Prop where
  row      : x.row = { v.row with filterId := x.row.filterId }
  client   : x.client = v.client
  syncing  : x.syncing = v.syncing
  filtered : ∀ f, Filters env v f → x.row.filterId = f
  filter   : (∀ f, ¬ Filters env v f) → x.row.filterId = v.row.filterId
  written  : (∃ f, Filters env v f) → x.stored = v.stored.map fun _ => x.row
  stored   : (∀ f, ¬ Filters env v f) → x.stored = v.stored

/-- The filter is there afterwards. -/
theorem exec_createFilter (h : Filtered env v) :
    ∃ x, (createFilter env.createFilter).exec v = (.ok (), x) ∧ AfterFilter env v x := by
  rw [createFilter, exec_get_bind, when]
  by_cases hmissing : v.row.filterId = ""
  · obtain ⟨⟨f, hf⟩, hrow⟩ := h.created hmissing
    let v₁ : ClientView := { v with row := { v.row with filterId := f } }
    have hfilters : Filters env v f := ⟨h.starting, h.known, hmissing, hf⟩
    have hrow₁ : Storable v₁ := hrow
    rw [if_pos hmissing, hf, exec_bind, exec_outcome]
    refine ⟨v₁.saved, exec_update_of_storable hrow₁, ?_, ?_, saved_syncing v₁, fun g hg => ?_,
      fun hno => absurd hfilters (hno f), fun _ => ?_, fun hno => absurd hfilters (hno f)⟩
    · rw [saved_row]
    · rw [saved]
      split <;> rfl
    · rw [saved_row]
      exact Except.ok.inj (hf.symm.trans hg.created)
    · rw [saved_row, saved_stored]
  · rw [if_neg hmissing]
    exact ⟨v, rfl, rfl, rfl, rfl, fun f hf => absurd hf.missing hmissing, fun _ => rfl,
      fun hsome => hsome.elim fun f hf => absurd hf.missing hmissing, fun _ => rfl⟩

/-- Without a filter, the start ends. -/
theorem exec_createFilter_of_not_filtered (hstarting : Starting v) (hknown : Known env v)
    (h : ¬ Filtered env v) : v.row.filterId = "" ∧
      ((∃ e, env.createFilter = .error e ∧
          (createFilter env.createFilter).exec v = (.error e, v)) ∨
        ∃ f e, env.createFilter = .ok f ∧ ¬ Storable v ∧ e.isException = true ∧
          (createFilter env.createFilter).exec v =
            (.error e, { v with row := { v.row with filterId := f } })) := by
  have hmissing : v.row.filterId = "" := by
    by_contra hno
    exact h ⟨hstarting, hknown, fun hmissing => absurd hmissing hno⟩
  refine ⟨hmissing, ?_⟩
  rw [createFilter, exec_get_bind, when, if_pos hmissing, exec_bind, exec_outcome]
  cases hf : env.createFilter with
  | error e => exact .inl ⟨e, rfl, rfl⟩
  | ok f =>
    have hrow : ¬ Storable v := fun hrow => h ⟨hstarting, hknown, fun _ => ⟨⟨f, hf⟩, hrow⟩⟩
    let v₁ : ClientView := { v with row := { v.row with filterId := f } }
    have hrow₁ : ¬ Storable v₁ := hrow
    exact .inr ⟨f, _, rfl, hrow, rfl, exec_update_of_not_storable hrow₁⟩

/-- After the filter. -/
theorem exec_bringUp {x : ClientView}
    (h : (createFilter env.createFilter).exec v = (.ok (), x)) :
    (bringUp encrypted env).exec v = match env.profile? encrypted x.row with
      | some e => (.error e, x)
      | none   => match (updateRemoteProfile env.profile).exec x.synced with
        | (.error e, u) => (.error e, u)
        | (.ok _, u)    => (.ok (), { u with started := true }) := by
  rw [bringUp, exec_bind_ok h, exec_get_bind]
  refine (exec_calls (exec_when_raiseIf _ _ x) (exec_when_raiseIf _ _ x)
    (exec_when_startCrypto encrypted env.crypto x)).trans ?_
  rw [ClientStartEnv.profile?]
  split
  · rfl
  · rw [exec_modify_bind, exec_bind]
    rcases (updateRemoteProfile env.profile).exec x.synced with ⟨_ | _, _⟩ <;> rfl

/-! ### The end of a start -/

/-- Who is known has been asked about. -/
theorem Known.requests (h : Known env v) : env.requests = none := by
  obtain ⟨me, hwhoami, -⟩ := h.whoami
  rw [ClientStartEnv.requests, h.versions, hwhoami]
  rfl

/-- Who is rejected is not known. -/
theorem Rejected.not_known (h : Rejected env v) : ¬ Known env v := by
  intro hknown
  rcases h.requests with ⟨e, he, -⟩ | ⟨me, -, hme, hother⟩
  · rw [hknown.requests] at he
    cases he
  · obtain ⟨me', hme', hid, hdevice⟩ := hknown.whoami
    rw [hme, Except.ok.injEq] at hme'
    subst hme'
    rcases hother with hother | hother
    · exact hother hid
    · rw [hdevice] at hother
      cases hother

/-- A start that is interrupted has begun. -/
theorem Interrupted.starting (h : Interrupted env encrypted v) : Starting v := by
  cases h with
  | requests hstarting => exact hstarting
  | createFilter hstarting => exact hstarting
  | profile? hfiltered => exact hfiltered.starting
  | profile hsyncs => exact hsyncs.filtered.starting

/-- A start that is interrupted after the requests is one of a client that is known. -/
theorem Interrupted.requests_or_known (h : Interrupted env encrypted v) :
    (∃ e, env.requests = some e ∧ e.isException = false) ∨ Known env v := by
  cases h with
  | requests _ he hno => exact .inl ⟨_, he, hno⟩
  | createFilter _ hknown => exact .inr hknown
  | profile? hfiltered => exact .inr hfiltered.known
  | profile hsyncs => exact .inr hsyncs.filtered.known

/-- And its client was not rejected. -/
theorem Interrupted.not_rejected (h : Interrupted env encrypted v) : ¬ Rejected env v := by
  intro hrejected
  rcases h.requests_or_known with ⟨e, he, hno⟩ | hknown
  · rcases hrejected.requests with ⟨d, hd, hcls⟩ | ⟨-, hnone, -⟩
    · rw [he, Option.some.injEq] at hd
      rw [hd, PyExc.isException, hcls] at hno
      cases hno
    · rw [he] at hnone
      cases hnone
  · exact hrejected.not_known hknown

/-- The Matrix client does not matter. -/
theorem Interrupted.congr (h : Interrupted env encrypted v) (m : Ref) (filter : Option String) :
    Interrupted env encrypted { v with client := m, syncing := filter } := by
  have hstarting (h : Starting v) : Starting { v with client := m, syncing := filter } :=
    ⟨h.enabled, h.stopped⟩
  have hknown (h : Known env v) : Known env { v with client := m, syncing := filter } :=
    ⟨h.versions, h.whoami⟩
  have hfiltered (h : Filtered env v) : Filtered env { v with client := m, syncing := filter } :=
    ⟨hstarting h.starting, hknown h.known, h.created⟩
  cases h with
  | requests hs he hno => exact .requests (hstarting hs) he hno
  | createFilter hs hk hmissing he hno =>
    exact .createFilter (hstarting hs) (hknown hk) hmissing he hno
  | profile? hf he hno => exact .profile? (hfiltered hf) he hno
  | profile hs he => exact .profile ⟨hfiltered hs.filtered, hs.profile?⟩ he

/-- A start of which one sees nothing. -/
theorem Started.unseen {r : Except PyExc Unit} (hr : r = .ok () ↔ ¬ Interrupted env encrypted v)
    (hrejected : ¬ Rejected env v) (hfilters : ∀ f, ¬ Filters env v f)
    (hsyncs : ¬ Syncs env encrypted v) : Started env encrypted v r v where
  result := hr
  row := rfl
  client := rfl
  rejected h := absurd h hrejected
  enabled _ := rfl
  filtered f h := absurd h (hfilters f)
  filter _ := rfl
  syncs h := absurd h hsyncs
  syncing _ := rfl
  written := fun _ ⟨f, hf⟩ => absurd hf (hfilters f)
  stored _ := rfl

/-- … with an exception, which is handled or not. -/
theorem Started.raised {e : PyExc} (hr : Interrupted env encrypted v ↔ e.isException = false)
    (hrejected : ¬ Rejected env v) (hfilters : ∀ f, ¬ Filters env v f)
    (hsyncs : ¬ Syncs env encrypted v) :
    Started env encrypted v (handled (.error e)) v := by
  refine Started.unseen ?_ hrejected hfilters hsyncs
  rw [hr, handled]
  cases e.isException with
  | true => exact ⟨fun _ => nofun, fun _ => rfl⟩
  | false => exact ⟨nofun, fun h => absurd rfl h⟩

/-- The start disables the client. -/
theorem Started.disabled {r : Except PyExc Unit} (h : Rejected env v)
    (hr : disable.exec v = (r, u)) : Started env encrypted v (.ok ()) u := by
  obtain ⟨_, _, hr', -, hrow, hclient, hsyncing, hstored⟩ := exec_disable v
  rw [hr, Prod.mk.injEq] at hr'
  obtain ⟨-, rfl⟩ := hr'
  have hknown := h.not_known
  exact
    { result := ⟨fun _ hinterrupted => hinterrupted.not_rejected h, fun _ => rfl⟩
      row := by rw [hrow]
      client := hclient
      rejected := fun _ => by rw [hrow]
      enabled := fun hno => absurd h hno
      filtered := fun f hf => absurd hf.known hknown
      filter := fun _ => by rw [hrow]
      syncs := fun hs => absurd hs.filtered.known hknown
      syncing := fun _ => hsyncing
      written := fun _ ⟨f, hf⟩ => absurd hf.known hknown
      stored := fun hno => hstored fun hrow => (hno hrow).1 h }

/-- The start comes past the filter. -/
theorem Started.filtered_of {r : Except PyExc Unit} {x : ClientView} (h : Filtered env v)
    (hx : AfterFilter env v x) (hr : r = .ok () ↔ ¬ Interrupted env encrypted v)
    (hrow : u.row = x.row) (hclient : u.client = x.client) (hstored : u.stored = x.stored)
    (hsyncs : Syncs env encrypted v → u.syncing = x.synced.syncing)
    (hsyncing : ¬ Syncs env encrypted v → u.syncing = x.syncing) :
    Started env encrypted v r u := by
  have hrejected : ¬ Rejected env v := fun hrejected => hrejected.not_known h.known
  exact
    { result := hr
      row := by rw [hrow, hx.row]
      client := hclient.trans hx.client
      rejected := fun hno => absurd hno hrejected
      enabled := fun _ => by rw [hrow, hx.row]
      filtered := fun f hf => by rw [hrow, hx.filtered f hf]
      filter := fun hno => by rw [hrow, hx.filter hno]
      syncs := fun hs => by rw [hsyncs hs, synced, hrow, hx.syncing, hx.row]
      syncing := fun hno => (hsyncing hno).trans hx.syncing
      written := fun _ hf => by rw [hstored, hrow, hx.written hf]
      stored := fun hno => by
        by_cases hf : ∃ f, Filters env v f
        · obtain ⟨f, hf⟩ := hf
          exact absurd hf ((hno (h.created hf.missing).2).2 f)
        · rw [hstored, hx.stored fun f hf' => hf ⟨f, hf'⟩] }

/-- A start that is not filtered ends at the filter. -/
theorem started_of_not_filtered (hstarting : Starting v) (hknown : Known env v)
    (h : ¬ Filtered env v) {e : PyExc} (hr : (bringUp encrypted env).exec v = (.error e, u)) :
    Started env encrypted v (handled (.error e)) u := by
  have hsyncs : ¬ Syncs env encrypted v := fun hs => h hs.filtered
  have hrejected : ¬ Rejected env v := fun hrejected => hrejected.not_known hknown
  obtain ⟨hmissing, ⟨d, hd, hcreate⟩ | ⟨f, d, hf, hrow, hexception, hcreate⟩⟩ :=
    exec_createFilter_of_not_filtered hstarting hknown h
  · -- the filter is not created
    rw [bringUp, exec_bind_error hcreate, Prod.mk.injEq, Except.error.injEq] at hr
    obtain ⟨rfl, rfl⟩ := hr
    refine Started.raised ⟨fun hinterrupted => ?_, fun hno =>
      .createFilter hstarting hknown hmissing hd hno⟩ hrejected
      (fun f hf => by rw [hf.created] at hd; cases hd) hsyncs
    cases hinterrupted with
    | requests _ he => rw [hknown.requests] at he; cases he
    | createFilter _ _ _ he hno => rwa [Except.error.inj (hd.symm.trans he)]
    | profile? hfiltered => exact absurd hfiltered h
    | profile hs => exact absurd hs hsyncs
  · -- it is not stored
    rw [bringUp, exec_bind_error hcreate, Prod.mk.injEq, Except.error.injEq] at hr
    obtain ⟨rfl, rfl⟩ := hr
    have hfilters : Filters env v f := ⟨hstarting, hknown, hmissing, hf⟩
    rw [handled, if_pos hexception]
    exact
      { result := by
          refine ⟨fun _ hinterrupted => ?_, fun _ => rfl⟩
          cases hinterrupted with
          | requests _ he => rw [hknown.requests] at he; cases he
          | createFilter _ _ _ he => rw [hf] at he; cases he
          | profile? hfiltered => exact h hfiltered
          | profile hs => exact hsyncs hs
        row := rfl
        client := rfl
        rejected := fun hno => absurd hno hrejected
        enabled := fun _ => rfl
        filtered := fun g hg => Except.ok.inj (hf.symm.trans hg.created)
        filter := fun hno => absurd hfilters (hno f)
        syncs := fun hs => absurd hs hsyncs
        syncing := fun _ => rfl
        written := fun hstorable => absurd hstorable hrow
        stored := fun _ => rfl }

/-- A start that is filtered comes to the sync task, or ends at a call before it. -/
theorem started_of_filtered (h : Filtered env v) {r : Except PyExc Unit}
    (hr : (bringUp encrypted env).exec v = (r, u)) :
    Started env encrypted v (handled r) u := by
  obtain ⟨x, hcreate, hx⟩ := exec_createFilter h
  have hcalls : env.profile? encrypted x.row = env.profile? encrypted v.row := by rw [hx.row]; rfl
  have hrequests := h.known.requests
  rw [exec_bringUp hcreate, hcalls] at hr
  cases hraise : env.profile? encrypted v.row with
  -- the requests of the profile are refused before the sync begins
  | some e =>
    rw [hraise, Prod.mk.injEq] at hr
    obtain ⟨rfl, rfl⟩ := hr
    have hsyncs : ¬ Syncs env encrypted v := fun hs => by
      have hnone := hs.profile?
      rw [hraise] at hnone
      cases hnone
    refine Started.filtered_of h hx ?_ rfl rfl rfl (fun hs => absurd hs hsyncs) fun _ => rfl
    rw [handled]
    split
    · next hexception =>
      refine ⟨fun _ hinterrupted => ?_, fun _ => rfl⟩
      cases hinterrupted with
      | requests _ he => rw [hrequests] at he; cases he
      | createFilter _ _ hmissing he =>
        obtain ⟨⟨f, hf⟩, -⟩ := h.created hmissing
        rw [hf] at he
        cases he
      | profile? _ he hno =>
        rw [hraise, Option.some.injEq] at he
        rw [he, hno] at hexception
        cases hexception
      | profile hs => exact hsyncs hs
    · next hno => exact ⟨nofun, fun h' => absurd (.profile? h hraise (by simpa using hno)) h'⟩
  -- the client syncs; only its own profile can still interrupt the start
  | none =>
    have hsyncs : Syncs env encrypted v := ⟨h, hraise⟩
    rw [hraise] at hr
    dsimp only at hr
    rcases exec_updateRemoteProfile env.profile x.synced with ⟨e, he, hno, hrun⟩ | ⟨hnot, hrun⟩
    · rw [hrun, Prod.mk.injEq] at hr
      obtain ⟨rfl, rfl⟩ := hr
      refine Started.filtered_of h hx ?_ rfl rfl rfl (fun _ => rfl) fun hno => absurd hsyncs hno
      rw [handled, if_neg (by rw [hno]; exact Bool.false_ne_true)]
      exact ⟨nofun, fun h' => absurd (.profile hsyncs ⟨e, he, hno⟩) h'⟩
    · rw [hrun, Prod.mk.injEq] at hr
      obtain ⟨rfl, rfl⟩ := hr
      refine Started.filtered_of h hx ⟨fun _ hinterrupted => ?_, fun _ => rfl⟩ rfl rfl rfl
        (fun _ => rfl) fun hno => absurd hsyncs hno
      cases hinterrupted with
      | requests _ he => rw [hrequests] at he; cases he
      | createFilter _ _ hmissing he =>
        obtain ⟨⟨f, hf⟩, -⟩ := h.created hmissing
        rw [hf] at he
        cases he
      | profile? _ he => rw [hraise] at he; cases he
      | profile _ he => exact hnot he

/-- Every start ends so. -/
theorem started_start (env : ClientStartEnv) (encrypted : Bool) (v : ClientView) :
    Started env encrypted v ((start encrypted 0 env).exec v).1
      ((start encrypted 0 env).exec v).2 := by
  rw [exec_start]
  rcases hr : (tryStart encrypted 0 env).exec v with ⟨r, u⟩
  show Started env encrypted v (handled r) u
  rw [tryStart, exec_get_bind] at hr
  have hidle (hno : ¬ Starting v) : Started env encrypted v (.ok ()) v :=
    Started.unseen ⟨fun _ h => hno h.starting, fun _ => rfl⟩ (fun h => hno h.starting)
      (fun _ h => hno h.starting) fun h => hno h.filtered.starting
  cases henabled : v.row.enabled with
  | false =>
    rw [henabled, Bool.not_false, if_pos rfl, exec_pure, Prod.mk.injEq] at hr
    obtain ⟨rfl, rfl⟩ := hr
    exact hidle fun h => by rw [h.enabled] at henabled; cases henabled
  | true =>
  cases hstarted : v.started with
  | true =>
    rw [henabled, hstarted, Bool.not_true, if_neg Bool.false_ne_true, if_pos rfl, exec_pure,
      Prod.mk.injEq] at hr
    obtain ⟨rfl, rfl⟩ := hr
    exact hidle fun h => by rw [h.stopped] at hstarted; cases hstarted
  | false =>
  have hstarting : Starting v := ⟨henabled, hstarted⟩
  rw [henabled, hstarted, Bool.not_true, if_neg Bool.false_ne_true, if_neg Bool.false_ne_true,
    exec_bind, exec_attempt] at hr
  rcases exec_requests env with ⟨e, he, hrun⟩ | ⟨hnone, hversions, me, hme, hrun⟩
  · -- a request is refused
    have hunknown : ¬ Known env v := fun h => by rw [h.requests] at he; cases he
    have hraised (hcls : e.cls ≠ .matrixInvalidToken) :
        Started env encrypted v (handled (.error e)) v := by
      refine Started.raised ⟨fun h => ?_, fun hno => .requests hstarting he hno⟩ (fun h => ?_)
        (fun f h => hunknown h.known) fun h => hunknown h.filtered.known
      · obtain ⟨d, hd, hno⟩ := h.requests_or_known.resolve_right hunknown
        rwa [Option.some.inj (he.symm.trans hd)]
      · rcases h.requests with ⟨d, hd, hinvalid⟩ | ⟨_, hnone, -⟩
        · exact hcls (by rwa [Option.some.inj (he.symm.trans hd)])
        · rw [he] at hnone
          cases hnone
    rw [hrun] at hr
    dsimp only at hr
    cases hexception : e.isException with
    | false =>
      rw [hexception, if_neg Bool.false_ne_true, Prod.mk.injEq] at hr
      obtain ⟨rfl, rfl⟩ := hr
      refine hraised fun hcls => ?_
      rw [PyExc.isException, hcls] at hexception
      cases hexception
    | true =>
      rw [hexception, if_pos rfl] at hr
      dsimp only at hr
      by_cases hcls : e.cls = .matrixInvalidToken
      · rw [if_pos hcls] at hr
        obtain ⟨_, _, hdisable, hexceptions, -⟩ := exec_disable v
        rw [hr, Prod.mk.injEq] at hdisable
        obtain ⟨rfl, -⟩ := hdisable
        rw [handled_of_exceptions hexceptions]
        exact Started.disabled ⟨hstarting, .inl ⟨e, he, hcls⟩⟩ hr
      · rw [if_neg hcls, if_neg (by decide), exec_pure, Prod.mk.injEq] at hr
        obtain ⟨rfl, rfl⟩ := hr
        have h := hraised hcls
        rwa [handled, if_pos hexception] at h
  · -- they are answered
    rw [hrun] at hr
    dsimp only at hr
    by_cases hother : me.userId ≠ v.id ∨ Client.otherDevice me v.row.deviceId = true
    · have hdisabled : disable.exec v = (r, u) := by
        by_cases hid : me.userId ≠ v.id
        · rwa [if_pos hid] at hr
        · rwa [if_neg hid, if_pos (hother.resolve_left hid)] at hr
      obtain ⟨_, _, hdisable, hexceptions, -⟩ := exec_disable v
      rw [hdisabled, Prod.mk.injEq] at hdisable
      obtain ⟨rfl, -⟩ := hdisable
      rw [handled_of_exceptions hexceptions]
      exact Started.disabled ⟨hstarting, .inr ⟨me, hnone, hme, hother⟩⟩ hdisabled
    · obtain ⟨hid, hdevice⟩ := not_or.mp hother
      have hknown : Known env v :=
        ⟨hversions, me, hme, not_ne_iff.mp hid, by simpa using hdevice⟩
      rw [if_neg hid, if_neg hdevice] at hr
      by_cases hfiltered : Filtered env v
      · exact started_of_filtered hfiltered hr
      · cases r with
        | error e => exact started_of_not_filtered hstarting hknown hfiltered hr
        | ok _ =>
          -- without a filter, the start raises
          obtain ⟨-, ⟨d, -, hcreate⟩ | ⟨f, d, -, -, -, hcreate⟩⟩ :=
            exec_createFilter_of_not_filtered hstarting hknown hfiltered
          all_goals rw [bringUp, exec_bind_error hcreate] at hr; cases hr

/-! ### Starts that change nothing -/

/-- The start sets what the client has: the filter that it is given is the empty one that it has,
    with a row that shows the client, and the sync task runs with the filter. -/
structure Unnoticed (env : ClientStartEnv) (encrypted : Bool) (v : ClientView) : Prop where
  filter : ∀ f, Filters env v f → f = "" ∧
    (Storable v → v.stored = v.stored.map fun _ => v.row)
  sync   : Syncs env encrypted v → v.row.sync = true → v.syncing = some v.row.filterId

/-- Such a start leaves the client as it is, up to `enabled`; every other start changes it. -/
theorem Started.unnoticed_iff {r : Except PyExc Unit} (h : Started env encrypted v r u)
    (hrejected : Storable v → ¬ Rejected env v) :
    (u.row.filterId = v.row.filterId ∧ u.syncing = v.syncing ∧ u.stored = v.stored) ↔
      Unnoticed env encrypted v := by
  -- the row, where it can be written
  have hrow (hstorable : Storable v) (hfilter : u.row.filterId = v.row.filterId) :
      u.row = v.row := by
    rw [h.row, h.enabled (hrejected hstorable), hfilter]
  constructor
  · rintro ⟨hfilter, hsyncing, hstored⟩
    refine ⟨fun f hf => ⟨?_, fun hstorable => ?_⟩, fun hsyncs hsync => ?_⟩
    · rw [← h.filtered f hf, hfilter, hf.missing]
    · calc v.stored
          _ = u.stored := hstored.symm
          _ = v.stored.map fun _ => u.row := h.written hstorable ⟨f, hf⟩
          _ = v.stored.map fun _ => v.row := by rw [hrow hstorable hfilter]
    · rw [← hsyncing, h.syncs hsyncs, if_pos hsync, hfilter]
  · intro hunnoticed
    have hfilter : u.row.filterId = v.row.filterId := by
      by_cases hfilters : ∃ f, Filters env v f
      · obtain ⟨f, hf⟩ := hfilters
        rw [h.filtered f hf, (hunnoticed.filter f hf).1, hf.missing]
      · exact h.filter fun f hf => hfilters ⟨f, hf⟩
    refine ⟨hfilter, ?_, ?_⟩
    · by_cases hsyncs : Syncs env encrypted v
      · rw [h.syncs hsyncs, hfilter]
        split
        · next hsync => exact (hunnoticed.sync hsyncs hsync).symm
        · rfl
      · exact h.syncing hsyncs
    · by_cases hwritten : Storable v ∧ ∃ f, Filters env v f
      · obtain ⟨hstorable, f, hf⟩ := hwritten
        rw [h.written hstorable ⟨f, hf⟩, hrow hstorable hfilter]
        exact ((hunnoticed.filter f hf).2 hstorable).symm
      · exact h.stored fun hstorable =>
          ⟨hrejected hstorable, fun f hf => hwritten ⟨hstorable, f, hf⟩⟩

end ClientView

end Maubot
